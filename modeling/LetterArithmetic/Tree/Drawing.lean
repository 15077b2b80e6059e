import LetterArithmetic.Text.Integer
import LetterArithmetic.Tree

/-!
A tree as a graph: what is told, in order, to a library that draws. There is a statement for each node, numbered from
the root in the order parent, left, right, and behind each but the first the edge that leads to it.
-/

set_option autoImplicit false

namespace LetterArithmetic

namespace Drawing

abbrev Values := List (String × String)

/-- Values for a part of the picture or for all of it, a node by its name, or an edge by the names of its ends. -/
inductive Statement where
  | values (part : Option String) (values : Values)
  | node (name : String) (values : Values)
  | edge (tail head : String) (values : Values)
  deriving DecidableEq, Repr

def name (id : Nat) : String := "n" ++ id.repr

end Drawing

def Tree.label : Tree → Except LongNumber String
  | number v => Text.writeInteger v
  | binary s _ _ => .ok s.text
  | bare k => .ok k.name

def Tree.shape : Tree → String
  | number _ => "box"
  | binary .. => "circle"
  | bare _ => "diamond"

namespace Drawing

structure Entry where
  tree : Tree
  above : Option (String × String)

def Entry.incoming (e : Entry) (id : Nat) : List Statement :=
  match e.above with
  | some (parent, side) => [.edge parent (name id) [("label", side)]]
  | none => []

def Entry.statements (e : Entry) (id : Nat) : Except LongNumber (List Statement) :=
  e.tree.label.map fun label =>
    .node (name id) [("label", label), ("shape", e.tree.shape)] :: e.incoming id

def Entry.parts (e : Entry) (id : Nat) : List Entry :=
  match e.tree with
  | .binary _ l r => [⟨l, some (name id, "left")⟩, ⟨r, some (name id, "right")⟩]
  | _ => []

theorem Entry.parts_size (e : Entry) (id n : Nat) :
    (e.parts id).foldr (fun p m => p.tree.size + m) n < e.tree.size + n := by
  cases h : e.tree with
  | binary s l r =>
    simp only [parts, h, Tree.size, List.foldr_cons, List.foldr_nil]
    omega
  | _ => simp [parts, h, Tree.size]

/-- The statements of the entries ahead, numbered from `id` on, behind those in `done`, which lie latest first. -/
def statements (id : Nat) (done : List Statement) : List Entry → Except LongNumber (List Statement)
  | [] => .ok done.reverse
  | e :: ahead => e.statements id >>= fun ss => statements (id + 1) (ss.reverse ++ done) (e.parts id ++ ahead)
termination_by ahead => ahead.foldr (fun e n => e.tree.size + n) 0
decreasing_by
  simp only [List.foldr_append, List.foldr_cons]
  exact e.parts_size id _

def titled (title : String) : List Statement :=
  if title = "" then [] else [.values none [("label", title), ("labelloc", "t")]]

end Drawing

def Tree.drawing (t : Tree) (title : String) : Except LongNumber (List Drawing.Statement) :=
  (Drawing.statements 0 [] [⟨t, none⟩]).map fun ss =>
    .values (some "graph") [("rankdir", "TB")] :: (Drawing.titled title ++ ss)

end LetterArithmetic
