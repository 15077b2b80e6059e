import LetterArithmetic.Text.Integer
import LetterArithmetic.Tree

/-!
A tree as an indented outline, one node to a line, parents before children and left before right. The lines are
made from a list of the trees still ahead, so a tall tree needs no deep recursion. The first line that cannot be made
is the fault of the outline.
-/

set_option autoImplicit false

namespace LetterArithmetic

inductive OutlineFault where
  | indentation
  | long (f : LongNumber)
  deriving DecidableEq, Repr

def OutlineFault.message : OutlineFault → String
  | indentation => "cannot fit 'int' into an index-sized integer"
  | long f => f.message

def Tree.caption : Tree → Except LongNumber String
  | number v => (Text.writeInteger v).map fun s => "Number(" ++ s ++ ")"
  | binary s _ _ => .ok ("BinaryOp(" ++ s.text ++ ")")
  | bare _ => .ok "Unknown node type: <class 'ast_nodes.ASTNode'>"

namespace Outline

def isMachineWord (n : Int) : Bool := -9223372036854775808 ≤ n && n < 9223372036854775808

def spaces (n : Int) : Except OutlineFault String :=
  if isMachineWord n then .ok (String.ofList (List.replicate n.toNat ' ')) else .error .indentation

structure Entry where
  tree : Tree
  indent : Int
  lead : String

def Entry.line (e : Entry) : Except OutlineFault String := do
  let margin ← spaces e.indent
  let caption ← e.tree.caption.mapError .long
  return margin ++ e.lead ++ caption

/-- The entries of the parts, two further in; a negative indentation grows too. -/
def Entry.parts (e : Entry) : List Entry :=
  match e.tree with
  | .binary _ l r => [⟨l, e.indent + 2, "left: "⟩, ⟨r, e.indent + 2, "right: "⟩]
  | _ => []

theorem Entry.parts_size (e : Entry) (n : Nat) :
    e.parts.foldr (fun p m => p.tree.size + m) n < e.tree.size + n := by
  cases h : e.tree with
  | binary s l r =>
    simp only [parts, h, Tree.size, List.foldr_cons, List.foldr_nil]
    omega
  | _ => simp [parts, h, Tree.size]

/-- The lines of the entries ahead, behind those in `done`, which lie latest first. -/
def lines (done : List String) : List Entry → Except OutlineFault (List String)
  | [] => .ok done.reverse
  | e :: ahead => e.line >>= fun line => lines (line :: done) (e.parts ++ ahead)
termination_by ahead => ahead.foldr (fun e n => e.tree.size + n) 0
decreasing_by
  simp only [List.foldr_append, List.foldr_cons]
  exact e.parts_size _

end Outline

def Tree.outline (t : Tree) (indent : Int) (lead : String) : Except OutlineFault String :=
  (Outline.lines [] [⟨t, indent, lead⟩]).map "\n".intercalate

end LetterArithmetic
