import LetterArithmetic.Proofs.Numerals
import LetterArithmetic.Proofs.Walk
import LetterArithmetic.Tree.Drawing
import Mathlib.Logic.Relation

/-!
Drawings as numbered trees. The nodes have the numbers of their places in the order parent, left, right, so a part takes
as many numbers in a row as it has nodes, and its left part comes right behind it. Main statement: a drawing is what
recursion over the tree draws, a node for each number and behind it the edge that leads there; and its text tells what
expression is drawn.
-/

set_option autoImplicit false

namespace LetterArithmetic

open Drawing

def Sign.shown : Sign → String
  | known .add => "+"
  | known .subtract => "-"
  | known .multiply => "*"
  | known .divide => "/"
  | unknown name => name

theorem Sign.text_eq_shown (s : Sign) : s.text = s.shown := by
  cases s with
  | known op => cases op <;> rfl
  | unknown name => rfl

def Drawing.Statement.link (tail head : Nat) (side : String) : Statement :=
  .edge ("n" ++ tail.repr) ("n" ++ head.repr) [("label", side)]

namespace Tree

def preorder : Tree → List Tree
  | number v => [number v]
  | binary s l r => binary s l r :: (l.preorder ++ r.preorder)
  | bare k => [bare k]

def nodeAt (id : Nat) : Tree → Statement
  | number v => .node ("n" ++ id.repr) [("label", v.repr), ("shape", "box")]
  | binary s _ _ => .node ("n" ++ id.repr) [("label", s.shown), ("shape", "circle")]
  | bare .number => .node ("n" ++ id.repr) [("label", "NUMBER"), ("shape", "diamond")]
  | bare .binary => .node ("n" ++ id.repr) [("label", "BINARY_OP"), ("shape", "diamond")]

def outgoing (id : Nat) : Tree → List Statement
  | binary _ l _ => [.link id (id + 1) "left", .link id (id + 1 + l.size) "right"]
  | _ => []

/-- A drawing by recursion: the node, with the edges that lead there, and then the parts, each with the edge to it. -/
def numbered (id : Nat) (incoming : List Statement) : Tree → List Statement
  | number v => (number v).nodeAt id :: incoming
  | binary s l r =>
      (binary s l r).nodeAt id :: (incoming ++ (l.numbered (id + 1) [.link id (id + 1) "left"] ++
        r.numbered (id + 1 + l.size) [.link id (id + 1 + l.size) "right"]))
  | bare k => (bare k).nodeAt id :: incoming

@[simp] theorem size_ne_zero (t : Tree) : t.size ≠ 0 := by
  cases t <;> simp [size]

theorem length_preorder (t : Tree) : t.preorder.length = t.size := by
  induction t with
  | binary s l r ihl ihr => simp [preorder, size, ihl, ihr]
  | _ => simp [preorder, size]

theorem getElem?_preorder_zero (t : Tree) (rest : List Tree) : (t.preorder ++ rest)[0]? = some t := by
  cases t <;> rfl

theorem exists_preorder_eq {t u : Tree} {i : Nat} (hu : t.preorder[i]? = some u) :
    ∃ before after, t.preorder = before ++ (u.preorder ++ after) ∧ before.length = i := by
  induction t generalizing i with
  | binary s l r ihl ihr =>
    cases i with
    | zero =>
      obtain rfl := Option.some.inj hu
      exact ⟨[], [], by rw [List.append_nil, List.nil_append], rfl⟩
    | succ i =>
      rw [preorder, List.getElem?_cons_succ, List.getElem?_append] at hu
      split at hu
      case isTrue hlt =>
        obtain ⟨before, after, hl, rfl⟩ := ihl hu
        exact ⟨binary s l r :: before, after ++ r.preorder, by simp [preorder, hl], rfl⟩
      case isFalse hge =>
        obtain ⟨before, after, hr, hlen⟩ := ihr hu
        refine ⟨binary s l r :: (l.preorder ++ before), after, by simp [preorder, hr], ?_⟩
        simp only [List.length_cons, List.length_append]
        omega
  | _ =>
    cases i with
    | zero =>
      obtain rfl := Option.some.inj hu
      exact ⟨[], [], by rw [List.append_nil, List.nil_append], rfl⟩
    | succ i => cases hu

theorem preorder_parts {t l r : Tree} {s : Sign} {i : Nat} (h : t.preorder[i]? = some (.binary s l r)) :
    t.preorder[i + 1]? = some l ∧ t.preorder[i + 1 + l.size]? = some r := by
  obtain ⟨before, after, ht, rfl⟩ := exists_preorder_eq h
  have hplace (k : Nat) : t.preorder[before.length + 1 + k]? = (l.preorder ++ (r.preorder ++ after))[k]? := by
    rw [ht, Nat.add_assoc, Nat.add_comm 1, List.getElem?_append_right (Nat.le_add_right _ _),
      Nat.add_sub_cancel_left, preorder, List.cons_append, List.getElem?_cons_succ, List.append_assoc]
  constructor
  · exact (hplace 0).trans (getElem?_preorder_zero l _)
  · rw [hplace, List.getElem?_append_right (Nat.le_of_eq l.length_preorder), length_preorder, Nat.sub_self,
      getElem?_preorder_zero]

end Tree

namespace Drawing

section Loop

variable {t : Tree} {id : Nat} {above : Option (String × String)}

theorem Entry.statements_eq_ok (hw : ∀ v ∈ t.leaves, Text.isWritable v = true) :
    Entry.statements ⟨t, above⟩ id = .ok (t.nodeAt id :: Entry.incoming ⟨t, above⟩ id) := by
  cases t with
  | number v =>
    have hv : Text.isWritable v = true := hw v (List.mem_singleton_self v)
    rw [Entry.statements, Tree.label, Text.writeInteger, if_pos hv]
    rfl
  | binary s l r =>
    rw [Entry.statements, Tree.label, s.text_eq_shown]
    rfl
  | bare k => cases k <;> rfl

theorem statements_binary (s : Sign) (l r : Tree) (done : List Statement) (ahead : List Entry) :
    statements id done (⟨.binary s l r, above⟩ :: ahead) =
      statements (id + 1) (((Tree.binary s l r).nodeAt id :: Entry.incoming ⟨.binary s l r, above⟩ id).reverse ++ done)
        (⟨l, some (name id, "left")⟩ :: ⟨r, some (name id, "right")⟩ :: ahead) := by
  rw [statements, Entry.statements, Tree.label, s.text_eq_shown]
  rfl

/-- The entries ahead of a tree wait until all of it is numbered. -/
theorem statements_entry (hw : ∀ v ∈ t.leaves, Text.isWritable v = true) (done : List Statement) (ahead : List Entry) :
    statements id done (⟨t, above⟩ :: ahead) =
      statements (id + t.size) ((t.numbered id (Entry.incoming ⟨t, above⟩ id)).reverse ++ done) ahead := by
  induction t generalizing id above done ahead with
  | binary s l r ihl ihr =>
    have hl := @ihl (id + 1) (some (name id, "left")) fun v hv => hw v (List.mem_append_left _ hv)
    have hr := @ihr (id + 1 + l.size) (some (name id, "right")) fun v hv => hw v (List.mem_append_right _ hv)
    have hsize : id + (l.size + r.size + 1) = id + 1 + l.size + r.size := by omega
    -- all of the left part is numbered before the right one comes up
    rw [statements_binary, hl, hr, Tree.size, hsize, Tree.numbered]
    simp only [List.reverse_cons, List.reverse_append, List.append_assoc]
    rfl
  | _ =>
    rw [statements, Entry.statements_eq_ok hw]
    rfl

theorem statements_long (hw : ¬∀ v ∈ t.leaves, Text.isWritable v = true) (done : List Statement) (ahead : List Entry) :
    statements id done (⟨t, above⟩ :: ahead) = .error {} := by
  induction t generalizing id above done ahead with
  | number v =>
    have hv : ¬Text.isWritable v = true := fun h => hw fun w hmem => List.mem_singleton.mp hmem ▸ h
    rw [statements, Entry.statements, Tree.label, Text.writeInteger, if_neg hv]
    rfl
  | binary s l r ihl ihr =>
    rw [statements_binary]
    by_cases hl : ∀ v ∈ l.leaves, Text.isWritable v = true
    · have hr : ¬∀ v ∈ r.leaves, Text.isWritable v = true := fun h =>
        hw fun v hv => (List.mem_append.mp hv).elim (hl v) (h v)
      rw [statements_entry hl, ihr hr]
    · exact ihl hl _ _
  | bare k => exact absurd (by simp [Tree.leaves]) hw

end Loop

namespace Statement

def isNode : Statement → Bool
  | node .. => true
  | _ => false

def isFrom (id : Nat) : Statement → Bool
  | edge tail _ _ => tail == "n" ++ id.repr
  | _ => false

def isTo (id : Nat) : Statement → Bool
  | edge _ head _ => head == "n" ++ id.repr
  | _ => false

theorem repr_inj {m n : Nat} (h : m.repr = n.repr) : m = n := by
  have hdigits : Nat.toDigits 10 m = Nat.toDigits 10 n := by rw [← Nat.toList_repr, h, Nat.toList_repr]
  rw [← Nat.ofDigitChars_ten_toDigits (n := m), hdigits, Nat.ofDigitChars_ten_toDigits]

@[simp] theorem isNode_link (tail head : Nat) (side : String) : (link tail head side).isNode = false := rfl

@[simp] theorem isFrom_link {tail head id : Nat} {side : String} : (link tail head side).isFrom id = (tail == id) := by
  rw [Bool.eq_iff_iff]
  simp only [link, isFrom, beq_iff_eq, String.append_right_inj]
  exact ⟨repr_inj, fun h => h ▸ rfl⟩

@[simp] theorem isTo_link {tail head id : Nat} {side : String} : (link tail head side).isTo id = (head == id) := by
  rw [Bool.eq_iff_iff]
  simp only [link, isTo, beq_iff_eq, String.append_right_inj]
  exact ⟨repr_inj, fun h => h ▸ rfl⟩

end Statement

end Drawing

namespace Tree

section Nodes

variable {t u : Tree} {id i k : Nat} {incoming : List Statement}

@[simp] theorem isNode_nodeAt (t : Tree) (id : Nat) : (t.nodeAt id).isNode = true := by
  cases t with
  | bare k => cases k <;> rfl
  | _ => rfl

@[simp] theorem isFrom_nodeAt (t : Tree) (id i : Nat) : (t.nodeAt id).isFrom i = false := by
  cases t with
  | bare k => cases k <;> rfl
  | _ => rfl

@[simp] theorem isTo_nodeAt (t : Tree) (id i : Nat) : (t.nodeAt id).isTo i = false := by
  cases t with
  | bare k => cases k <;> rfl
  | _ => rfl

theorem filter_isNode_numbered (h : incoming.filter Statement.isNode = []) :
    (t.numbered id incoming).filter Statement.isNode = (t.preorder.zipIdx id).map fun x => x.1.nodeAt x.2 := by
  induction t generalizing id incoming with
  | binary s l r ihl ihr =>
    simp [numbered, preorder, h, ihl, ihr, List.zipIdx_append, length_preorder]
  | _ => simp [numbered, preorder, h]

theorem filter_isFrom_outside (t : Tree) (id : Nat) (incoming : List Statement) (h : i < id ∨ id + t.size ≤ i) :
    (t.numbered id incoming).filter (Statement.isFrom i) = incoming.filter (Statement.isFrom i) := by
  induction t generalizing id incoming with
  | binary s l r ihl ihr =>
    rw [size] at h
    have hid : id ≠ i := by omega
    simp [numbered, ihl (id + 1) _ (by omega), ihr (id + 1 + l.size) _ (by omega), hid]
  | _ => simp [numbered]

theorem filter_isFrom_numbered (id : Nat) (incoming : List Statement)
    (h : incoming.filter (Statement.isFrom (id + k)) = []) (hu : t.preorder[k]? = some u) :
    (t.numbered id incoming).filter (Statement.isFrom (id + k)) = u.outgoing (id + k) := by
  induction t generalizing id k incoming with
  | binary s l r ihl ihr =>
    cases k with
    | zero =>
      obtain rfl := Option.some.inj hu
      have hl := l.filter_isFrom_outside (id + 1) [.link id (id + 1) "left"] (.inl (Nat.lt_succ_self id))
      have hr := r.filter_isFrom_outside (id + 1 + l.size) [.link id (id + 1 + l.size) "right"]
        (.inl (show id < id + 1 + l.size by omega))
      rw [Nat.add_zero] at h ⊢
      simp [numbered, h, hl, hr, outgoing]
    | succ k =>
      -- the node is in one of the two parts, and no edge of the other part leads away from it
      rw [preorder, List.getElem?_cons_succ, List.getElem?_append] at hu
      split at hu
      case isTrue hlt =>
        rw [length_preorder] at hlt
        have hid : id + (k + 1) = id + 1 + k := by omega
        have hr := r.filter_isFrom_outside (id + 1 + l.size) [.link id (id + 1 + l.size) "right"]
          (.inl (show id + 1 + k < id + 1 + l.size by omega))
        rw [hid] at h ⊢
        have hl := ihl (id + 1) [.link id (id + 1) "left"] (by simp; omega) hu
        simp [numbered, h, hl, hr]
        omega
      case isFalse hge =>
        rw [length_preorder] at hge hu
        obtain ⟨j, rfl⟩ := Nat.exists_eq_add_of_le (Nat.le_of_not_lt hge)
        rw [Nat.add_sub_cancel_left] at hu
        have hid : id + (l.size + j + 1) = id + 1 + l.size + j := by omega
        have hl := l.filter_isFrom_outside (id + 1) [.link id (id + 1) "left"]
          (.inr (Nat.le_add_right (id + 1 + l.size) j))
        rw [hid] at h ⊢
        have hr := ihr (id + 1 + l.size) [.link id (id + 1 + l.size) "right"] (by simp; omega) hu
        simp [numbered, h, hl, hr]
        omega
  | _ =>
    cases k with
    | zero =>
      obtain rfl := Option.some.inj hu
      simpa [numbered, outgoing] using h
    | succ k => cases hu

theorem filter_isTo_outside (t : Tree) (id : Nat) (incoming : List Statement) (h : i ≤ id ∨ id + t.size ≤ i) :
    (t.numbered id incoming).filter (Statement.isTo i) = incoming.filter (Statement.isTo i) := by
  induction t generalizing id incoming with
  | binary s l r ihl ihr =>
    rw [size] at h
    have hr := r.size_ne_zero
    have hleft : id + 1 ≠ i := by omega
    have hright : id + 1 + l.size ≠ i := by omega
    simp [numbered, ihl (id + 1) _ (by omega), ihr (id + 1 + l.size) _ (by omega), hleft, hright]
  | _ => simp [numbered]

theorem filter_isTo_numbered (id : Nat) (incoming : List Statement) (h : incoming.filter (Statement.isTo i) = [])
    (hi : id < i) (hsize : i < id + t.size) :
    ∃ tail side, tail < i ∧ (t.numbered id incoming).filter (Statement.isTo i) = [.link tail i side] := by
  induction t generalizing id incoming with
  | binary s l r ihl ihr =>
    rw [size] at hsize
    simp only [numbered, List.filter_cons, isTo_nodeAt, List.filter_append, h, List.nil_append, Bool.false_eq_true,
      if_false]
    by_cases hleft : i < id + 1 + l.size
    · have hr := r.filter_isTo_outside (id + 1 + l.size) [.link id (id + 1 + l.size) "right"]
        (.inl (Nat.le_of_lt hleft))
      have hout : id + 1 + l.size ≠ i := by omega
      rw [hr]
      by_cases hroot : i = id + 1
      · subst hroot
        refine ⟨id, "left", Nat.lt_succ_self id, ?_⟩
        rw [filter_isTo_outside _ _ _ (.inl (Nat.le_refl _))]
        simp
      · obtain ⟨tail, side, htail, hl⟩ := ihl (id + 1) [.link id (id + 1) "left"]
          (by simp; omega) (by omega) hleft
        exact ⟨tail, side, htail, by simp [hl, hout]⟩
    · have hl := l.filter_isTo_outside (id + 1) [.link id (id + 1) "left"] (.inr (Nat.le_of_not_lt hleft))
      have hpos := l.size_ne_zero
      have hout : id + 1 ≠ i := by omega
      rw [hl]
      by_cases hroot : i = id + 1 + l.size
      · subst hroot
        refine ⟨id, "right", by omega, ?_⟩
        rw [filter_isTo_outside _ _ _ (.inl (Nat.le_refl _))]
        simp
      · obtain ⟨tail, side, htail, hr⟩ := ihr (id + 1 + l.size)
          [.link id (id + 1 + l.size) "right"] (by simp; omega) (by omega) (by omega)
        exact ⟨tail, side, htail, by simp [hr, hout]⟩
  | _ =>
    rw [size] at hsize
    omega

end Nodes

def Leads (t : Tree) (i j : Nat) : Prop := ∃ side, Statement.link i j side ∈ t.numbered 0 []

section Numbers

variable {t u : Tree} {i : Nat}

theorem filter_isFrom_eq (hu : t.preorder[i]? = some u) :
    (t.numbered 0 []).filter (Statement.isFrom i) = u.outgoing i := by
  have hfrom := filter_isFrom_numbered 0 [] rfl hu
  rwa [Nat.zero_add] at hfrom

theorem filter_isTo_eq (hu : t.preorder[i]? = some u) :
    (i = 0 → (t.numbered 0 []).filter (Statement.isTo i) = []) ∧
    (i ≠ 0 → ∃ tail side, tail < i ∧ (t.numbered 0 []).filter (Statement.isTo i) = [.link tail i side]) := by
  refine ⟨fun hi => filter_isTo_outside t 0 [] (.inl (Nat.le_of_eq hi)), fun hi => ?_⟩
  obtain ⟨hlt, -⟩ := List.getElem?_eq_some_iff.mp hu
  rw [length_preorder] at hlt
  exact filter_isTo_numbered 0 [] rfl (Nat.pos_of_ne_zero hi) (by omega)

theorem leads_iff (hu : t.preorder[i]? = some u) (j : Nat) :
    t.Leads i j ↔ ∃ side, Statement.link i j side ∈ u.outgoing i := by
  rw [← filter_isFrom_eq hu]
  simp [Leads]

theorem link_inj {a b c d : Nat} {s s' : String} :
    Statement.link a b s = Statement.link c d s' ↔ a = c ∧ b = d ∧ s = s' := by
  refine ⟨fun h => ?_, by rintro ⟨rfl, rfl, rfl⟩; rfl⟩
  simp only [Statement.link, Statement.edge.injEq, String.append_right_inj] at h
  obtain ⟨hac, hbd, hs⟩ := h
  exact ⟨Statement.repr_inj hac, Statement.repr_inj hbd, by simpa using hs⟩

/-- What hangs below a node, itself included, has the numbers from its own on, as many as it has nodes. -/
theorem reaches_iff (hu : t.preorder[i]? = some u) (j : Nat) :
    Relation.ReflTransGen t.Leads i j ↔ i ≤ j ∧ j < i + u.size := by
  induction u generalizing i with
  | binary s l r ihl ihr =>
    obtain ⟨hl, hr⟩ := preorder_parts hu
    have hleads : ∀ k, t.Leads i k ↔ k = i + 1 ∨ k = i + 1 + l.size := by
      intro k
      rw [leads_iff hu]
      simp [outgoing, link_inj, exists_or]
    rw [Relation.ReflTransGen.cases_head_iff]
    simp only [hleads, or_and_right, exists_or, exists_eq_left, ihl hl, ihr hr, size]
    omega
  | _ =>
    rw [Relation.ReflTransGen.cases_head_iff]
    simp only [leads_iff hu, outgoing, List.not_mem_nil, exists_false, false_and, or_false, size]
    omega

end Numbers

theorem drawing_eq_ok (t : Tree) (title : String) (hw : ∀ v ∈ t.leaves, Text.isWritable v = true) :
    t.drawing title = .ok (.values (some "graph") [("rankdir", "TB")] ::
      ((if title = "" then [] else [.values none [("label", title), ("labelloc", "t")]]) ++ t.numbered 0 [])) := by
  rw [drawing, statements_entry hw, Drawing.statements, List.append_nil, List.reverse_reverse]
  rfl

theorem drawing_long (t : Tree) (title : String) (hw : ¬∀ v ∈ t.leaves, Text.isWritable v = true) :
    t.drawing title = .error {} := by
  rw [drawing, statements_long hw]
  rfl

theorem drawing_eq_ok_iff {t : Tree} {title : String} {drawn : List Statement} :
    t.drawing title = .ok drawn ↔ (∀ v ∈ t.leaves, Text.isWritable v = true) ∧
      .values (some "graph") [("rankdir", "TB")] :: (titled title ++ t.numbered 0 []) = drawn := by
  by_cases hw : ∀ v ∈ t.leaves, Text.isWritable v = true
  · rw [t.drawing_eq_ok title hw, and_iff_right hw]
    exact ⟨Except.ok.inj, congrArg Except.ok⟩
  · rw [t.drawing_long title hw]
    exact iff_of_false nofun fun h => hw h.1

end Tree

/-- A library that writes statements as text. It writes them in their order, and quotes names, labels and shapes:
whole numbers stand as they are, and the symbols of operators in quotation marks. -/
structure DotWriter where
  head : String
  foot : String
  line : Statement → String
  quote : String → String
  line_node : ∀ name label shape, line (.node name [("label", label), ("shape", shape)]) =
    "\t" ++ quote name ++ " [label=" ++ quote label ++ " shape=" ++ quote shape ++ "]\n"
  quote_number : ∀ v : Int, quote v.repr = v.repr
  quote_symbol : ∀ op : Operator,
    quote (String.singleton op.symbol) = "\x22" ++ String.singleton op.symbol ++ "\x22"

namespace DotWriter

def text (w : DotWriter) (statements : List Statement) : String :=
  w.head ++ String.join (statements.map w.line) ++ w.foot

def written (w : DotWriter) (statements : List Statement) : List Char := statements.flatMap fun s => (w.line s).toList

variable {w : DotWriter} {id : Nat} {incoming : List Statement} {x y : List Char}

theorem toList_text (w : DotWriter) (statements : List Statement) :
    (w.text statements).toList = w.head.toList ++ (w.written statements ++ w.foot.toList) := by
  rw [text, String.toList_append, String.toList_append, String.toList_join, List.flatMap_map, written,
    List.append_assoc]

theorem written_cons (s : Statement) (ss : List Statement) :
    w.written (s :: ss) = (w.line s).toList ++ w.written ss := rfl

theorem written_append (a b : List Statement) : w.written (a ++ b) = w.written a ++ w.written b := List.flatMap_append

theorem written_number (v : Int) :
    w.written ((Tree.number v).numbered id incoming) ++ x =
      ("\t" ++ w.quote ("n" ++ id.repr) ++ " [label=").toList ++ (v.repr.toList ++
        ((" shape=" ++ w.quote "box" ++ "]\n").toList ++ (w.written incoming ++ x))) := by
  rw [Tree.numbered, Tree.nodeAt, written_cons, line_node, quote_number]
  simp only [String.toList_append, List.append_assoc]

theorem written_binary (op : Operator) (l r : Tree) :
    w.written ((Tree.binary (.known op) l r).numbered id incoming) ++ x =
      ("\t" ++ w.quote ("n" ++ id.repr) ++ " [label=").toList ++ ('\x22' :: op.symbol :: '\x22' ::
        ((" shape=" ++ w.quote "circle" ++ "]\n").toList ++ (w.written incoming ++
          (w.written (l.numbered (id + 1) [.link id (id + 1) "left"]) ++
            (w.written (r.numbered (id + 1 + l.size) [.link id (id + 1 + l.size) "right"]) ++ x))))) := by
  have hshown : (Sign.known op).shown = String.singleton op.symbol := (Sign.text_eq_shown _).symm
  rw [Tree.numbered, Tree.nodeAt, written_cons, line_node, hshown, quote_symbol, written_append, written_append]
  simp [List.append_assoc]

theorem written_append_inj {t u : Tree} (ht : t.IsExpression) (hu : u.IsExpression)
    (h : w.written (t.numbered id incoming) ++ x = w.written (u.numbered id incoming) ++ y) : t = u ∧ x = y := by
  induction ht generalizing u id incoming x y with
  | number v =>
    cases hu with
    | number v' =>
      rw [written_number, written_number] at h
      obtain ⟨rfl, hrest⟩ := repr_append_inj (by simp) (by simp) (List.append_cancel_left h)
      exact ⟨rfl, List.append_cancel_left (List.append_cancel_left hrest)⟩
    | binary op left right =>
      rw [written_number, written_binary] at h
      exact absurd (List.append_cancel_left h) (repr_append_ne (by decide) rfl v _ _)
  | @binary op l r left right ihl ihr =>
    cases hu with
    | number v' =>
      rw [written_number, written_binary] at h
      exact absurd (List.append_cancel_left h).symm (repr_append_ne (by decide) rfl v' _ _)
    | @binary op' l' r' left' right' =>
      rw [written_binary, written_binary] at h
      obtain ⟨hop, hbehind⟩ := List.cons.inj (List.cons.inj (List.append_cancel_left h)).2
      obtain rfl := Operator.symbol_injective hop
      have hparts := List.append_cancel_left (List.append_cancel_left (List.cons.inj hbehind).2)
      obtain ⟨rfl, hright⟩ := ihl left' hparts
      obtain ⟨rfl, hrest⟩ := ihr right' hright
      exact ⟨rfl, hrest⟩

theorem text_inj {t u : Tree} (ht : t.IsExpression) (hu : u.IsExpression) {title : String}
    {drawn drawn' : List Statement} (hdrawn : t.drawing title = .ok drawn) (hdrawn' : u.drawing title = .ok drawn')
    (h : w.text drawn = w.text drawn') : t = u := by
  obtain ⟨-, rfl⟩ := Tree.drawing_eq_ok_iff.mp hdrawn
  obtain ⟨-, rfl⟩ := Tree.drawing_eq_ok_iff.mp hdrawn'
  have hchars := congrArg String.toList h
  rw [toList_text, toList_text] at hchars
  simp only [written_cons, written_append, List.append_assoc] at hchars
  have htrees := List.append_cancel_left (List.append_cancel_left (List.append_cancel_left hchars))
  exact (written_append_inj ht hu htrees).1

end DotWriter

/-- The drawing of a tree is what recursion draws: a node for each part in the order parent, left, right, with its label
and its shape, and behind each but the first the one edge that leads there. There is none if a number is too long to be
written. From a node with parts two edges lead away, to the number behind its own and to that behind all of the left
part; from the others none; and the numbers below a node are those in a row from its own on, as many as it has nodes.
However a library writes the statements, under any title different expressions have different texts. -/
theorem drawing_preorder :
    (∀ (t : Tree) (title : String), (∀ v ∈ t.leaves, Text.isWritable v = true) →
      t.drawing title = .ok (.values (some "graph") [("rankdir", "TB")] ::
        ((if title = "" then [] else [.values none [("label", title), ("labelloc", "t")]]) ++ t.numbered 0 []))) ∧
    (∀ (t : Tree) (title : String), (¬∀ v ∈ t.leaves, Text.isWritable v = true) → t.drawing title = .error {}) ∧
    (∀ t : Tree, t.preorder.length = t.size ∧
      (t.numbered 0 []).filter Statement.isNode = t.preorder.zipIdx.map fun x => x.1.nodeAt x.2) ∧
    (∀ (t u : Tree) (i : Nat), t.preorder[i]? = some u →
      (t.numbered 0 []).filter (Statement.isFrom i) = u.outgoing i ∧
      (i = 0 → (t.numbered 0 []).filter (Statement.isTo i) = []) ∧
      (i ≠ 0 → ∃ tail side, tail < i ∧ (t.numbered 0 []).filter (Statement.isTo i) = [.link tail i side]) ∧
      (∀ s l r, u = .binary s l r → t.preorder[i + 1]? = some l ∧ t.preorder[i + 1 + l.size]? = some r) ∧
      ∀ j, Relation.ReflTransGen t.Leads i j ↔ i ≤ j ∧ j < i + u.size) ∧
    ∀ (w : DotWriter) (t u : Tree) (title : String) (drawn drawn' : List Statement), t.IsExpression → u.IsExpression →
      t.drawing title = .ok drawn → u.drawing title = .ok drawn' → w.text drawn = w.text drawn' → t = u := by
  refine ⟨Tree.drawing_eq_ok, Tree.drawing_long, fun t => ⟨t.length_preorder, Tree.filter_isNode_numbered rfl⟩,
    fun t u i hu => ?_,
    fun w t u title drawn drawn' ht hu hdrawn hdrawn' h => DotWriter.text_inj ht hu hdrawn hdrawn' h⟩
  obtain ⟨hroot, hbelow⟩ := Tree.filter_isTo_eq hu
  refine ⟨Tree.filter_isFrom_eq hu, hroot, hbelow, ?_, Tree.reaches_iff hu⟩
  rintro s l r rfl
  exact Tree.preorder_parts hu

namespace DotWriter

def plainQuote (s : String) : String := if s.toList.any Char.isAlphanum then s else "\x22" ++ s ++ "\x22"

def plainValues (vs : Values) : String := " ".intercalate (vs.map fun v => v.1 ++ "=" ++ plainQuote v.2)

def plainLine : Statement → String
  | .values (some part) vs => "\t" ++ part ++ " [" ++ plainValues vs ++ "]\n"
  | .values none vs => "\t" ++ plainValues vs ++ "\n"
  | .node name vs => "\t" ++ plainQuote name ++ " [" ++ plainValues vs ++ "]\n"
  | .edge tail head vs => "\t" ++ plainQuote tail ++ " -> " ++ plainQuote head ++ " [" ++ plainValues vs ++ "]\n"

theorem any_isAlphanum_repr (v : Int) : v.repr.toList.any Char.isAlphanum = true := by
  have hdigit : ∀ n : Nat, ∃ c ∈ Nat.toDigits 10 n, c.isDigit = true := by
    intro n
    obtain ⟨c, r, hn, hc⟩ := exists_toDigits_eq_cons n
    exact ⟨c, hn ▸ List.mem_cons_self, hc⟩
  cases v with
  | ofNat n =>
    rw [toList_repr_ofNat, List.any_eq_true]
    exact (hdigit n).imp fun c hc => ⟨hc.1, by simp [Char.isAlphanum, hc.2]⟩
  | negSucc n =>
    rw [toList_repr_negSucc, List.any_cons, Bool.or_eq_true, List.any_eq_true]
    exact .inr ((hdigit (n + 1)).imp fun c hc => ⟨hc.1, by simp [Char.isAlphanum, hc.2]⟩)

def plain : DotWriter where
  head := "digraph \x7b\n"
  foot := "\x7d\n"
  line := plainLine
  quote := plainQuote
  line_node name label shape := String.toList_inj.mp (by simp [plainLine, plainValues])
  quote_number v := if_pos (any_isAlphanum_repr v)
  quote_symbol op := if_neg (by cases op <;> decide)

end DotWriter

theorem drawing_preorder_nested :
    let product := Tree.binary (.known .multiply) (.number 1) (.number (-2))
    let t := Tree.binary (.known .add) product (.bare .number)
    let difference := Tree.binary (.known .subtract) (.number 1) (.number (-2))
    t.drawing "1c2" = .ok
      [.values (some "graph") [("rankdir", "TB")], .values none [("label", "1c2"), ("labelloc", "t")],
        .node "n0" [("label", "+"), ("shape", "circle")],
        .node "n1" [("label", "*"), ("shape", "circle")], .edge "n0" "n1" [("label", "left")],
        .node "n2" [("label", "1"), ("shape", "box")], .edge "n1" "n2" [("label", "left")],
        .node "n3" [("label", "-2"), ("shape", "box")], .edge "n1" "n3" [("label", "right")],
        .node "n4" [("label", "NUMBER"), ("shape", "diamond")], .edge "n0" "n4" [("label", "right")]] ∧
    (Tree.number (Int.ofNat (Nat.pow 10 maxDigits))).drawing "" = .error {} ∧
    ((t.numbered 0 []).filter (Statement.isFrom 1) = [.link 1 2 "left", .link 1 3 "right"] ∧
      t.preorder[2]? = some (.number 1) ∧ t.preorder[3]? = some (.number (-2)) ∧
      (∀ j, Relation.ReflTransGen t.Leads 1 j ↔ 1 ≤ j ∧ j < 4)) ∧
    ∃ drawn drawn', product.drawing "" = .ok drawn ∧ difference.drawing "" = .ok drawn' ∧
      DotWriter.plain.text drawn ≠ DotWriter.plain.text drawn' := by
  intro product t difference
  obtain ⟨hdrawing, hlong, -, hplaces, hinj⟩ := drawing_preorder
  have hw : ∀ v ∈ [(1 : Int), -2], Text.isWritable v = true := by decide +kernel
  have expression (op : Operator) : (Tree.binary (.known op) (.number 1) (.number (-2))).IsExpression :=
    .binary op (.number 1) (.number (-2))
  refine ⟨(hdrawing t "1c2" hw).trans ?_, hlong _ _ fun h => ?_, ?_, _, _, hdrawing product "" hw,
    hdrawing difference "" hw, ?_⟩
  · cbv
  · cases (not_isWritable (Nat.le_refl _)).symm.trans (h _ (List.mem_singleton_self _))
  · obtain ⟨hfrom, -, -, hparts, hreach⟩ := hplaces t product 1 rfl
    obtain ⟨hleft, hright⟩ := hparts _ _ _ rfl
    exact ⟨hfrom, hleft, hright, hreach⟩
  · intro hsame
    cases hinj _ _ _ _ _ _ (expression _) (expression _) (hdrawing product "" hw) (hdrawing difference "" hw) hsame

end LetterArithmetic
