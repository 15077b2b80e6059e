import LetterArithmetic.Proofs.Interchange
import LetterArithmetic.Report

/-!
Trees that have no object, since a node in them is bare or an operator does not exist. Main statement: a tree that is
itself a bare node is refused as no tree, but one that has a bare node further down fails as a walk, with the fault of
what is met first.
-/

set_option autoImplicit false

namespace LetterArithmetic

inductive Stranger where
  | bare (kind : NodeKind)
  | name (text : String)
  deriving DecidableEq

def Stranger.fault : Stranger → EncodingFault
  | bare k => .walk (.bare k)
  | name text => .noSymbol text

namespace Tree

def bareNodes : Tree → List NodeKind
  | number _ => []
  | binary _ l r => l.bareNodes ++ r.bareNodes
  | bare k => [k]

/-- The strangers in the order in which a walk meets them, an operator behind both of its parts. -/
def strangers : Tree → List Stranger
  | number _ => []
  | binary (.known _) l r => l.strangers ++ r.strangers
  | binary (.unknown text) l r => l.strangers ++ r.strangers ++ [.name text]
  | bare k => [.bare k]

theorem mem_bareNodes {t : Tree} {k : NodeKind} : k ∈ t.bareNodes ↔ .bare k ∈ t.strangers := by
  induction t with
  | number v => simp [bareNodes, strangers]
  | binary s l r ihl ihr => cases s <;> simp [bareNodes, strangers, ihl, ihr]
  | bare k => simp [bareNodes, strangers]

theorem bareNodes_of_strangers {t : Tree} (h : t.strangers = []) : t.bareNodes = [] := by
  refine List.eq_nil_iff_forall_not_mem.mpr fun k hk => ?_
  have hmem := mem_bareNodes.mp hk
  rw [h] at hmem
  cases hmem

theorem fold_symbols (t : Tree) :
    (t.fold EncodingFault.walk numberObject fun s _ _ l r =>
      match s with
      | .known op => .ok (binaryObject (String.singleton op.symbol) l r)
      | .unknown name => .error (.noSymbol name)) =
      match t.strangers.head? with
      | none => .ok t.object
      | some s => .error s.fault := by
  rw [fold_eq_recurse]
  induction t with
  | number v => rfl
  | bare k => rfl
  | binary s l r ihl ihr =>
    rw [Visitor.recurse, ihl, ihr]
    -- the left part is walked first, then the right part, and the name between them is asked for its symbol last
    cases hl : l.strangers with
    | cons x xs => cases s <;> simp [strangers, hl] <;> rfl
    | nil =>
      cases hr : r.strangers with
      | cons x xs => cases s <;> simp [strangers, hl, hr] <;> rfl
      | nil => cases s <;> simp [strangers, hl, hr] <;> rfl

theorem encode_cases (t : Tree) :
    (t.strangers = [] ∧ ∃ fields, t.encode = .ok (.object fields)) ∨
    (∃ k, t = .bare k ∧ t.encode = .error (.bareRoot k)) ∨
    ∃ s, t.isBinary = true ∧ t.strangers.head? = some s ∧ t.encode = .error s.fault := by
  cases t with
  | number v => exact .inl ⟨rfl, _, (number v).fold_symbols⟩
  | bare k => exact .inr (.inl ⟨k, rfl, rfl⟩)
  | binary s l r =>
    have hencode : (binary s l r).encode = _ := (binary s l r).fold_symbols
    cases hfirst : (binary s l r).strangers.head? with
    | none =>
      rw [hfirst] at hencode
      exact .inl ⟨List.head?_eq_none_iff.mp hfirst, _, hencode⟩
    | some x =>
      rw [hfirst] at hencode
      exact .inr (.inr ⟨x, rfl, rfl, hencode⟩)

end Tree

/-- A tree has an object if and only if no node is bare, and is refused as a value otherwise. -/
def EncodesOrRefuses (t : Tree) : Prop :=
  ((∃ fields, t.encode = .ok (.object fields)) ↔ t.bareNodes = []) ∧
    (t.bareNodes ≠ [] → ∃ f, t.encode = .error f ∧ f.kind.name = "ValueError")

theorem Stranger.fault_kind_name (s : Stranger) : s.fault.kind.name ≠ "ValueError" := by
  cases s with
  | bare k => exact show "RuntimeError" ≠ "ValueError" by decide
  | name text => exact show "AttributeError" ≠ "ValueError" by decide

section

variable {t : Tree}

theorem encode_eq_object_iff : (∃ fields, t.encode = .ok (.object fields)) ↔ t.strangers = [] := by
  rcases t.encode_cases with ⟨hnone, hencode⟩ | ⟨k, rfl, hencode⟩ | ⟨s, -, hfirst, hencode⟩
  · exact iff_of_true hencode hnone
  · simp [hencode, Tree.strangers]
  · have hsome : t.strangers ≠ [] := by
      intro hnil
      simp [hnil] at hfirst
    simp [hencode, hsome]

theorem encode_eq_bareRoot_iff {k : NodeKind} : t.encode = .error (.bareRoot k) ↔ t = .bare k := by
  rcases t.encode_cases with ⟨hnone, fields, hencode⟩ | ⟨k', rfl, hencode⟩ | ⟨s, hbinary, -, hencode⟩
  · refine iff_of_false (by simp [hencode]) ?_
    rintro rfl
    cases hnone
  · simp [hencode]
  · refine iff_of_false (by cases s <;> simp [hencode, Stranger.fault]) ?_
    rintro rfl
    cases hbinary

theorem Stranger.fault_inj {s s' : Stranger} : s.fault = s'.fault ↔ s = s' := by
  cases s <;> cases s' <;> simp [fault]

theorem encode_eq_fault_iff {s : Stranger} :
    t.encode = .error s.fault ↔ t.isBinary = true ∧ t.strangers.head? = some s := by
  rcases t.encode_cases with ⟨hnone, fields, hencode⟩ | ⟨k, rfl, hencode⟩ | ⟨s', hbinary, hfirst, hencode⟩
  · simp [hencode, hnone]
  · cases s <;> simp [hencode, Tree.isBinary, Stranger.fault]
  · simp [hencode, hbinary, hfirst, Stranger.fault_inj]

theorem encodesOrRefuses_iff_strangers : EncodesOrRefuses t ↔ (t.isBinary = true → t.strangers = []) := by
  refine ⟨fun ⟨hobject, hrefused⟩ hbinary => ?_, fun h => ?_⟩
  · by_contra hsome
    obtain ⟨s, ss, hss⟩ := List.exists_cons_of_ne_nil hsome
    have hfault : t.encode = .error s.fault := encode_eq_fault_iff.mpr ⟨hbinary, by rw [hss, List.head?_cons]⟩
    by_cases hbare : t.bareNodes = []
    · obtain ⟨fields, hfields⟩ := hobject.mpr hbare
      cases hfields.symm.trans hfault
    · obtain ⟨f, hf, hvalue⟩ := hrefused hbare
      obtain rfl : f = s.fault := Except.error.inj (hf.symm.trans hfault)
      exact s.fault_kind_name hvalue
  · rcases t.encode_cases with ⟨hnone, hencode⟩ | ⟨k, rfl, hencode⟩ | ⟨s, hbinary, hfirst, -⟩
    · exact ⟨iff_of_true hencode (Tree.bareNodes_of_strangers hnone),
        fun hsome => absurd (Tree.bareNodes_of_strangers hnone) hsome⟩
    · exact ⟨by simp [hencode, Tree.bareNodes], fun _ => ⟨_, hencode, rfl⟩⟩
    · simp [h hbinary] at hfirst

end

theorem Tree.strangers_eq {t : Tree} (h : ∀ text, .name text ∉ t.strangers) :
    t.strangers = t.bareNodes.map Stranger.bare := by
  induction t with
  | number v => rfl
  | bare k => rfl
  | binary s l r ihl ihr =>
    cases s with
    | known op =>
      rw [strangers, bareNodes, List.map_append, ihl fun text hl => h text (List.mem_append_left _ hl),
        ihr fun text hr => h text (List.mem_append_right _ hr)]
    | unknown text => exact absurd (by simp [strangers]) (h text)

/-- A tree has an object if and only if it holds nothing strange. A tree that is itself bare is refused; in any other
tree with a bare node or a name that is no operator the walk fails, at the first of them. Where all operators exist, a
bare node is refused as it should be, unless it is a part of a binary one. -/
theorem encodesOrRefuses_iff (t : Tree) :
    (EncodesOrRefuses t ↔ (t.isBinary = true → t.strangers = [])) ∧
    ((∃ fields, t.encode = .ok (.object fields)) ↔ t.strangers = []) ∧
    (∀ k, t.encode = .error (.bareRoot k) ↔ t = .bare k) ∧
    (∀ s, t.encode = .error (Stranger.fault s) ↔ t.isBinary = true ∧ t.strangers.head? = some s) ∧
    ((∀ text, .name text ∉ t.strangers) →
      (EncodesOrRefuses t ↔ (t.isBinary = true → t.bareNodes = [])) ∧
      ((∃ fields, t.encode = .ok (.object fields)) ↔ t.bareNodes = []) ∧
      ∀ k, t.encode = .error (.walk (.bare k)) ↔ t.isBinary = true ∧ t.bareNodes.head? = some k) ∧
    ∀ k : NodeKind, ((EncodingFault.bareRoot k).kind.name = "ValueError" ∧
        (EncodingFault.bareRoot k).message = "Unknown node type: " ++ k.description) ∧
      (EncodingFault.walk (.bare k)).kind.name = "RuntimeError" ∧
        (EncodingFault.walk (.bare k)).message = "Unhandled expression node type: " ++ k.description := by
  refine ⟨encodesOrRefuses_iff_strangers, encode_eq_object_iff, fun _ => encode_eq_bareRoot_iff,
    fun _ => encode_eq_fault_iff, fun hnames => ?_, fun _ => ⟨⟨rfl, rfl⟩, rfl, rfl⟩⟩
  have hbare := Tree.strangers_eq hnames
  refine ⟨?_, ?_, fun k => ?_⟩
  · rw [encodesOrRefuses_iff_strangers, hbare, List.map_eq_nil_iff]
  · rw [encode_eq_object_iff, hbare, List.map_eq_nil_iff]
  · rw [show EncodingFault.walk (.bare k) = (Stranger.bare k).fault from rfl, encode_eq_fault_iff, hbare]
    simp

theorem not_encodesOrRefuses_left :
    let t : Tree := .binary (.known .multiply) (.bare .binary) (.number 2)
    t.bareNodes ≠ [] ∧ t.encode = .error (.walk (.bare .binary)) ∧
      (∀ f, t.encode = .error f → f.kind.name ≠ "ValueError") ∧ ¬EncodesOrRefuses t := by
  intro t
  have hsome : t.bareNodes ≠ [] := List.cons_ne_nil _ _
  have hwalk : t.encode = .error (Stranger.bare .binary).fault := encode_eq_fault_iff.mpr ⟨rfl, rfl⟩
  have hkind : ∀ f, t.encode = .error f → f.kind.name ≠ "ValueError" := by
    intro f hf
    obtain rfl : f = (Stranger.bare .binary).fault := Except.error.inj (hf.symm.trans hwalk)
    exact Stranger.fault_kind_name _
  refine ⟨hsome, hwalk, hkind, fun h => ?_⟩
  obtain ⟨f, hf, hvalue⟩ := h.2 hsome
  exact hkind f hf hvalue

end LetterArithmetic
