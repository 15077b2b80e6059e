import LetterArithmetic.Proofs.Decoding
import LetterArithmetic.Proofs.Exact

/-!
Trees written as objects and read back. Main statement: every expression has an object, which is read as the
expression if all numbers fit into 64 bits without sign, and otherwise refused for the first number that does not.
-/

set_option autoImplicit false

namespace LetterArithmetic

namespace Tree

def object : Tree → Json
  | number v => numberObject v
  | binary s l r => binaryObject s.text l.object r.object
  | bare _ => .null

/-- The first number from the left that does not fit into 64 bits without sign. -/
def firstUnfit? (t : Tree) : Option Int := t.leaves.find? fun v => ¬(0 ≤ v ∧ v ≤ maxValue)

theorem IsExpression.encode_eq {t : Tree} (ht : t.IsExpression) : t.encode = .ok t.object := by
  cases ht with
  | number v => exact (IsExpression.number v).fold_eq_ok _ _ _ object (fun _ => rfl) fun _ _ _ => rfl
  | binary op left right =>
    exact (IsExpression.binary op left right).fold_eq_ok _ _ _ object (fun _ => rfl) fun _ _ _ => rfl

end Tree

namespace Json

theorem recurse_numberObject (v : Int) : (numberObject v).recurse = (decodeNumber (.int v)).map .number :=
  recurse_number rfl

theorem decodeOperator_symbol (op : Operator) : decodeOperator (.string (Sign.known op).text) = .ok op := by
  simp only [decodeOperator, Sign.text, Operator.ofSymbol?_symbol]

theorem recurse_binaryObject (op : Operator) (l r : Json) :
    (binaryObject (Sign.known op).text l r).recurse =
      l.recurse >>= fun a => r.recurse >>= fun b => .ok (.binary (.known op) a b) := by
  rw [binaryObject, recurse_binary rfl]
  refine bind_congr fun a => bind_congr fun b => ?_
  exact congrArg (Except.map _) (decodeOperator_symbol op)

theorem message_invalidNumber {v : Int} (hv : Text.isWritable v = true) :
    (DecodingFault.invalidNumber (.int v)).message = "Invalid number literal: " ++ v.repr := by
  rw [DecodingFault.message, DecodingFault.written, describe, Text.writeInteger, if_pos hv]
  rfl

end Json

namespace Tree

theorem IsExpression.recurse_object {t : Tree} (ht : t.IsExpression) :
    t.object.recurse =
      match t.firstUnfit? with
      | none => .ok t
      | some v => .error (.invalidNumber (.int v)) := by
  induction ht with
  | number v =>
    rw [object, Json.recurse_numberObject, Json.decodeNumber]
    by_cases hv : 0 ≤ v ∧ v ≤ maxValue
    · have hnone : (Tree.number v).firstUnfit? = none := by simpa [firstUnfit?, leaves] using hv
      rw [if_pos hv, hnone]
      rfl
    · have hsome : (Tree.number v).firstUnfit? = some v := by simpa [firstUnfit?, leaves] using hv
      rw [if_neg hv, hsome]
      rfl
  | @binary op l r left right ihl ihr =>
    have hfirst : (Tree.binary (.known op) l r).firstUnfit? = l.firstUnfit?.or r.firstUnfit? := List.find?_append
    rw [object, Json.recurse_binaryObject, ihl, ihr, hfirst]
    cases l.firstUnfit? with
    | some v => rfl
    | none =>
      cases r.firstUnfit? with
      | some v => rfl
      | none => rfl

theorem InRange.recurse_object {t : Tree} (ht : t.InRange) : t.object.recurse = .ok t := by
  have hnone : t.firstUnfit? = none := List.find?_eq_none.mpr fun v hv => by simpa using ht.leaves v hv
  rw [ht.expression.recurse_object, hnone]

end Tree

end LetterArithmetic
