import LetterArithmetic.Text.Ranges
import Mathlib.Data.List.DropRight

/-!
Blanks at the ends of a text. Trimming takes all of them, so trimming again changes nothing, more blanks at the ends
do not matter, and two trimmed texts put together are trimmed.
-/

set_option autoImplicit false

namespace LetterArithmetic.Text

theorem dropWhile_trim (s : List Char) : (trim s).dropWhile isBlank = trim s := by
  have hprefix : trim s <+: s.dropWhile isBlank := List.rdropWhile_prefix isBlank _
  have hhead := List.head?_dropWhile_not isBlank s
  cases htrim : trim s with
  | nil => rfl
  | cons c r =>
    obtain ⟨z, hz⟩ := htrim ▸ hprefix
    rw [← hz, List.cons_append, List.head?_cons] at hhead
    rw [List.dropWhile_cons_of_neg (by simpa using hhead)]

theorem dropWhile_reverse_trim (s : List Char) : (trim s).reverse.dropWhile isBlank = (trim s).reverse := by
  rw [trim, List.reverse_reverse, List.dropWhile_idempotent]

theorem trim_trim (s : List Char) : trim (trim s) = trim s := by
  rw [trim, dropWhile_trim, dropWhile_reverse_trim, List.reverse_reverse]

variable {u v w : List Char}

theorem dropWhile_append_eq_self (hu : u.dropWhile isBlank = u) (hv : v.dropWhile isBlank = v) :
    (u ++ v).dropWhile isBlank = u ++ v := by
  cases u with
  | nil => exact hv
  | cons c r => rw [List.dropWhile_append, hu, List.isEmpty_cons, if_neg Bool.false_ne_true]

theorem trim_append (hu : trim u = u) (hv : trim v = v) : trim (u ++ v) = u ++ v := by
  have hstart : (u ++ v).dropWhile isBlank = u ++ v :=
    dropWhile_append_eq_self (hu ▸ dropWhile_trim u) (hv ▸ dropWhile_trim v)
  have hend : (u ++ v).reverse.dropWhile isBlank = (u ++ v).reverse := by
    rw [List.reverse_append]
    exact dropWhile_append_eq_self (hv ▸ dropWhile_reverse_trim v) (hu ▸ dropWhile_reverse_trim u)
  rw [trim, hstart, hend, List.reverse_reverse]

theorem trim_blank_append (hw : ∀ c ∈ w, isBlank c = true) (s : List Char) : trim (w ++ s) = trim s := by
  rw [trim, List.dropWhile_append_of_pos hw, trim]

theorem trim_append_blank (s : List Char) (hw : ∀ c ∈ w, isBlank c = true) : trim (s ++ w) = trim s := by
  have hreverse : ∀ c ∈ w.reverse, isBlank c = true := fun c hc => hw c (List.mem_reverse.mp hc)
  rw [trim, trim, List.dropWhile_append]
  split
  -- where the text is blank too, nothing is left of either
  case isTrue hs =>
    rw [List.isEmpty_iff.mp hs, List.dropWhile_eq_nil_iff.mpr hw]
  case isFalse hs =>
    rw [List.reverse_append, List.dropWhile_append_of_pos hreverse]

end LetterArithmetic.Text
