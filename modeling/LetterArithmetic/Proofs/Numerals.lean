import LetterArithmetic.Text.Integer

/-!
Numbers inside longer texts. The digits of a number end where something else comes, so a number in front of a character
that is no digit is told from the text: main statement, for whole numbers with their signs.
-/

set_option autoImplicit false

namespace LetterArithmetic

theorem not_isWritable {n : Nat} (h : Nat.pow 10 maxDigits ≤ n) : Text.isWritable (Int.ofNat n) = false := by
  unfold Text.isWritable
  exact decide_eq_false (Nat.not_lt.mpr h)

theorem span_append {p : Char → Bool} {run after : List Char} (hrun : ∀ c ∈ run, p c = true)
    (hafter : ∀ c ∈ after.head?, p c = false) :
    (run ++ after).takeWhile p = run ∧ (run ++ after).dropWhile p = after := by
  rw [List.takeWhile_append_of_pos hrun, List.dropWhile_append_of_pos hrun]
  cases after with
  | nil => simp
  | cons c r =>
    have hc := hafter c rfl
    simp [hc]

theorem head_not_digit {c : Char} (hc : c.isDigit = false) (r : List Char) :
    ∀ d ∈ (c :: r).head?, d.isDigit = false := by
  rintro d ⟨⟩
  exact hc

section

variable {x y : List Char}

theorem isDigit_of_mem_toDigits (n : Nat) : ∀ c ∈ Nat.toDigits 10 n, c.isDigit = true := fun _ hc =>
  Nat.isDigit_of_mem_toDigits (by decide) (by decide) hc

theorem exists_toDigits_eq_cons (n : Nat) : ∃ c r, Nat.toDigits 10 n = c :: r ∧ c.isDigit = true := by
  obtain ⟨c, r, hn⟩ := List.exists_cons_of_ne_nil (Nat.toDigits_ne_nil (b := 10) (n := n))
  exact ⟨c, r, hn, isDigit_of_mem_toDigits n c (hn ▸ List.mem_cons_self)⟩

theorem toDigits_append_inj {m n : Nat} (hx : ∀ c ∈ x.head?, c.isDigit = false) (hy : ∀ c ∈ y.head?, c.isDigit = false)
    (h : Nat.toDigits 10 m ++ x = Nat.toDigits 10 n ++ y) : m = n ∧ x = y := by
  obtain ⟨hm, hmx⟩ := span_append (isDigit_of_mem_toDigits m) hx
  obtain ⟨hn, hny⟩ := span_append (isDigit_of_mem_toDigits n) hy
  rw [h] at hm hmx
  refine ⟨?_, hmx.symm.trans hny⟩
  rw [← Nat.ofDigitChars_ten_toDigits (n := m), hm.symm.trans hn, Nat.ofDigitChars_ten_toDigits]

theorem toList_repr_ofNat (n : Nat) : (Int.ofNat n).repr.toList = Nat.toDigits 10 n := Nat.toList_repr

theorem toList_repr_negSucc (n : Nat) : (Int.negSucc n).repr.toList = '-' :: Nat.toDigits 10 (n + 1) := by
  rw [← Nat.toList_repr]
  exact String.toList_append

theorem sign_or_digit_of_mem_repr {v : Int} {c : Char} (hc : c ∈ v.repr.toList) : c = '-' ∨ c.isDigit = true := by
  cases v with
  | ofNat n =>
    rw [toList_repr_ofNat] at hc
    exact .inr (isDigit_of_mem_toDigits n c hc)
  | negSucc n =>
    rw [toList_repr_negSucc] at hc
    exact (List.mem_cons.mp hc).imp_right (isDigit_of_mem_toDigits (n + 1) c)

theorem notMem_repr {c : Char} (hminus : c ≠ '-') (hc : c.isDigit = false) (v : Int) : c ∉ v.repr.toList := by
  intro hmem
  obtain hsign | hdigit := sign_or_digit_of_mem_repr hmem
  · exact hminus hsign
  · cases hc.symm.trans hdigit

theorem exists_repr_eq_cons (v : Int) : ∃ c r, v.repr.toList = c :: r ∧ (c = '-' ∨ c.isDigit = true) := by
  have hne : v.repr.toList ≠ [] := by
    cases v with
    | ofNat n => rw [toList_repr_ofNat]; exact Nat.toDigits_ne_nil
    | negSucc n => rw [toList_repr_negSucc]; exact List.cons_ne_nil _ _
  obtain ⟨c, r, hv⟩ := List.exists_cons_of_ne_nil hne
  exact ⟨c, r, hv, sign_or_digit_of_mem_repr (hv ▸ List.mem_cons_self)⟩

theorem repr_append_ne {c : Char} (hminus : c ≠ '-') (hc : c.isDigit = false) (v : Int) (x y : List Char) :
    v.repr.toList ++ x ≠ c :: y := by
  intro h
  obtain ⟨d, r, hv, -⟩ := exists_repr_eq_cons v
  rw [hv] at h
  obtain rfl := (List.cons.inj h).1
  exact notMem_repr hminus hc v (hv ▸ List.mem_cons_self)

/-- A number in front of what does not start with a digit is seen from the text. -/
theorem repr_append_inj {v w : Int} (hx : ∀ c ∈ x.head?, c.isDigit = false) (hy : ∀ c ∈ y.head?, c.isDigit = false)
    (h : v.repr.toList ++ x = w.repr.toList ++ y) : v = w ∧ x = y := by
  have hsign : ∀ m n : Nat, ∀ x y : List Char, Nat.toDigits 10 m ++ x ≠ '-' :: (Nat.toDigits 10 n ++ y) := by
    intro m n x y h
    obtain ⟨c, r, hm, hc⟩ := exists_toDigits_eq_cons m
    rw [hm] at h
    rw [(List.cons.inj h).1] at hc
    cases hc
  cases v with
  | ofNat m =>
    cases w with
    | ofNat n =>
      rw [toList_repr_ofNat, toList_repr_ofNat] at h
      obtain ⟨hmn, hxy⟩ := toDigits_append_inj hx hy h
      exact ⟨congrArg Int.ofNat hmn, hxy⟩
    | negSucc n =>
      rw [toList_repr_ofNat, toList_repr_negSucc] at h
      exact absurd h (hsign _ _ _ _)
  | negSucc m =>
    cases w with
    | ofNat n =>
      rw [toList_repr_ofNat, toList_repr_negSucc] at h
      exact absurd h.symm (hsign _ _ _ _)
    | negSucc n =>
      rw [toList_repr_negSucc, toList_repr_negSucc] at h
      obtain ⟨hmn, hxy⟩ := toDigits_append_inj hx hy (List.cons.inj h).2
      exact ⟨congrArg Int.negSucc (Nat.succ.inj hmn), hxy⟩

end

end LetterArithmetic
