import LetterArithmetic.Proofs.Items
import LetterArithmetic.Proofs.Letters
import Mathlib.Algebra.Group.Nat.Defs

/-!
Which texts are expressions. The characters of a text spell tokens, numbers with or without zeros in front. Main
statement: a text is read as a tree exactly if its characters, without the blanks at its ends, spell a phrase of the
tree that groups from the left and nests at most 200 groups.
-/

set_option autoImplicit false

namespace LetterArithmetic

section

variable {c d : Char} {digits : List Char}

theorem visible_of_isDigit (hc : c.isDigit = true) : 0x20 < c.toNat ∧ c.toNat < 0x7F := by
  obtain ⟨hlow, hhigh⟩ := Char.isDigit_iff_toNat.mp hc
  have hzero : '0'.toNat = 48 := rfl
  have hnine : '9'.toNat = 57 := rfl
  omega

theorem toNat_sub_lt_ten (hc : c.isDigit = true) : c.toNat - '0'.toNat < 10 := by
  obtain ⟨-, hhigh⟩ := Char.isDigit_iff_toNat.mp hc
  have hzero : '0'.toNat = 48 := rfl
  have hnine : '9'.toNat = 57 := rfl
  omega

theorem eq_of_toNat_sub_eq (hc : c.isDigit = true) (hd : d.isDigit = true)
    (h : c.toNat - '0'.toNat = d.toNat - '0'.toNat) : c = d := by
  obtain ⟨hlow, -⟩ := Char.isDigit_iff_toNat.mp hc
  obtain ⟨hlow', -⟩ := Char.isDigit_iff_toNat.mp hd
  exact Char.toNat_inj.mp (by omega)

theorem ofDigitChars_cons_zero :
    Nat.ofDigitChars 10 (c :: digits) 0 =
      10 ^ digits.length * (c.toNat - '0'.toNat) + Nat.ofDigitChars 10 digits 0 := by
  rw [Nat.ofDigitChars_cons, Nat.ofDigitChars_eq_ofDigitChars_zero, Nat.mul_zero, Nat.zero_add]

theorem ofDigitChars_lt_pow (hd : ∀ c ∈ digits, c.isDigit = true) :
    Nat.ofDigitChars 10 digits 0 < 10 ^ digits.length := by
  induction digits with
  | nil => simp
  | cons c digits ih =>
    have hlow := ih fun d hmem => hd d (List.mem_cons_of_mem c hmem)
    have hc := toNat_sub_lt_ten (hd c (by simp))
    have hhigh := Nat.mul_le_mul_left (10 ^ digits.length) (Nat.le_of_lt_succ hc)
    rw [ofDigitChars_cons_zero, List.length_cons, Nat.pow_succ]
    omega

theorem eq_of_ofDigitChars_eq {other : List Char} (hd : ∀ c ∈ digits, c.isDigit = true)
    (ho : ∀ c ∈ other, c.isDigit = true) (hlen : digits.length = other.length)
    (h : Nat.ofDigitChars 10 digits 0 = Nat.ofDigitChars 10 other 0) : digits = other := by
  induction digits generalizing other with
  | nil => exact (List.length_eq_zero_iff.mp hlen.symm).symm
  | cons c digits ih =>
    cases other with
    | nil => cases hlen
    | cons d other =>
      have hlen' : digits.length = other.length := Nat.succ.inj hlen
      have hd' : ∀ x ∈ digits, x.isDigit = true := fun x hx => hd x (List.mem_cons_of_mem c hx)
      have ho' : ∀ x ∈ other, x.isDigit = true := fun x hx => ho x (List.mem_cons_of_mem d hx)
      have hlow := ofDigitChars_lt_pow hd'
      have hlow' := ofDigitChars_lt_pow ho'
      rw [ofDigitChars_cons_zero, ofDigitChars_cons_zero, ← hlen'] at h
      rw [← hlen'] at hlow'
      -- the first digit is what is left after division by the scale of the others
      have hfirst := congrArg (· / 10 ^ digits.length) h
      have hrest := congrArg (· % 10 ^ digits.length) h
      simp only [Nat.mul_add_div (Nat.pow_pos (by decide : 0 < 10)), Nat.div_eq_of_lt hlow, Nat.div_eq_of_lt hlow',
        Nat.add_zero] at hfirst
      simp only [Nat.mul_add_mod, Nat.mod_eq_of_lt hlow, Nat.mod_eq_of_lt hlow'] at hrest
      rw [eq_of_toNat_sub_eq (hd c (by simp)) (ho d (by simp)) hfirst, ih hd' ho' hlen' hrest]

end

namespace Item

variable {i : Item} {t : Token}

theorem Means.length_spelling_le (hi : i.Proper) (hm : i.Means t) :
    t.spelling.length ≤ i.chars.length ∧ (t.spelling.length = i.chars.length → i.chars = t.spelling) := by
  cases hm with
  | number digits hl hv =>
    have hpos := List.length_pos_iff.mpr hi.1
    rw [Token.spelling_natCast, chars]
    refine ⟨(Nat.length_toDigits_le_iff (by decide) hpos).mpr (ofDigitChars_lt_pow hi.2), fun hlen => ?_⟩
    exact eq_of_ofDigitChars_eq hi.2 (isDigit_of_mem_toDigits _) hlen.symm Nat.ofDigitChars_ten_toDigits.symm
  | operator op => exact ⟨Nat.le_refl 1, fun _ => rfl⟩
  | leftParen => exact ⟨Nat.le_refl 1, fun _ => rfl⟩
  | rightParen => exact ⟨Nat.le_refl 1, fun _ => rfl⟩

theorem Means.visible (hi : i.Proper) (hm : i.Means t) {c : Char} (hc : c ∈ i.chars) :
    0x20 < c.toNat ∧ c.toNat < 0x7F := by
  have ht := hm.hasSpelling
  cases hm with
  | number digits hl hv => exact visible_of_isDigit (hi.2 c hc)
  | operator op => exact Token.visible_of_mem_spelling ht hc
  | leftParen => exact Token.visible_of_mem_spelling ht hc
  | rightParen => exact Token.visible_of_mem_spelling ht hc

end Item

namespace Spells

variable {u v : List Char} {ts us : List Token}

theorem hasSpelling (h : Spells u ts) {t : Token} (ht : t ∈ ts) : t.HasSpelling := by
  obtain ⟨items, -, hm⟩ := h
  induction hm with
  | nil => cases ht
  | cons hi _ ih =>
    obtain rfl | ht := List.mem_cons.mp ht
    · exact hi.hasSpelling
    · exact ih ht

theorem stop_notMem (h : Spells u ts) : .stop ∉ ts := by
  obtain ⟨items, -, hm⟩ := h
  exact Item.stop_notMem_of_means hm

theorem not_blank (h : Spells u ts) {c : Char} (hc : c ∈ u) : Text.isBlank c = false := by
  obtain ⟨items, hs, hm⟩ := h
  rw [← hs.text] at hc
  obtain ⟨i, hi, hci⟩ := List.mem_flatMap.mp hc
  obtain ⟨t, ht⟩ := (Item.isFine_of_means hm i hi).means
  obtain ⟨hlow, hhigh⟩ := ht.visible (hs.each i hi) hci
  exact Text.isBlank_of_visible hlow hhigh

/-- Of all characters that spell the tokens, the ones that the tokens are written with are the fewest. -/
theorem length_spell_le (h : Spells u ts) :
    (spell ts).length ≤ u.length ∧ ((spell ts).length = u.length → u = spell ts) := by
  obtain ⟨items, hs, hm⟩ := h
  induction hm generalizing u with
  | nil =>
    obtain rfl : [] = u := hs.text
    exact ⟨Nat.le_refl _, fun _ => rfl⟩
  | @cons i t items ts hi hm ih =>
    obtain ⟨hfirst, hfirst'⟩ := hi.length_spelling_le (hs.each i (by simp))
    obtain ⟨hrest, hrest'⟩ := ih hs.tail
    rw [hs.text_cons, spell_cons, List.length_append, List.length_append]
    refine ⟨by omega, fun hlen => ?_⟩
    rw [hfirst' (by omega), hrest' (by omega)]

end Spells

namespace Phrase

variable {p : Phrase} {u : List Char}

theorem isExpression_tree (p : Phrase) : p.tree.IsExpression := by
  induction p with
  | number v => exact .number v
  | group p ih => exact ih
  | binary op l r ihl ihr => exact .binary op ihl ihr

theorem mem_tokens_of_mem_leaves {v : Int} (h : v ∈ p.tree.leaves) : .number v ∈ p.tokens := by
  induction p with
  | number w =>
    obtain rfl := List.mem_singleton.mp h
    exact List.mem_singleton_self _
  | group p ih => simp [tokens, ih h]
  | binary op l r ihl ihr =>
    obtain hl | hr := List.mem_append.mp h
    · simp [tokens, ihl hl]
    · simp [tokens, ihr hr]

theorem leaves_of_spells (h : Spells u p.tokens) : ∀ v ∈ p.tree.leaves, 0 ≤ v ∧ v ≤ maxValue :=
  fun _ hv => h.hasSpelling (mem_tokens_of_mem_leaves hv)

end Phrase

theorem ofText_eq_ok_iff {s : String} {t : Tree} :
    Tree.ofText s = .ok t ↔
      ∃ p : Phrase, p.tree = t ∧ Spells (Text.trim s.toList) p.tokens ∧ p.WellRanked Ranks.level ∧ p.nesting ≤ 200 := by
  constructor
  · intro h
    obtain ⟨ts, hscan, hread⟩ : ∃ ts, scan s = .ok ts ∧ Tree.ofTokens {} ts = .ok t := by
      unfold Tree.ofText at h
      cases hscan : scan s with
      | error f => simp [hscan] at h
      | ok ts =>
        cases hread : Tree.ofTokens {} ts with
        | error f => simp [hscan, hread, Except.mapError] at h
        | ok t' =>
          simp only [hscan, hread, Except.mapError, Except.ok.injEq] at h
          exact ⟨ts, rfl, h ▸ hread⟩
    obtain ⟨body, rfl, hspells⟩ := scan_eq_ok_iff.mp hscan
    obtain ⟨p, after, hp, htokens, hranked, hnesting⟩ :=
      Cursor.exists_phrase_of_whole (Cursor.withinCalls_default _) (Prod.ext hread rfl)
    -- neither list has an end token of its own, so both end at the same one
    have hsame : p.tokens = body := by
      rw [← ((Cursor.stop_mem_and_takeWhile_iff p.stop_notMem_tokens).mpr ⟨after, htokens⟩).2,
        ((Cursor.stop_mem_and_takeWhile_iff hspells.stop_notMem).mpr ⟨[], rfl⟩).2]
    exact ⟨p, hp, hsame ▸ hspells, hranked, hnesting⟩
  · rintro ⟨p, rfl, hspells, hranked, hnesting⟩
    have hscan : scan s = .ok (p.tokens ++ [.stop]) := scan_eq_ok_iff.mpr ⟨p.tokens, rfl, hspells⟩
    have hwhole := Cursor.whole_of_phrase (Cursor.withinCalls_default (p.tokens ++ [.stop])) hranked hnesting
    simp only [Tree.ofText, hscan, Tree.ofTokens, hwhole]
    rfl

end LetterArithmetic
