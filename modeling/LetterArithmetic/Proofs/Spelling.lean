import LetterArithmetic.Proofs.Numerals
import LetterArithmetic.Scanner
import Mathlib.Data.List.Chain

/-!
Tokens written as text. An operator or a parenthesis is its letter and a number its decimal digits. Main statement:
the scanner takes the text of a list of tokens back to the list, if the list has no end token, its values are in
range and no two numbers stand next to each other.
-/

set_option autoImplicit false

namespace LetterArithmetic

namespace Token

def spelling : Token → List Char
  | number v => v.repr.toList
  | operator op => [op.letter]
  | leftParen => ['e']
  | rightParen => ['f']
  | stop => []

def HasSpelling : Token → Prop
  | number v => 0 ≤ v ∧ v ≤ maxValue
  | stop => False
  | _ => True

/-- Can one token stand in front of another? The digits of two numbers would run together. -/
def Apart (t u : Token) : Prop := t.kind = .number → u.kind ≠ .number

end Token

def spell (ts : List Token) : List Char := ts.flatMap Token.spelling

structure Spellable (ts : List Token) : Prop where
  each : ∀ t ∈ ts, t.HasSpelling
  apart : ts.IsChain Token.Apart

@[simp] theorem spell_nil : spell [] = [] := rfl

@[simp] theorem spell_cons (t : Token) (ts : List Token) : spell (t :: ts) = t.spelling ++ spell ts := rfl

@[simp] theorem spell_append (ts us : List Token) : spell (ts ++ us) = spell ts ++ spell us :=
  List.flatMap_append

namespace Token

theorem spelling_natCast (n : Nat) : (number n).spelling = Nat.toDigits 10 n := Nat.toList_repr

theorem isDigit_of_mem_spelling {n : Nat} {c : Char} (hc : c ∈ (number n).spelling) : c.isDigit = true := by
  rw [spelling_natCast] at hc
  exact isDigit_of_mem_toDigits n c hc

theorem spelling_ne_nil {t : Token} (ht : t.HasSpelling) : t.spelling ≠ [] := by
  cases t with
  | number v =>
    obtain ⟨n, rfl⟩ := Int.eq_ofNat_of_zero_le ht.1
    rw [spelling_natCast]
    exact Nat.toDigits_ne_nil
  | stop => exact absurd ht id
  | _ => simp [spelling]

theorem ofLetter?_of_isDigit {c : Char} (h : c.isDigit = true) : ofLetter? c = none := by
  unfold ofLetter?
  split
  all_goals first | rfl | exact absurd h (by decide)

theorem spelling_letter {t : Token} (ht : t.HasSpelling) (hk : t.kind ≠ .number) :
    ∃ c, t.spelling = [c] ∧ ofLetter? c = some t ∧ c.isDigit = false := by
  cases t with
  | number v => exact absurd rfl hk
  | operator op => cases op <;> exact ⟨_, rfl, rfl, rfl⟩
  | leftParen => exact ⟨_, rfl, rfl, rfl⟩
  | rightParen => exact ⟨_, rfl, rfl, rfl⟩
  | stop => exact absurd ht id

theorem visible_of_mem_spelling {t : Token} (ht : t.HasSpelling) {c : Char} (hc : c ∈ t.spelling) :
    0x20 < c.toNat ∧ c.toNat < 0x7F := by
  cases t with
  | number v =>
    obtain ⟨n, rfl⟩ := Int.eq_ofNat_of_zero_le ht.1
    have hd := isDigit_of_mem_spelling hc
    simp only [Char.isDigit, Bool.and_eq_true, decide_eq_true_eq, ge_iff_le, UInt32.le_iff_toNat_le] at hd
    obtain ⟨hlow, hhigh⟩ : 48 ≤ c.toNat ∧ c.toNat ≤ 57 := hd
    omega
  | operator op =>
    obtain rfl := List.mem_singleton.mp hc
    cases op <;> decide
  | leftParen =>
    obtain rfl := List.mem_singleton.mp hc
    decide
  | rightParen =>
    obtain rfl := List.mem_singleton.mp hc
    decide
  | stop => exact absurd ht id

end Token

namespace Text

theorem isBlank_of_visible {c : Char} (h : 0x20 < c.toNat) (h' : c.toNat < 0x7F) : isBlank c = false := by
  simp [isBlank, blankRanges, Ranges.has]
  omega

theorem trim_eq_self {s : List Char} (h : ∀ c ∈ s, isBlank c = false) : trim s = s := by
  have hdrop : ∀ r : List Char, (∀ c ∈ r, isBlank c = false) → r.dropWhile isBlank = r := by
    intro r hr
    cases r with
    | nil => rfl
    | cons c r => simp [hr c (by simp)]
  rw [trim, hdrop s h, hdrop _ fun c hc => h c (List.mem_reverse.mp hc), List.reverse_reverse]

end Text

theorem numeral_toDigits {n : Nat} (h : n ≤ maxValue) : numeral (Nat.toDigits 10 n) = .ok n := by
  have hlen : (Nat.toDigits 10 n).length ≤ 20 :=
    (Nat.length_toDigits_le_iff (by decide) (by decide)).mpr (Nat.lt_of_le_of_lt h (by decide))
  unfold numeral
  simp only [Nat.ofDigitChars_ten_toDigits]
  rw [if_neg Nat.toDigits_ne_nil, if_neg (by simp only [maxDigits]; omega), if_neg (by omega)]

namespace Scanner

theorem readNumber_run {digits after : List Char} (hd : ∀ c ∈ digits, c.isDigit = true)
    (hafter : ∀ c ∈ after.head?, c.isDigit = false) (pos : Nat) :
    readNumber ⟨pos, digits ++ after⟩ = (numeral digits, ⟨pos + digits.length, after⟩) := by
  obtain ⟨hrun, hrest⟩ := span_append hd hafter
  simp only [readNumber, hrun, hrest]

theorem next_run {digits after : List Char} (hne : digits ≠ []) (hd : ∀ c ∈ digits, c.isDigit = true)
    (hafter : ∀ c ∈ after.head?, c.isDigit = false) (pos : Nat) :
    next ⟨pos, digits ++ after⟩ =
      ((numeral digits).map fun v : Nat => .number v, ⟨pos + digits.length, after⟩) := by
  obtain ⟨c, r, rfl⟩ := List.exists_cons_of_ne_nil hne
  have hc : c.isDigit = true := hd c (by simp)
  have hrun := readNumber_run hd hafter pos
  simp only [List.cons_append] at hrun ⊢
  simp only [next, Token.ofLetter?_of_isDigit hc, hc, if_true, hrun]

theorem next_spelling {t : Token} (ht : t.HasSpelling) (pos : Nat) {after : List Char}
    (hafter : t.kind = .number → ∀ c ∈ after.head?, c.isDigit = false) :
    next ⟨pos, t.spelling ++ after⟩ = (.ok t, ⟨pos + t.spelling.length, after⟩) := by
  by_cases hk : t.kind = .number
  · have hne := Token.spelling_ne_nil ht
    obtain ⟨v, rfl⟩ : ∃ v, t = .number v := by
      cases t with
      | number v => exact ⟨v, rfl⟩
      | operator op => cases op <;> cases hk
      | _ => cases hk
    obtain ⟨n, rfl⟩ := Int.eq_ofNat_of_zero_le ht.1
    have hn : n ≤ maxValue := Int.ofNat_le.mp ht.2
    rw [next_run hne (fun c hc => Token.isDigit_of_mem_spelling hc) (hafter hk), Token.spelling_natCast,
      numeral_toDigits hn]
    rfl
  · obtain ⟨c, hc, hl, -⟩ := Token.spelling_letter ht hk
    simp [next, hc, hl, step]

end Scanner

namespace Spellable

theorem tail {t : Token} {ts : List Token} (h : Spellable (t :: ts)) : Spellable ts :=
  ⟨fun u hu => h.each u (List.mem_cons_of_mem t hu), h.apart.tail⟩

theorem head_spell {t : Token} {ts : List Token} (h : Spellable (t :: ts)) (hk : t.kind = .number) :
    ∀ c ∈ (spell ts).head?, c.isDigit = false := by
  intro c hc
  cases ts with
  | nil => cases hc
  | cons u ts =>
    have hu : u.HasSpelling := h.each u (by simp)
    have hne : u.kind ≠ .number := h.apart.rel hk
    obtain ⟨d, hd, -, hdigit⟩ := Token.spelling_letter hu hne
    simp only [spell_cons, hd, List.cons_append, List.head?_cons, Option.mem_def, Option.some.injEq] at hc
    rw [← hc, hdigit]

theorem tokensLoop_spell {ts : List Token} (h : Spellable ts) {budget : Nat} (hb : (spell ts).length ≤ budget)
    (done : List Token) (pos : Nat) :
    Scanner.tokensLoop budget done ⟨pos, spell ts⟩ =
      (.ok (done.reverse ++ ts ++ [.stop]), ⟨pos + (spell ts).length, []⟩) := by
  induction ts generalizing budget done pos with
  | nil =>
    cases budget with
    | zero => simp [Scanner.tokensLoop]
    | succ budget => simp [Scanner.tokensLoop, Scanner.next]
  | cons t ts ih =>
    have ht : t.HasSpelling := h.each t (by simp)
    have hpos := List.length_pos_iff.mpr (Token.spelling_ne_nil ht)
    simp only [spell_cons, List.length_append] at hb ⊢
    obtain _ | budget := budget
    · omega
    · have hnext := Scanner.next_spelling ht pos h.head_spell
      have hlen : (spell ts).length ≤ budget := by omega
      have hloop := ih h.tail hlen (t :: done) (pos + t.spelling.length)
      cases t with
      | stop => exact absurd ht id
      | _ => simp [Scanner.tokensLoop, hnext, hloop, Nat.add_assoc]

theorem isBlank_of_mem_spell {ts : List Token} (h : Spellable ts) {c : Char} (hc : c ∈ spell ts) :
    Text.isBlank c = false := by
  obtain ⟨t, ht, hct⟩ := List.mem_flatMap.mp hc
  obtain ⟨hlow, hhigh⟩ := Token.visible_of_mem_spelling (h.each t ht) hct
  exact Text.isBlank_of_visible hlow hhigh

theorem scan_spell {ts : List Token} (h : Spellable ts) : scan (String.ofList (spell ts)) = .ok (ts ++ [.stop]) := by
  have htrim : Text.trim (spell ts) = spell ts := Text.trim_eq_self fun c hc => h.isBlank_of_mem_spell hc
  rw [scan, Scanner.ofText, String.toList_ofList, htrim, Scanner.tokens, h.tokensLoop_spell (Nat.le_refl _)]
  rfl

end Spellable

end LetterArithmetic
