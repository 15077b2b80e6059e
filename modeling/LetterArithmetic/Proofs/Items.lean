import LetterArithmetic.Proofs.Spelling
import LetterArithmetic.Report
import Mathlib.Data.List.Forall2

/-!
What the scanner accepts. A text falls apart, in one way only, into longest runs of digits and single other
characters. Main statement: the scanner gives the tokens that these stand for, one by one, or the fault of the first
that stands for none.
-/

set_option autoImplicit false

namespace LetterArithmetic

inductive Item where
  | run (digits : List Char)
  | single (c : Char)
  deriving DecidableEq, Repr

namespace Item

def chars : Item → List Char
  | run digits => digits
  | single c => [c]

def isRun : Item → Bool
  | run _ => true
  | single _ => false

def Proper : Item → Prop
  | run digits => digits ≠ [] ∧ ∀ c ∈ digits, c.isDigit = true
  | single c => c.isDigit = false

/-- Can one item stand in front of another? Two runs would be one. -/
def Apart (i j : Item) : Prop := i.isRun = true → j.isRun = false

def letters : List Char := ['a', 'b', 'c', 'd', 'e', 'f']

def IsFine : Item → Prop
  | run digits => digits.length ≤ maxDigits ∧ Nat.ofDigitChars 10 digits 0 ≤ maxValue
  | single c => c ∈ letters

inductive Means : Item → Token → Prop where
  | number (digits : List Char) (hl : digits.length ≤ maxDigits) (hv : Nat.ofDigitChars 10 digits 0 ≤ maxValue) :
      Means (run digits) (.number (Nat.ofDigitChars 10 digits 0))
  | operator (op : Operator) : Means (single op.letter) (.operator op)
  | leftParen : Means (single 'e') .leftParen
  | rightParen : Means (single 'f') .rightParen

/-- The fault of an item that stands for no token. Digits that are too many have no value to be too large. -/
inductive Refused : Item → ScanFault → Prop where
  | unrecognized (c : Char) (hc : c ∉ letters) : Refused (single c) (.unrecognized c)
  | tooLarge (digits : List Char) (hl : digits.length ≤ maxDigits) (hv : maxValue < Nat.ofDigitChars 10 digits 0) :
      Refused (run digits) (.tooLarge digits)
  | tooManyDigits (digits : List Char) (hl : maxDigits < digits.length) :
      Refused (run digits) (.tooManyDigits digits.length)

end Item

/-- The split of a text into longest runs of digits and single other characters. -/
structure Splits (u : List Char) (items : List Item) : Prop where
  text : items.flatMap Item.chars = u
  each : ∀ i ∈ items, i.Proper
  apart : items.IsChain Item.Apart

namespace Item

instance decidableProper (i : Item) : Decidable i.Proper :=
  match i with
  | run digits =>
    have := List.decidableBAll (fun c : Char => c.isDigit = true) digits
    inferInstanceAs (Decidable (digits ≠ [] ∧ ∀ c ∈ digits, c.isDigit = true))
  | single c => inferInstanceAs (Decidable (c.isDigit = false))

instance decidableApart (i j : Item) : Decidable (i.Apart j) :=
  inferInstanceAs (Decidable (i.isRun = true → j.isRun = false))

instance decidableIsFine (i : Item) : Decidable i.IsFine :=
  match i with
  | run digits => inferInstanceAs (Decidable (digits.length ≤ maxDigits ∧ Nat.ofDigitChars 10 digits 0 ≤ maxValue))
  | single c => inferInstanceAs (Decidable (c ∈ letters))

instance decidableSplits (u : List Char) (items : List Item) : Decidable (Splits u items) :=
  decidable_of_iff (items.flatMap chars = u ∧ (∀ i ∈ items, i.Proper) ∧ items.IsChain Apart)
    ⟨fun h => ⟨h.1, h.2.1, h.2.2⟩, fun h => ⟨h.text, h.each, h.apart⟩⟩

variable {i : Item} {t : Token} {f : ScanFault}

theorem Proper.chars_ne_nil (h : i.Proper) : i.chars ≠ [] := by
  cases i with
  | run digits => exact h.1
  | single c => simp [chars]

theorem Proper.isDigit_eq_isRun {c : Char} (h : i.Proper) (hc : c ∈ i.chars) : c.isDigit = i.isRun := by
  cases i with
  | run digits => exact h.2 c hc
  | single d =>
    obtain rfl := List.mem_singleton.mp hc
    exact h

theorem Proper.head_chars {c : Char} {r : List Char} (h : i.Proper) (hc : i.chars = c :: r) : i.isRun = c.isDigit :=
  (h.isDigit_eq_isRun (hc ▸ List.mem_cons_self)).symm

theorem IsFine.means (h : i.IsFine) : ∃ t, i.Means t := by
  cases i with
  | run digits => exact ⟨_, .number digits h.1 h.2⟩
  | single c =>
    simp only [IsFine, letters, List.mem_cons, List.not_mem_nil, or_false] at h
    obtain rfl | rfl | rfl | rfl | rfl | rfl := h
    · exact ⟨_, .operator .add⟩
    · exact ⟨_, .operator .subtract⟩
    · exact ⟨_, .operator .multiply⟩
    · exact ⟨_, .operator .divide⟩
    · exact ⟨_, .leftParen⟩
    · exact ⟨_, .rightParen⟩

theorem Refused.not_isFine (h : i.Refused f) : ¬i.IsFine := by
  cases h with
  | unrecognized c hc => exact hc
  | tooLarge digits hl hv => exact fun hfine => Nat.not_le_of_lt hv hfine.2
  | tooManyDigits digits hl => exact fun hfine => Nat.not_le_of_lt hl hfine.1

theorem exists_refused_iff : (∃ f, i.Refused f) ↔ ¬i.IsFine := by
  refine ⟨fun ⟨f, hf⟩ => hf.not_isFine, fun h => ?_⟩
  cases i with
  | run digits =>
    by_cases hl : digits.length ≤ maxDigits
    · have hv : ¬Nat.ofDigitChars 10 digits 0 ≤ maxValue := fun hv => h ⟨hl, hv⟩
      exact ⟨_, .tooLarge digits hl (by omega)⟩
    · exact ⟨_, .tooManyDigits digits (by omega)⟩
  | single c => exact ⟨_, .unrecognized c h⟩

theorem Means.isFine (h : i.Means t) : i.IsFine := by
  cases h with
  | number digits hl hv => exact ⟨hl, hv⟩
  | operator op => cases op <;> simp [IsFine, letters, Operator.letter]
  | leftParen => simp [IsFine, letters]
  | rightParen => simp [IsFine, letters]

theorem Means.hasSpelling (h : i.Means t) : t.HasSpelling := by
  cases h with
  | number digits hl hv => exact ⟨Int.natCast_nonneg _, Int.ofNat_le.mpr hv⟩
  | _ => trivial

theorem Means.kind_eq_number (h : i.Means t) : t.kind = .number ↔ i.isRun = true := by
  cases h with
  | operator op => cases op <;> simp [Token.kind, Operator.tokenKind, isRun]
  | _ => simp [Token.kind, isRun]

theorem exists_means {items : List Item} (h : ∀ i ∈ items, i.IsFine) : ∃ ts, List.Forall₂ Means items ts := by
  induction items with
  | nil => exact ⟨[], .nil⟩
  | cons i items ih =>
    obtain ⟨t, ht⟩ := (h i (by simp)).means
    obtain ⟨ts, hts⟩ := ih fun j hj => h j (List.mem_cons_of_mem i hj)
    exact ⟨t :: ts, .cons ht hts⟩

theorem isFine_of_means {items : List Item} {ts : List Token} (h : List.Forall₂ Means items ts) :
    ∀ i ∈ items, i.IsFine := by
  induction h with
  | nil => simp
  | cons hi _ ih => simpa using ⟨hi.isFine, ih⟩

theorem stop_notMem_of_means {items : List Item} {ts : List Token} (h : List.Forall₂ Means items ts) : .stop ∉ ts := by
  induction h with
  | nil => simp
  | cons hi _ ih => cases hi <;> simpa using ih

theorem exists_first_not_fine {items : List Item} (h : ¬∀ i ∈ items, i.IsFine) :
    ∃ before i rest, items = before ++ i :: rest ∧ (∀ j ∈ before, j.IsFine) ∧ ¬i.IsFine := by
  induction items with
  | nil => exact absurd (by simp) h
  | cons i items ih =>
    by_cases hi : i.IsFine
    · obtain ⟨before, j, rest, rfl, hbefore, hj⟩ := ih fun hall => h (by simpa [hi] using hall)
      refine ⟨i :: before, j, rest, rfl, ?_, hj⟩
      simpa [hi] using hbefore
    · exact ⟨[], i, items, rfl, by simp, hi⟩

theorem ofLetter?_eq_none {c : Char} (hc : c ∉ letters) : Token.ofLetter? c = none := by
  unfold Token.ofLetter?
  split
  all_goals first | rfl | simp [letters] at hc

end Item

namespace Splits

variable {u : List Char} {i : Item} {items : List Item}

theorem tail (h : Splits u (i :: items)) : Splits (items.flatMap Item.chars) items :=
  ⟨rfl, fun j hj => h.each j (List.mem_cons_of_mem i hj), h.apart.tail⟩

theorem text_cons (h : Splits u (i :: items)) : u = i.chars ++ items.flatMap Item.chars := by
  rw [← h.text, List.flatMap_cons]

theorem behind {before : List Item} (h : Splits u (before ++ items)) : Splits (items.flatMap Item.chars) items :=
  ⟨rfl, fun j hj => h.each j (List.mem_append_right before hj), (List.isChain_append.mp h.apart).2.1⟩

theorem exists_first (h : Splits u items) (hi : i ∈ items.head?) : ∃ c ∈ u.head?, c.isDigit = i.isRun := by
  obtain ⟨rest, rfl⟩ := List.head?_eq_some_iff.mp hi
  have hproper : i.Proper := h.each i (by simp)
  obtain ⟨c, r, hc⟩ := List.exists_cons_of_ne_nil hproper.chars_ne_nil
  refine ⟨c, ?_, hproper.isDigit_eq_isRun (by simp [hc])⟩
  rw [h.text_cons, hc]
  rfl

theorem exists_last (h : Splits u items) (hi : i ∈ items.getLast?) : ∃ c ∈ u.getLast?, c.isDigit = i.isRun := by
  obtain ⟨before, rfl⟩ := List.getLast?_eq_some_iff.mp hi
  have hproper : i.Proper := h.each i (by simp)
  have hne := hproper.chars_ne_nil
  have htext : u = before.flatMap Item.chars ++ i.chars := by
    rw [← h.text, List.flatMap_append, List.flatMap_singleton]
  refine ⟨i.chars.getLast hne, ?_, hproper.isDigit_eq_isRun (List.getLast_mem hne)⟩
  rw [htext, List.getLast?_append_of_ne_nil _ hne, List.getLast?_eq_some_getLast hne]
  rfl

theorem not_digit_behind (h : Splits u (i :: items)) (hi : i.isRun = true) :
    ∀ c ∈ (items.flatMap Item.chars).head?, c.isDigit = false := by
  intro c hc
  cases items with
  | nil => cases hc
  | cons j items =>
    have hrun : j.isRun = false := h.apart.rel hi
    obtain ⟨d, hd, hdigit⟩ := h.tail.exists_first (i := j) rfl
    obtain rfl := Option.mem_unique hc hd
    exact hdigit.trans hrun

theorem no_cut_before {c : Char} (hc : c.isDigit = false) (u v : List Char) :
    ∀ d ∈ u.getLast?, ∀ x ∈ (c :: v).head?, d.isDigit = true → x.isDigit = false := by
  intro d _ x hx _
  obtain rfl := Option.some.inj hx
  exact hc

theorem append {v : List Char} {others : List Item} (h : Splits u items) (h' : Splits v others)
    (hcut : ∀ c ∈ u.getLast?, ∀ d ∈ v.head?, c.isDigit = true → d.isDigit = false) :
    Splits (u ++ v) (items ++ others) := by
  refine ⟨by rw [List.flatMap_append, h.text, h'.text], fun i hi => ?_,
    List.isChain_append.mpr ⟨h.apart, h'.apart, fun i hi j hj hrun => ?_⟩⟩
  · obtain hi | hi := List.mem_append.mp hi
    · exact h.each i hi
    · exact h'.each i hi
  · obtain ⟨c, hc, hci⟩ := h.exists_last hi
    obtain ⟨d, hd, hdj⟩ := h'.exists_first hj
    rw [← hdj]
    exact hcut c hc d hd (hci.trans hrun)

section

variable {c : Char} {digits : List Char}

theorem cons_single (h : Splits u items) (hc : c.isDigit = false) : Splits (c :: u) (.single c :: items) := by
  refine ⟨by simp [h.text, Item.chars], fun j hj => ?_, List.IsChain.cons h.apart fun j _ hrun => by cases hrun⟩
  obtain rfl | hj := List.mem_cons.mp hj
  · exact hc
  · exact h.each j hj

theorem cons_run (h : Splits u items) (hc : c.isDigit = true) (hfirst : ∀ j ∈ items.head?, j.isRun = false) :
    Splits (c :: u) (.run [c] :: items) := by
  refine ⟨by simp [h.text, Item.chars], fun j hj => ?_, List.IsChain.cons h.apart fun j hj _ => hfirst j hj⟩
  obtain rfl | hj := List.mem_cons.mp hj
  · exact ⟨by simp, by simp [hc]⟩
  · exact h.each j hj

theorem cons_digits (h : Splits u (.run digits :: items)) (hc : c.isDigit = true) :
    Splits (c :: u) (.run (c :: digits) :: items) := by
  have hdigits : ∀ d ∈ digits, d.isDigit = true := (h.each (.run digits) (by simp)).2
  refine ⟨by simp [h.text_cons, Item.chars], fun j hj => ?_,
    List.IsChain.cons h.apart.tail fun j hj => (List.isChain_cons.mp h.apart).1 j hj⟩
  obtain rfl | hj := List.mem_cons.mp hj
  · exact ⟨by simp, by simpa [hc] using hdigits⟩
  · exact h.each j (List.mem_cons_of_mem _ hj)

end

theorem exists_split (u : List Char) : ∃ items, Splits u items := by
  induction u with
  | nil => exact ⟨[], rfl, by simp, .nil⟩
  | cons c u ih =>
    obtain ⟨items, h⟩ := ih
    by_cases hc : c.isDigit = true
    · cases items with
      | nil => exact ⟨_, h.cons_run hc (by simp)⟩
      | cons i items =>
        cases i with
        | run digits => exact ⟨_, h.cons_digits hc⟩
        | single d => exact ⟨_, h.cons_run hc (by simp [Item.isRun])⟩
    · exact ⟨_, h.cons_single (Bool.not_eq_true _ ▸ hc)⟩

theorem takeWhile_run {digits : List Char} (h : Splits u (.run digits :: items)) :
    u.takeWhile Char.isDigit = digits ∧ u.dropWhile Char.isDigit = items.flatMap Item.chars := by
  have hd : ∀ c ∈ digits, c.isDigit = true := (h.each (.run digits) (by simp)).2
  rw [h.text_cons]
  exact span_append hd (h.not_digit_behind rfl)

theorem unique {other : List Item} (h : Splits u items) (h' : Splits u other) : other = items := by
  induction items generalizing u other with
  | nil =>
    obtain rfl : [] = u := h.text
    cases other with
    | nil => rfl
    | cons j other =>
      have hj := (h'.each j (by simp)).chars_ne_nil
      exact absurd (List.append_eq_nil_iff.mp h'.text_cons.symm).1 hj
  | cons i items ih =>
    obtain ⟨c, r, hi⟩ := List.exists_cons_of_ne_nil (h.each i (by simp)).chars_ne_nil
    cases other with
    | nil =>
      have := h'.text
      simp [h.text_cons, hi] at this
    | cons j other =>
      -- both items start with the first character of the text, so both are runs or neither is
      have hrun : i.isRun = j.isRun := by
        obtain ⟨d, r', hj⟩ := List.exists_cons_of_ne_nil (h'.each j (by simp)).chars_ne_nil
        have hheads := h.text_cons.symm.trans h'.text_cons
        simp only [hi, hj, List.cons_append, List.cons.injEq] at hheads
        rw [(h.each i (by simp)).head_chars hi, (h'.each j (by simp)).head_chars hj, hheads.1]
      cases i with
      | run digits =>
        cases j with
        | run digits' =>
          obtain ⟨ht, hd⟩ := h.takeWhile_run
          obtain ⟨ht', hd'⟩ := h'.takeWhile_run
          have hrest := h'.tail
          rw [← hd', hd] at hrest
          rw [← ht, ← ht', ih h.tail hrest]
        | single d => cases hrun
      | single c =>
        cases j with
        | run digits => cases hrun
        | single d =>
          have htexts := h.text_cons.symm.trans h'.text_cons
          simp only [Item.chars, List.cons_append, List.nil_append, List.cons.injEq] at htexts
          have hrest := h'.tail
          rw [← htexts.2] at hrest
          rw [htexts.1, ih h.tail hrest]

end Splits

namespace Scanner

variable {i : Item} {t : Token} {f : ScanFault} {pos : Nat} {after : List Char}

theorem next_single {c : Char} (hc : c.isDigit = false) (hl : Token.ofLetter? c = none) :
    next ⟨pos, c :: after⟩ = (.error (.unrecognized c), ⟨pos, c :: after⟩) := by
  simp [next, hl, hc]

theorem next_means (hi : i.Proper) (hm : i.Means t) (hafter : i.isRun = true → ∀ c ∈ after.head?, c.isDigit = false) :
    next ⟨pos, i.chars ++ after⟩ = (.ok t, ⟨pos + i.chars.length, after⟩) := by
  cases hm with
  | number digits hl hv =>
    have hnum : numeral digits = .ok (Nat.ofDigitChars 10 digits 0) := by
      unfold numeral
      rw [if_neg hi.1, if_neg (by omega), if_neg (by omega)]
    rw [Item.chars, next_run hi.1 hi.2 (hafter rfl), hnum]
    rfl
  | operator op => cases op <;> rfl
  | leftParen => rfl
  | rightParen => rfl

theorem next_refused (hi : i.Proper) (hf : i.Refused f)
    (hafter : i.isRun = true → ∀ c ∈ after.head?, c.isDigit = false) :
    (next ⟨pos, i.chars ++ after⟩).1 = .error f := by
  cases hf with
  | unrecognized c hc =>
    rw [Item.chars, List.singleton_append, next_single hi (Item.ofLetter?_eq_none hc)]
  | tooLarge digits hl hv =>
    have hnum : numeral digits = .error (.tooLarge digits) := by
      unfold numeral
      rw [if_neg hi.1, if_neg (by omega), if_pos hv]
    rw [Item.chars, next_run hi.1 hi.2 (hafter rfl), hnum]
    rfl
  | tooManyDigits digits hl =>
    have hnum : numeral digits = .error (.tooManyDigits digits.length) := by
      unfold numeral
      rw [if_neg hi.1, if_pos hl]
    rw [Item.chars, next_run hi.1 hi.2 (hafter rfl), hnum]
    rfl

theorem tokensLoop_ok {sc after : Scanner} {budget : Nat} {done : List Token} (h : sc.next = (.ok t, after))
    (ht : t ≠ .stop) : tokensLoop (budget + 1) done sc = tokensLoop budget (t :: done) after := by
  cases t with
  | stop => exact absurd rfl ht
  | _ => simp only [tokensLoop, h]

theorem tokensLoop_error {sc : Scanner} {budget : Nat} {done : List Token} (h : sc.next.1 = .error f) :
    (tokensLoop (budget + 1) done sc).1 = .error f := by
  cases hn : sc.next with
  | mk result after =>
    obtain rfl : result = .error f := by rw [← h, hn]
    simp only [tokensLoop, hn]

/-- The items in front that mean tokens are read one by one, and the loop goes on behind them. -/
theorem tokensLoop_means {before rest : List Item} {ts : List Token} (hm : List.Forall₂ Item.Means before ts)
    {u : List Char} (h : Splits u (before ++ rest)) {budget : Nat} (hb : u.length ≤ budget) (done : List Token)
    (pos : Nat) :
    ∃ budget' pos', (rest.flatMap Item.chars).length ≤ budget' ∧
      tokensLoop budget done ⟨pos, u⟩ = tokensLoop budget' (ts.reverse ++ done) ⟨pos', rest.flatMap Item.chars⟩ := by
  induction hm generalizing u budget done pos with
  | nil =>
    obtain rfl : rest.flatMap Item.chars = u := h.text
    exact ⟨budget, pos, hb, rfl⟩
  | @cons i t before ts hi hm ih =>
    rw [List.cons_append] at h
    have hproper : i.Proper := h.each i (by simp)
    have hpos := List.length_pos_iff.mpr hproper.chars_ne_nil
    have hu : u = i.chars ++ (before ++ rest).flatMap Item.chars := h.text_cons
    have hlen := congrArg List.length hu
    rw [List.length_append] at hlen
    obtain _ | budget := budget
    · omega
    · have hnext : next ⟨pos, u⟩ = (.ok t, ⟨pos + i.chars.length, (before ++ rest).flatMap Item.chars⟩) := by
        rw [hu]
        exact next_means hproper hi h.not_digit_behind
      have hstop : t ≠ .stop := by cases hi <;> simp
      have hb : ((before ++ rest).flatMap Item.chars).length ≤ budget := by omega
      obtain ⟨budget', pos', hb', hloop⟩ := ih h.tail hb (t :: done) (pos + i.chars.length)
      refine ⟨budget', pos', hb', ?_⟩
      rw [tokensLoop_ok hnext hstop, hloop]
      simp

end Scanner

def Spells (u : List Char) (ts : List Token) : Prop :=
  ∃ items, Splits u items ∧ List.Forall₂ Item.Means items ts

namespace Splits

variable {s : String} {items : List Item}

theorem scan_means {ts : List Token} (h : Splits (Text.trim s.toList) items) (hm : List.Forall₂ Item.Means items ts) :
    scan s = .ok (ts ++ [.stop]) := by
  rw [← List.append_nil items] at h
  obtain ⟨budget, pos, -, hloop⟩ := Scanner.tokensLoop_means hm h (Nat.le_refl _) [] 0
  rw [scan, Scanner.ofText, Scanner.tokens, hloop]
  cases budget with
  | zero => simp [Scanner.tokensLoop]
  | succ budget => simp [Scanner.tokensLoop, Scanner.next]

theorem scan_refused {before rest : List Item} {i : Item} {f : ScanFault}
    (h : Splits (Text.trim s.toList) (before ++ i :: rest)) (hfine : ∀ j ∈ before, j.IsFine) (hf : i.Refused f) :
    scan s = .error f := by
  obtain ⟨ts, hts⟩ := Item.exists_means hfine
  obtain ⟨budget, pos, hb, hloop⟩ := Scanner.tokensLoop_means hts h (Nat.le_refl _) [] 0
  have hrest := h.behind
  have hproper : i.Proper := hrest.each i (by simp)
  have hpos := List.length_pos_iff.mpr hproper.chars_ne_nil
  rw [List.flatMap_cons] at hb hloop
  rw [List.length_append] at hb
  obtain _ | budget := budget
  · omega
  · have hnext : (Scanner.next ⟨pos, i.chars ++ rest.flatMap Item.chars⟩).1 = .error f :=
      Scanner.next_refused hproper hf hrest.not_digit_behind
    rw [scan, Scanner.ofText, Scanner.tokens, hloop]
    exact Scanner.tokensLoop_error hnext

theorem scan_cases (h : Splits (Text.trim s.toList) items) :
    (∃ ts, List.Forall₂ Item.Means items ts ∧ scan s = .ok (ts ++ [.stop])) ∨
      ∃ before i rest f, items = before ++ i :: rest ∧ (∀ j ∈ before, j.IsFine) ∧ i.Refused f ∧ scan s = .error f := by
  by_cases hfine : ∀ i ∈ items, i.IsFine
  · obtain ⟨ts, hm⟩ := Item.exists_means hfine
    exact .inl ⟨ts, hm, h.scan_means hm⟩
  · obtain ⟨before, i, rest, rfl, hbefore, hi⟩ := Item.exists_first_not_fine hfine
    obtain ⟨f, hf⟩ := Item.exists_refused_iff.mpr hi
    exact .inr ⟨before, i, rest, f, rfl, hbefore, hf, h.scan_refused hbefore hf⟩

theorem apart_tokens {u : List Char} {ts : List Token} (h : Splits u items) (hm : List.Forall₂ Item.Means items ts) :
    (ts ++ [Token.stop]).IsChain Token.Apart := by
  induction hm generalizing u with
  | nil => exact .singleton _
  | @cons i t items ts hi hm ih =>
    rw [List.cons_append]
    refine List.isChain_cons.mpr ⟨fun v hv hnumber => ?_, ih h.tail⟩
    have hrun : i.isRun = true := hi.kind_eq_number.mp hnumber
    cases hm with
    | nil =>
      obtain rfl : Token.stop = v := by simpa using hv
      simp [Token.kind]
    | @cons j w items ts hj hm =>
      obtain rfl : w = v := by simpa using hv
      have hj' : j.isRun = false := h.apart.rel hrun
      intro hnumber'
      rw [hj.kind_eq_number.mp hnumber'] at hj'
      cases hj'

end Splits

theorem scan_eq_ok_iff {s : String} {ts : List Token} :
    scan s = .ok ts ↔ ∃ body, ts = body ++ [.stop] ∧ Spells (Text.trim s.toList) body := by
  constructor
  · intro hok
    obtain ⟨items, h⟩ := Splits.exists_split (Text.trim s.toList)
    obtain ⟨body, hm, hscan⟩ | ⟨before, i, rest, f, -, -, -, hscan⟩ := h.scan_cases
    · rw [hscan] at hok
      exact ⟨body, (Except.ok.inj hok).symm, items, h, hm⟩
    · rw [hscan] at hok
      cases hok
  · rintro ⟨body, rfl, items, h, hm⟩
    exact h.scan_means hm

end LetterArithmetic
