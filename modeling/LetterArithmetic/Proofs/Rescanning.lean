import LetterArithmetic.Proofs.Items

/-!
A scanner that is used again, also where reading has failed. Main statement: after any steps the scanner stands on the
text it was made for and goes on as a new one on the rest of the text would. A character that starts no token stops it
until it is stepped over, digits that are refused lie behind it, and the end of the text is read again and again.
-/

set_option autoImplicit false

namespace LetterArithmetic.Scanner

def shift (n : Nat) (sc : Scanner) : Scanner := ⟨n + sc.pos, sc.rest⟩

structure Takes (sc : Scanner) (cs : List Char) (sc' : Scanner) : Prop where
  rest : sc.rest = cs ++ sc'.rest
  pos : sc'.pos = sc.pos + cs.length

structure Crosses (sc : Scanner) (digits : List Char) (sc' : Scanner) : Prop extends Takes sc digits sc' where
  digits_eq : digits = sc.rest.takeWhile Char.isDigit

inductive Reads : Scanner → List Token → Scanner → Prop where
  | nil (sc : Scanner) : Reads sc [] sc
  | cons {sc sc₁ sc' : Scanner} {t : Token} {ts : List Token} (first : sc.next = (.ok t, sc₁)) (ht : t ≠ .stop)
      (rest : Reads sc₁ ts sc') : Reads sc (t :: ts) sc'

/-- Where a fault leaves a scanner that stood at `sc` in front of what is refused: on a character that starts no token,
or behind all of a run of digits. -/
inductive Leaves : ScanFault → Scanner → Scanner → Prop where
  | unrecognized {sc : Scanner} {c : Char} (hc : sc.current? = some c) (hd : c.isDigit = false) :
      Leaves (.unrecognized c) sc sc
  | run {sc sc' : Scanner} {digits : List Char} {f : ScanFault} (hf : (Item.run digits).Refused f)
      (h : sc.Crosses digits sc') : Leaves f sc sc'

inductive Comes (sc : Scanner) : Except ScanFault Token × Scanner → Prop where
  | stop (hrest : sc.rest = []) : Comes sc (.ok .stop, sc)
  | token {t : Token} {cs : List Char} {sc' : Scanner} (ht : t ≠ .stop) (hcs : cs ≠ []) (h : sc.Takes cs sc') :
      Comes sc (.ok t, sc')
  | fault {f : ScanFault} {sc' : Scanner} (h : Leaves f sc sc') : Comes sc (.error f, sc')

/-- The characters in front of the scanner have been stepped over, and the others remain. -/
def On (u : List Char) (sc : Scanner) : Prop := sc.rest = u.drop sc.pos

inductive Step where
  | advance
  | number
  | next
  | tokens
  deriving DecidableEq, Repr

def Step.run : Step → Scanner → Scanner
  | advance, sc => sc.step
  | number, sc => sc.readNumber.2
  | next, sc => sc.next.2
  | tokens, sc => sc.tokens.2

def after (steps : List Step) (sc : Scanner) : Scanner := steps.foldl (fun sc s => s.run sc) sc

variable {sc sc₁ sc' : Scanner} {u cs : List Char} {t : Token} {ts : List Token} {f : ScanFault}

theorem Takes.refl (sc : Scanner) : sc.Takes [] sc := ⟨rfl, rfl⟩

theorem Takes.trans {ds : List Char} (h : sc.Takes cs sc₁) (h' : sc₁.Takes ds sc') : sc.Takes (cs ++ ds) sc' :=
  ⟨by rw [h.rest, h'.rest, List.append_assoc], by rw [h'.pos, h.pos, List.length_append, Nat.add_assoc]⟩

theorem Takes.pos_le (h : sc.Takes cs sc') : sc.pos ≤ sc'.pos := h.pos ▸ Nat.le_add_right _ _

theorem Takes.on (h : sc.Takes cs sc') (hu : sc.On u) : sc'.On u := by
  unfold On at hu ⊢
  rw [h.pos, ← List.drop_drop, ← hu, h.rest, List.drop_left]

theorem On.step (hu : sc.On u) : sc.step.On u := by
  unfold On at hu ⊢
  simp only [Scanner.step, hu, List.tail_drop]

theorem On.current?_eq (hu : sc.On u) : sc.current? = u[sc.pos]? := by
  unfold On at hu
  rw [current?, hu, List.head?_drop]

theorem numeral_refused {digits : List Char} (hne : digits ≠ []) (h : numeral digits = .error f) :
    (Item.run digits).Refused f := by
  unfold numeral at h
  rw [if_neg hne] at h
  split at h
  case isTrue hl =>
    cases h
    exact .tooManyDigits digits hl
  case isFalse hl =>
    split at h
    case isTrue hv =>
      cases h
      exact .tooLarge digits (Nat.le_of_not_lt hl) hv
    case isFalse => cases h

theorem readNumber_crosses (sc : Scanner) : sc.Crosses (sc.rest.takeWhile Char.isDigit) sc.readNumber.2 :=
  ⟨⟨List.takeWhile_append_dropWhile.symm, rfl⟩, rfl⟩

theorem Crosses.behind {digits : List Char} (h : sc.Crosses digits sc') : ∀ c ∈ sc'.rest.head?, c.isDigit = false := by
  have hsplit : digits ++ sc'.rest = digits ++ sc.rest.dropWhile Char.isDigit := by
    rw [← h.rest, h.digits_eq, List.takeWhile_append_dropWhile]
  intro c hc
  have hhead := List.head?_dropWhile_not Char.isDigit sc.rest
  rw [← List.append_cancel_left hsplit, Option.mem_def.mp hc] at hhead
  simpa using hhead

theorem readNumber_none (h : ∀ c ∈ sc.rest.head?, c.isDigit = false) : sc.readNumber = (.error .noDigits, sc) := by
  obtain ⟨pos, rest⟩ := sc
  cases rest with
  | nil => rfl
  | cons c r =>
    have hc : c.isDigit = false := h c rfl
    simp [readNumber, hc, numeral]

theorem readNumber_error (h : sc.readNumber = (.error f, sc')) : (f = .noDigits ∧ sc' = sc) ∨ Leaves f sc sc' := by
  have hcrosses := sc.readNumber_crosses
  have hf : numeral (sc.rest.takeWhile Char.isDigit) = .error f := congrArg Prod.fst h
  by_cases hne : sc.rest.takeWhile Char.isDigit = []
  · rw [hne] at hcrosses
    have hnone : ∀ c ∈ sc.rest.head?, c.isDigit = false := by
      rw [hcrosses.rest]
      exact hcrosses.behind
    cases h.symm.trans (readNumber_none hnone)
    exact .inl ⟨rfl, rfl⟩
  · rw [h] at hcrosses
    exact .inr (.run (numeral_refused hne hf) hcrosses)

theorem next_comes (sc : Scanner) : sc.Comes sc.next := by
  obtain ⟨pos, rest⟩ := sc
  cases rest with
  | nil => exact .stop rfl
  | cons c r =>
    cases hl : Token.ofLetter? c with
    | some t =>
      have ht : t ≠ .stop := by
        rintro rfl
        unfold Token.ofLetter? at hl
        split at hl <;> cases hl
      have hn : next ⟨pos, c :: r⟩ = (.ok t, step ⟨pos, c :: r⟩) := by simp only [next, hl]
      rw [hn]
      exact .token ht (List.cons_ne_nil c []) ⟨rfl, rfl⟩
    | none =>
      cases hc : c.isDigit with
      | false =>
        rw [next_single hc hl]
        exact .fault (.unrecognized rfl hc)
      | true =>
        have hcrosses := readNumber_crosses ⟨pos, c :: r⟩
        have hne : (c :: r).takeWhile Char.isDigit ≠ [] := by simp [hc]
        have hn : next ⟨pos, c :: r⟩ =
            ((numeral ((c :: r).takeWhile Char.isDigit)).map fun v : Nat => .number v,
              (readNumber ⟨pos, c :: r⟩).2) := by
          simp only [next, hl, hc, if_true]
          rfl
        rw [hn]
        cases hv : numeral ((c :: r).takeWhile Char.isDigit) with
        | error f => exact .fault (.run (numeral_refused hne hv) hcrosses)
        | ok v => exact .token (by simp) hne hcrosses.toTakes

theorem next_error (h : sc.next = (.error f, sc')) : Leaves f sc sc' := by
  have hcomes := sc.next_comes
  rw [h] at hcomes
  cases hcomes with
  | fault h => exact h

theorem next_unrecognized {c : Char} (h : sc.next = (.error (.unrecognized c), sc')) :
    sc'.next = (.error (.unrecognized c), sc') := by
  cases next_error h with
  | unrecognized hc hd => exact h
  | run hf => cases hf

theorem next_takes (sc : Scanner) : ∃ cs, sc.Takes cs sc.next.2 := by
  have hcomes := sc.next_comes
  generalize sc.next = out at hcomes
  cases hcomes with
  | stop hrest => exact ⟨[], .refl sc⟩
  | token ht hcs h => exact ⟨_, h⟩
  | fault h =>
    cases h with
    | unrecognized hc hd => exact ⟨[], .refl sc⟩
    | run hf h => exact ⟨_, h.toTakes⟩

theorem Reads.takes (h : sc.Reads ts sc') : ∃ cs, sc.Takes cs sc' := by
  induction h with
  | nil sc => exact ⟨[], .refl sc⟩
  | @cons sc sc₁ sc' t ts first ht rest ih =>
    obtain ⟨cs, htakes⟩ := sc.next_takes
    rw [first] at htakes
    obtain ⟨ds, hrest⟩ := ih
    exact ⟨cs ++ ds, htakes.trans hrest⟩

theorem tokensLoop_cases {budget : Nat} (hb : sc.rest.length ≤ budget) (done : List Token) :
    (∃ ts sc', sc.Reads ts sc' ∧ sc'.rest = [] ∧
      tokensLoop budget done sc = (.ok (done.reverse ++ ts ++ [.stop]), sc')) ∨
    ∃ ts sc₁ f sc', sc.Reads ts sc₁ ∧ sc₁.next = (.error f, sc') ∧ tokensLoop budget done sc = (.error f, sc') := by
  -- each token takes a character at least, so the budget lasts to the end of the text
  induction budget generalizing sc done with
  | zero =>
    have hrest : sc.rest = [] := List.length_eq_zero_iff.mp (Nat.le_zero.mp hb)
    exact .inl ⟨[], sc, .nil sc, hrest, by simp [tokensLoop]⟩
  | succ budget ih =>
    have hcomes := sc.next_comes
    cases hn : sc.next with
    | mk result sc₁ =>
      rw [hn] at hcomes
      cases hcomes with
      | stop hrest => exact .inl ⟨[], _, .nil _, hrest, by simp [tokensLoop, hn]⟩
      | fault h => exact .inr ⟨[], sc, _, sc₁, .nil sc, hn, by simp only [tokensLoop, hn]⟩
      | @token t cs _ ht hcs h =>
        have hpos := List.length_pos_iff.mpr hcs
        rw [h.rest, List.length_append] at hb
        have hbudget : sc₁.rest.length ≤ budget := by omega
        rw [tokensLoop_ok hn ht]
        obtain ⟨ts, sc', hreads, hrest, hloop⟩ | ⟨ts, sc₂, f, sc', hreads, hf, hloop⟩ := ih hbudget (t :: done)
        · exact .inl ⟨t :: ts, sc', .cons hn ht hreads, hrest, by simp [hloop]⟩
        · exact .inr ⟨t :: ts, sc₂, f, sc', .cons hn ht hreads, hf, hloop⟩

theorem tokens_error (h : sc.tokens = (.error f, sc')) :
    ∃ ts sc₁, sc.Reads ts sc₁ ∧ sc₁.next = (.error f, sc') := by
  obtain ⟨ts, sc₂, -, -, hloop⟩ | ⟨ts, sc₁, f', sc₂, hreads, hf, hloop⟩ :=
    tokensLoop_cases (Nat.le_refl sc.rest.length) []
  · cases h.symm.trans hloop
  · cases h.symm.trans hloop
    exact ⟨ts, sc₁, hreads, hf⟩

theorem tokens_takes (sc : Scanner) : ∃ cs, sc.Takes cs sc.tokens.2 := by
  unfold tokens
  obtain ⟨ts, sc₂, hreads, -, hloop⟩ | ⟨ts, sc₁, f, sc₂, hreads, hf, hloop⟩ :=
    tokensLoop_cases (Nat.le_refl sc.rest.length) []
  · rw [hloop]
    exact hreads.takes
  · rw [hloop]
    obtain ⟨cs, htakes⟩ := hreads.takes
    obtain ⟨ds, hlast⟩ := sc₁.next_takes
    rw [hf] at hlast
    exact ⟨cs ++ ds, htakes.trans hlast⟩

theorem tokens_of_next_error (h : sc.next = (.error f, sc')) : sc.tokens = (.error f, sc') := by
  obtain ⟨pos, rest⟩ := sc
  cases rest with
  | nil => cases h
  | cons c r => simp only [tokens, List.length_cons, tokensLoop, h]

section

variable (sc) (n : Nat)

theorem next_shift : (sc.shift n).next = sc.next.map id (shift n) := by
  obtain ⟨pos, rest⟩ := sc
  cases rest with
  | nil => rfl
  | cons c r =>
    simp only [shift, next]
    cases Token.ofLetter? c with
    | some t => rfl
    | none =>
      dsimp only
      split
      · simp [readNumber, shift, Nat.add_assoc]
      · rfl

theorem tokensLoop_shift (budget : Nat) (done : List Token) :
    tokensLoop budget done (sc.shift n) = (tokensLoop budget done sc).map id (shift n) := by
  induction budget generalizing sc done with
  | zero => rfl
  | succ budget ih =>
    simp only [tokensLoop, next_shift]
    cases hn : sc.next with
    | mk result sc₁ =>
      cases result with
      | error f => rfl
      | ok t =>
        cases t with
        | stop => rfl
        | _ => exact ih sc₁ _

theorem tokens_shift : (sc.shift n).tokens = sc.tokens.map id (shift n) := tokensLoop_shift sc n _ _

end

theorem Step.pos_le_run (step : Step) (sc : Scanner) : sc.pos ≤ (step.run sc).pos := by
  cases step with
  | advance => exact Nat.le_succ _
  | number => exact sc.readNumber_crosses.pos_le
  | next =>
    obtain ⟨cs, htakes⟩ := sc.next_takes
    exact htakes.pos_le
  | tokens =>
    obtain ⟨cs, htakes⟩ := sc.tokens_takes
    exact htakes.pos_le

theorem Step.run_on (step : Step) (hu : sc.On u) : (step.run sc).On u := by
  cases step with
  | advance => exact hu.step
  | number => exact sc.readNumber_crosses.on hu
  | next =>
    obtain ⟨cs, htakes⟩ := sc.next_takes
    exact htakes.on hu
  | tokens =>
    obtain ⟨cs, htakes⟩ := sc.tokens_takes
    exact htakes.on hu

theorem after_on (steps : List Step) (hu : sc.On u) : (sc.after steps).On u := by
  induction steps generalizing sc with
  | nil => exact hu
  | cons step steps ih => exact ih (step.run_on hu)

theorem after_eq_self {c : Char} (h : sc.next = (.error (.unrecognized c), sc)) {later : List Step}
    (hlater : .advance ∉ later) : sc.after later = sc := by
  have hnone : ∀ d ∈ sc.rest.head?, d.isDigit = false := by
    cases next_error h with
    | unrecognized hc hd =>
      intro d hmem
      obtain rfl := Option.mem_unique hmem hc
      exact hd
    | run hf => cases hf
  induction later with
  | nil => rfl
  | cons step later ih =>
    have hrun : step.run sc = sc := by
      cases step with
      | advance => exact absurd List.mem_cons_self hlater
      | number => rw [Step.run, readNumber_none hnone]
      | next => rw [Step.run, h]
      | tokens => rw [Step.run, tokens_of_next_error h]
    rw [after, List.foldl_cons, hrun]
    exact ih fun hmem => hlater (List.mem_cons_of_mem step hmem)

theorem next_of_end (hrest : sc.rest = []) : sc.next = (.ok .stop, sc) := by rw [next, hrest]

theorem tokens_of_end (hrest : sc.rest = []) : sc.tokens = (.ok [.stop], sc) := by
  rw [tokens, hrest]
  rfl

theorem after_of_end (hrest : sc.rest = []) (later : List Step) : (sc.after later).rest = [] := by
  induction later generalizing sc with
  | nil => exact hrest
  | cons step later ih =>
    have hstep : (step.run sc).rest = [] := by
      cases step with
      | advance => rw [Step.run, Scanner.step, hrest, List.tail_nil]
      | number => rw [Step.run, readNumber_none (by simp [hrest]), hrest]
      | next => rw [Step.run, next_of_end hrest, hrest]
      | tokens => rw [Step.run, tokens_of_end hrest, hrest]
    exact ih hstep

/-- After any steps, also such that failed, the scanner stands on the trimmed text of before, and no step takes it back.
It goes on as a new scanner on the rest of the text would, only further on. A character that starts no token is not
taken; until it is stepped over, reading comes back to it. Digits that are refused are taken, all of them. At the end of
the text there is nothing but the end. -/
theorem state_after (s : String) (steps : List Step) :
    let u := Text.trim s.toList
    let sc := (ofText s).after steps
    (sc.rest = u.drop sc.pos ∧ sc.current? = u[sc.pos]?) ∧
    (∀ step : Step, sc.pos ≤ (step.run sc).pos) ∧
    (sc.next = (next ⟨0, u.drop sc.pos⟩).map id (shift sc.pos) ∧
      sc.tokens = (tokens ⟨0, u.drop sc.pos⟩).map id (shift sc.pos)) ∧
    (∀ f sc', sc.readNumber = (.error f, sc') → (f = .noDigits ∧ sc' = sc) ∨ Leaves f sc sc') ∧
    (∀ f sc', sc.next = (.error f, sc') → Leaves f sc sc') ∧
    (∀ f sc', sc.tokens = (.error f, sc') → ∃ ts sc₁, sc.Reads ts sc₁ ∧ Leaves f sc₁ sc') ∧
    (∀ c sc', sc.next = (.error (.unrecognized c), sc') ∨ sc.tokens = (.error (.unrecognized c), sc') →
      ∀ later, .advance ∉ later → sc'.after later = sc' ∧
        sc'.next = (.error (.unrecognized c), sc') ∧ sc'.tokens = (.error (.unrecognized c), sc')) ∧
    (sc.current? = none → ∀ later,
      let sc' := sc.after later
      sc'.next = (.ok .stop, sc') ∧ sc'.tokens = (.ok [.stop], sc')) := by
  intro u sc
  have hon : sc.On u := after_on steps rfl
  have hfresh : shift sc.pos ⟨0, u.drop sc.pos⟩ = sc := by
    rw [← hon]
    rfl
  refine ⟨⟨hon, hon.current?_eq⟩, fun step => step.pos_le_run sc, ⟨?_, ?_⟩, fun f sc' => readNumber_error,
    fun f sc' => next_error, fun f sc' h => ?_, fun c sc' h later hlater => ?_, fun hend later => ?_⟩
  · rw [← next_shift, hfresh]
  · rw [← tokens_shift, hfresh]
  · obtain ⟨ts, sc₁, hreads, hf⟩ := tokens_error h
    exact ⟨ts, sc₁, hreads, next_error hf⟩
  · have hnext : sc'.next = (.error (.unrecognized c), sc') := by
      obtain h | h := h
      · exact next_unrecognized h
      · obtain ⟨ts, sc₁, -, hlast⟩ := tokens_error h
        exact next_unrecognized hlast
    exact ⟨after_eq_self hnext hlater, hnext, tokens_of_next_error hnext⟩
  · have hrest := after_of_end (List.head?_eq_none_iff.mp hend) later
    exact ⟨next_of_end hrest, tokens_of_end hrest⟩

theorem state_after_faults :
    let start := ofText " 12a\u0663f18446744073709551616"
    let inside := start.after [.advance]
    let stuck := start.after [.advance, .tokens]
    let behind := start.after [.advance, .tokens, .number, .next, .advance]
    let ended := start.after [.advance, .tokens, .number, .next, .advance, .tokens]
    let past := ended.after [.advance, .number, .advance]
    inside.tokens = (.error (.unrecognized '\u0663'), stuck) ∧ stuck.pos = 3 ∧ stuck.after [.number, .next] = stuck ∧
      stuck.next = (.error (.unrecognized '\u0663'), stuck) ∧
      behind.tokens = (.error (.tooLarge "18446744073709551616".toList), ⟨25, []⟩) ∧
      (∃ ts sc₁, behind.Reads ts sc₁ ∧ Leaves (.tooLarge "18446744073709551616".toList) sc₁ ⟨25, []⟩) ∧
      past.pos = 27 ∧ past.next = (.ok .stop, past) := by
  intro start inside stuck behind ended past
  have hstuck : inside.tokens = (.error (.unrecognized '\u0663'), stuck) := rfl
  have hbroken : behind.tokens = (.error (.tooLarge "18446744073709551616".toList), ⟨25, []⟩) := by
    decide +kernel +zetaReduce
  have hended : ended.current? = none := by decide +kernel +zetaReduce
  have hplace : past.pos = 27 := by decide +kernel +zetaReduce
  obtain ⟨-, -, -, -, -, -, hstays, -⟩ := state_after " 12a\u0663f18446744073709551616" [.advance]
  obtain ⟨-, -, -, -, -, hfault, -, -⟩ :=
    state_after " 12a\u0663f18446744073709551616" [.advance, .tokens, .number, .next, .advance]
  obtain ⟨-, -, -, -, -, -, -, hend⟩ :=
    state_after " 12a\u0663f18446744073709551616" [.advance, .tokens, .number, .next, .advance, .tokens]
  obtain ⟨hsame, hnext, -⟩ := hstays _ _ (.inr hstuck) [.number, .next] (by decide)
  exact ⟨hstuck, rfl, hsame, hnext, hbroken, hfault _ _ hbroken, hplace, (hend hended _).1⟩

end LetterArithmetic.Scanner
