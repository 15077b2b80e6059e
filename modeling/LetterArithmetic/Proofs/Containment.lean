import LetterArithmetic.Proofs.Composition
import LetterArithmetic.Proofs.Sections

/-!
Which faults have a report. Main statements: reading comes to a tree or a reported fault unless it meets an operator
without a rank, and a calculation comes to a value or a reported fault unless the first item of its text that is not
fine is a run of too many digits.
-/

set_option autoImplicit false

namespace LetterArithmetic

inductive Complaint (ts : List Token) : String → Prop where
  | unexpectedToken {t : Token} {s : String} (ht : t ∈ ts) (hs : t.ShownAs s) :
      Complaint ts ("Unexpected token found " ++ s)
  | unexpectedEnd : Complaint ts "Unexpected end of input"
  | expectedClosing {t : Token} {s : String} (ht : t ∈ ts) (hs : t.ShownAs s) :
      Complaint ts ("Expected RightParen got " ++ s)
  | expectedEnd {t : Token} {s : String} (ht : t ∈ ts) (hs : t.ShownAs s) : Complaint ts ("Expected End got " ++ s)
  | tooDeep : Complaint ts "Expression nested too deeply"

namespace ReadFault

structure IsTold (f : ReadFault) (m : String) : Prop where
  report_eq : f.report? = some (.misread .parser m)
  written_eq : f.written = .ok m
  kind_eq : f.kind.name = "ExpressionSyntaxError"

variable {ranks : Ranks} {ts : List Token} {f : ReadFault}

theorem IsTold.isWritable {m : String} {v : Int} (h : f.IsTold m) (hv : f.shown? = some (.number v)) :
    Text.isWritable v = true := by
  rcases (Token.number v).shownAs_or_long with ⟨s, hs⟩ | ⟨w, hw, -, htext⟩
  · cases hs with
    | number hv => exact hv
  · have hwritten := h.written_eq
    cases f with
    | unexpectedToken t | expected kind t =>
      rw [Option.some.inj hv, written, htext] at hwritten
      cases hwritten
    | cutShort naming => exact absurd h.kind_eq (by simp [kind, ErrorKind.name, ErrorKind.classes])
    | unexpectedEnd | tooDeep | unranked | tooManyCalls => cases hv

namespace Arises

theorem shown_mem {t : Token} (h : f.Arises ranks ts) (ht : f.shown? = some t) : t ∈ ts := by
  cases h with
  | unexpectedToken hmem | expected _ hmem => exact Option.some.inj ht ▸ hmem
  | unexpectedEnd | tooDeep | unranked => cases ht

theorem isTold (h : f.Arises ranks ts) (hr : ∀ op, f ≠ .unranked op)
    (hw : ∀ v, f.shown? = some (.number v) → Text.isWritable v = true) : ∃ m, f.IsTold m ∧ Complaint ts m := by
  obtain ⟨name, m, hraised⟩ := h.exists_isRaised
  have hkind := hraised.kind_eq
  have hreport := hraised.report_eq
  cases hraised.raises with
  | unexpectedToken hs =>
    exact ⟨_, ⟨hreport rfl, by rw [written, hs.text_eq]; rfl, hkind⟩, .unexpectedToken (h.shown_mem rfl) hs⟩
  | unexpectedEnd => exact ⟨_, ⟨hreport rfl, rfl, hkind⟩, .unexpectedEnd⟩
  | expectedClosing hs =>
    exact ⟨_, ⟨hreport rfl, by rw [written, hs.text_eq]; rfl, hkind⟩, .expectedClosing (h.shown_mem rfl) hs⟩
  | expectedEnd hs =>
    exact ⟨_, ⟨hreport rfl, by rw [written, hs.text_eq]; rfl, hkind⟩, .expectedEnd (h.shown_mem rfl) hs⟩
  | tooDeep => exact ⟨_, ⟨hreport rfl, rfl, hkind⟩, .tooDeep⟩
  | long hf hv => cases hv.symm.trans (hw _ hf)
  | addition | subtraction | multiplication | division => exact absurd rfl (hr _)

end Arises

end ReadFault

namespace Cursor

variable {lim : Limits} {ts : List Token} {f : ReadFault}

theorem ofTokens_of_not_withinCalls (h : ¬(ofTokens ts).WithinCalls lim) :
    Tree.ofTokens lim ts = .error .tooDeep := by
  simp only [WithinCalls, not_forall] at h
  obtain ⟨f, hf, hexhausted⟩ := h
  unfold Tree.ofTokens whole wholeIn
  generalize (ofTokens ts).expression lim lim.openCalls 0 = out at hf
  obtain ⟨result, c⟩ := out
  obtain rfl : result = .error f := hf
  dsimp only
  rw [if_pos ((Bool.not_eq_false _).mp hexhausted), ReadFault.within_openCalls]

theorem WithinCalls.ofTokens_eq_error_iff (h : (ofTokens ts).WithinCalls lim) :
    Tree.ofTokens lim ts = .error f ↔ ∃ c, (ofTokens ts).count lim .operand = (.error f, c) := by
  unfold Tree.ofTokens
  rw [← h.verdict_eq]
  generalize (ofTokens ts).whole lim = out
  obtain ⟨result, c⟩ := out
  cases result with
  | ok t => simp [verdict]
  | error e => simp [verdict]

theorem arises_of_ofTokens (h : Tree.ofTokens lim ts = .error f) : f.Arises lim.ranks ts := by
  by_cases hw : (ofTokens ts).WithinCalls lim
  · obtain ⟨c, hcount⟩ := hw.ofTokens_eq_error_iff.mp h
    exact arises_of_countFrom hcount
  · obtain rfl : ReadFault.tooDeep = f := Except.error.inj ((ofTokens_of_not_withinCalls hw).symm.trans h)
    exact .tooDeep

theorem ofTokens_eq_unranked_iff {op : Operator} :
    Tree.ofTokens lim ts = .error (.unranked op) ↔
      (ofTokens ts).WithinCalls lim ∧ ∃ c, (ofTokens ts).count lim .operand = (.error (.unranked op), c) := by
  refine ⟨fun h => ?_, fun ⟨hw, hcount⟩ => hw.ofTokens_eq_error_iff.mpr hcount⟩
  have hw : (ofTokens ts).WithinCalls lim := by
    by_contra hw
    cases (ofTokens_of_not_withinCalls hw).symm.trans h
  exact ⟨hw, hw.ofTokens_eq_error_iff.mp h⟩

end Cursor

def ReadsOrReports (lim : Limits) (ts : List Token) : Prop :=
  (∃ t, Tree.ofTokens lim ts = .ok t) ∨ ∃ f m, Tree.ofTokens lim ts = .error f ∧ f.IsTold m ∧ Complaint ts m

section

variable {lim : Limits} {ts : List Token}

theorem ReadsOrReports.isTold {f : ReadFault} (h : ReadsOrReports lim ts) (hf : Tree.ofTokens lim ts = .error f) :
    ∃ m, f.IsTold m := by
  rcases h with ⟨t, ht⟩ | ⟨f', m, hf', htold, -⟩
  · cases ht.symm.trans hf
  · obtain rfl : f = f' := Except.error.inj (hf.symm.trans hf')
    exact ⟨m, htold⟩

theorem readsOrReports_of_forall (h : ∀ f, Tree.ofTokens lim ts = .error f →
    (∀ op, f ≠ .unranked op) ∧ ∀ v, f.shown? = some (.number v) → Text.isWritable v = true) :
    ReadsOrReports lim ts := by
  cases hread : Tree.ofTokens lim ts with
  | ok t => exact .inl ⟨t, hread⟩
  | error f =>
    obtain ⟨hr, hw⟩ := h f hread
    obtain ⟨m, htold, hcomplaint⟩ := (Cursor.arises_of_ofTokens hread).isTold hr hw
    exact .inr ⟨f, m, hread, htold, hcomplaint⟩

end

/-- Reading comes to a tree or to a reported fault, too many calls included, unless it stops at an operator without a
rank, which has no report, or at a number that is too long to be shown. The one-pass automaton stops at an operator
without a rank too. With ranks for all operators of the list, and numbers that can be written, reading comes to a tree
or a report. -/
theorem readsOrReports_iff (lim : Limits) (ts : List Token) :
    (ReadsOrReports lim ts ↔ ∀ f, Tree.ofTokens lim ts = .error f →
      (∀ op, f ≠ .unranked op) ∧ ∀ v, f.shown? = some (.number v) → Text.isWritable v = true) ∧
    (∀ op, (ReadFault.unranked op).report? = none ∧ (ReadFault.unranked op).kind.name = "KeyError" ∧
      (Tree.ofTokens lim ts = .error (.unranked op) ↔ (Cursor.ofTokens ts).WithinCalls lim ∧
        ∃ c, (Cursor.ofTokens ts).count lim .operand = (.error (.unranked op), c))) ∧
    ((∀ op, .operator op ∈ ts → lim.ranks op ≠ none) → (∀ v, .number v ∈ ts → Text.isWritable v = true) →
      ReadsOrReports lim ts) := by
  refine ⟨⟨?_, readsOrReports_of_forall⟩, fun op => ⟨rfl, rfl, Cursor.ofTokens_eq_unranked_iff⟩,
    fun hranks hwritable => ?_⟩
  · intro h f hf
    obtain ⟨m, htold⟩ := h.isTold hf
    refine ⟨?_, fun v hv => htold.isWritable hv⟩
    rintro op rfl
    cases htold.report_eq
  · refine readsOrReports_of_forall fun f hf => ?_
    have harises := Cursor.arises_of_ofTokens hf
    refine ⟨?_, fun v hv => hwritable v (harises.shown_mem hv)⟩
    rintro op rfl
    cases harises with
    | unranked hop hr => exact hranks op hop hr

theorem not_readsOrReports_addition :
    let lim : Limits := { ranks := fun op => if op = .multiply ∨ op = .divide then some 2 else none }
    let ts : List Token := [.number 1, .operator .add, .number 2, .stop]
    Tree.ofTokens lim ts = .error (.unranked .add) ∧ (ReadFault.unranked .add).kind.name = "KeyError" ∧
      (ReadFault.unranked .add).report? = none ∧ ¬ReadsOrReports lim ts := by
  intro lim ts
  have hread : Tree.ofTokens lim ts = .error (.unranked .add) := rfl
  refine ⟨hread, rfl, rfl, fun h => ?_⟩
  obtain ⟨m, htold⟩ := h.isTold hread
  cases htold.report_eq

/-- A fault of the calculation of a text is reported by its stage: the scanner, the reader with one of its messages
about the tokens, or the arithmetic with one of its own kinds. -/
def Fault.IsTold (text : String) : Fault → Prop
  | scan f => f.kind.name = "ExpressionSyntaxError" ∧ ∃ m, f.report? = some (.misread .tokenizer m)
  | read f => ∃ ts m, LetterArithmetic.scan text = .ok ts ∧ f.IsTold m ∧ Complaint ts m
  | evaluation f =>
    "EvaluationError" ∈ f.kind.classes ∧ ∃ kind m, f.report? = some (.arithmetic kind m) ∧ kind ≠ .general

/-- The first item of a text that is not fine is a run of too many digits. -/
def Overlong (text : String) : Prop :=
  ∃ before digits rest, Splits (Text.trim text.toList) (before ++ .run digits :: rest) ∧ (∀ i ∈ before, i.IsFine) ∧
    maxDigits < digits.length

def CalculatesOrReports (text : String) : Prop :=
  (∃ v, calculate text = .ok v) ∨ ∃ f, calculate text = .error f ∧ f.IsTold text

theorem Fault.IsTold.report_ne_none {text : String} {f : Fault} (h : f.IsTold text) : f.report? ≠ none := by
  cases f with
  | scan f =>
    obtain ⟨-, m, hm⟩ := h
    simp [report?, hm]
  | read f =>
    obtain ⟨ts, m, -, htold, -⟩ := h
    simp [report?, htold.report_eq]
  | evaluation f =>
    obtain ⟨-, kind, m, hm, -⟩ := h
    simp [report?, hm]

section

variable {text : String}

theorem calculate_scan_error {f : ScanFault} (h : scan text = .error f) : calculate text = .error (.scan f) := by
  unfold calculate
  rw [h]

theorem Overlong.calculate_eq (h : Overlong text) : ∃ n, calculate text = .error (.scan (.tooManyDigits n)) := by
  obtain ⟨before, digits, rest, hsplit, hfine, hlong⟩ := h
  exact ⟨_, calculate_scan_error (hsplit.scan_refused hfine (.tooManyDigits digits hlong))⟩

theorem readsOrReports_of_scan {ts : List Token} (h : scan text = .ok ts) : ReadsOrReports {} ts := by
  obtain ⟨body, rfl, hspells⟩ := scan_eq_ok_iff.mp h
  refine readsOrReports_of_forall fun f hf => ?_
  have harises := Cursor.arises_of_ofTokens hf
  refine ⟨?_, fun v hv => ?_⟩
  · rintro op rfl
    cases harises with
    | unranked _ hr => cases hr
  · have hmem : .number v ∈ body := by simpa using harises.shown_mem hv
    exact isWritable_of_range (hspells.hasSpelling hmem)

theorem calculate_cases (text : String) : CalculatesOrReports text ∨ Overlong text := by
  obtain ⟨items, hsplit⟩ := Splits.exists_split (Text.trim text.toList)
  rcases hsplit.scan_cases with ⟨ts, -, hscan⟩ | ⟨before, i, rest, f, rfl, hfine, hf, hscan⟩
  · rcases readsOrReports_of_scan hscan with ⟨t, hread⟩ | ⟨f, m, hread, htold⟩
    · have hof : Tree.ofText text = .ok t := by
        simp only [Tree.ofText, hscan, hread]
        rfl
      have hcalc : calculate text = t.evaluate.mapError .evaluation := by
        rw [calculate_eq, hof]
        rfl
      rcases (Tree.inRange_of_ofText hof).evaluate_cases with ⟨-, hvalue⟩ | ⟨f, -, hfault⟩
      · rw [hvalue] at hcalc
        exact .inl (.inl ⟨_, hcalc⟩)
      · rw [hfault] at hcalc
        have hclass : "EvaluationError" ∈ (EvaluationFault.arithmetic f).kind.classes := by
          cases f <;> simp [EvaluationFault.kind, ArithmeticFault.kind, ErrorKind.classes]
        exact .inl (.inr ⟨_, hcalc, hclass, f.kind, f.message, rfl, by cases f <;> simp [ArithmeticFault.kind]⟩)
    · refine .inl (.inr ⟨.read f, ?_, _, m, hscan, htold⟩)
      unfold calculate
      simp only [hscan, hread]
  · have hcalc := calculate_scan_error hscan
    cases hf with
    | unrecognized c hc => exact .inl (.inr ⟨_, hcalc, rfl, _, rfl⟩)
    | tooLarge digits hl hv => exact .inl (.inr ⟨_, hcalc, rfl, _, rfl⟩)
    | tooManyDigits digits hl => exact .inr ⟨before, digits, rest, hsplit, hfine, hl⟩

theorem CalculatesOrReports.report_ne_none {f : Fault} (h : CalculatesOrReports text) (hf : calculate text = .error f) :
    f.report? ≠ none := by
  rcases h with ⟨v, hv⟩ | ⟨f', hf', htold⟩
  · cases hf.symm.trans hv
  · obtain rfl : f = f' := Except.error.inj (hf.symm.trans hf')
    exact htold.report_ne_none

theorem exists_unreported_iff : (∃ f, calculate text = .error f ∧ f.report? = none) ↔ Overlong text := by
  refine ⟨fun ⟨f, hf, hnone⟩ => ?_, fun h => ?_⟩
  · exact (calculate_cases text).resolve_left fun htold => htold.report_ne_none hf hnone
  · obtain ⟨n, hn⟩ := h.calculate_eq
    exact ⟨_, hn, rfl⟩

theorem calculatesOrReports_iff_not_overlong : CalculatesOrReports text ↔ ¬Overlong text := by
  refine ⟨fun htold hlong => ?_, (calculate_cases text).resolve_right⟩
  obtain ⟨f, hf, hnone⟩ := exists_unreported_iff.mpr hlong
  exact htold.report_ne_none hf hnone

end

section

variable {digits : List Char} (hne : digits ≠ []) (hd : ∀ c ∈ digits, c.isDigit = true)

include hne hd

theorem calculate_long_digits (hl : maxDigits < digits.length) :
    calculate (String.ofList digits) = .error (.scan (.tooManyDigits digits.length)) := by
  have hsplit : Splits (Text.trim (String.ofList digits).toList) ([] ++ [.run digits]) := by
    rw [String.toList_ofList, Text.trim_digits hd]
    exact Splits.one_run hne hd
  exact calculate_scan_error (hsplit.scan_refused (by simp) (.tooManyDigits digits hl))

theorem calculate_digits (hl : digits.length ≤ maxDigits) (hv : Nat.ofDigitChars 10 digits 0 ≤ maxValue) :
    calculate (String.ofList digits) = .ok (Nat.ofDigitChars 10 digits 0) := by
  have hspells : Spells (String.ofList digits).toList (Phrase.number (Nat.ofDigitChars 10 digits 0)).tokens := by
    rw [String.toList_ofList]
    exact ⟨[.run digits], Splits.one_run hne hd, .cons (.number _ hl hv) .nil⟩
  rw [calculate_eq, hspells.ofText_eq_tree trivial (Nat.zero_le 200)]
  exact congrArg (Except.mapError Fault.evaluation) (Tree.evaluate_number _)

end

theorem Report.exists_text_eq_cons (r : Report) : ∃ c u, r.text.toList = c :: u ∧ 'U' ≠ c := by
  unfold text
  cases r with
  | misread stage m =>
    rw [String.toList_append, String.toList_append]
    cases stage with
    | tokenizer => exact ⟨'T', _, rfl, by decide⟩
    | parser => exact ⟨'P', _, rfl, by decide⟩
  | arithmetic kind m =>
    rw [String.toList_append]
    exact ⟨'A', _, rfl, by decide⟩

theorem Answer.unexpected_iff (result : Except Fault Int) :
    "Unexpected error:".toList <+: (Answer.ofValue .unlimited result).output.toList ↔
      ∃ f, result = .error f ∧ f.report? = none := by
  cases result with
  | ok v => simp [String.toList_append, List.cons_prefix_cons]
  | error f =>
    rw [ofValue_unlimited_error, Fault.line]
    cases hr : f.report? with
    | none => simp [String.toList_append, List.cons_prefix_cons, hr]
    | some r =>
      -- the text of a report begins with the name of a stage, or as an arithmetic error
      obtain ⟨c, u, htext, hc⟩ := r.exists_text_eq_cons
      refine iff_of_false (fun h => ?_) (by simp [hr])
      dsimp only at h
      rw [String.toList_append, htext] at h
      exact hc (List.cons_prefix_cons.mp h).1

/-- A calculation comes to a value or to a reported fault if and only if the first item of the text that is not fine is
no run of too many digits. The answer is an unexpected error, of a wrong value, exactly for the other texts. A run
whose value is too large is told with its digits, and digits with a value that fits are that value, zeros in front
included, if and only if they are not too many. -/
theorem calculatesOrReports_iff (device : Device) (text : String) :
    (CalculatesOrReports text ↔ ¬Overlong text) ∧
    (Overlong text → ∃ f, calculate text = .error f ∧ f.kind.name = "ValueError") ∧
    ("Unexpected error:".toList <+: (answer device {} text).output.toList ↔ Overlong text) ∧
    (∀ before digits rest, Splits (Text.trim text.toList) (before ++ .run digits :: rest) → (∀ i ∈ before, i.IsFine) →
      maxValue < Nat.ofDigitChars 10 digits 0 →
      (calculate text = .error (.scan (.tooLarge digits)) ↔ digits.length ≤ maxDigits)) ∧
    (∀ digits, (ScanFault.tooLarge digits).report? =
      some (.misread .tokenizer ("Number too large: " ++ String.ofList digits))) ∧
    ∀ digits : List Char, digits ≠ [] → (∀ c ∈ digits, c.isDigit = true) → Nat.ofDigitChars 10 digits 0 ≤ maxValue →
      (calculate (String.ofList digits) = .ok (Nat.ofDigitChars 10 digits 0) ↔ digits.length ≤ maxDigits) := by
  refine ⟨calculatesOrReports_iff_not_overlong, fun h => ⟨_, h.calculate_eq.choose_spec, rfl⟩, ?_,
    fun before digits rest hsplit hfine hbig => ⟨fun h => ?_, fun hl => ?_⟩, fun _ => rfl,
    fun digits hne hd hv => ⟨fun h => ?_, fun hl => calculate_digits hne hd hl hv⟩⟩
  · rw [answer, answer_plain, Answer.unexpected_iff, exists_unreported_iff]
  · by_contra hl
    obtain ⟨n, hn⟩ := Overlong.calculate_eq ⟨before, digits, rest, hsplit, hfine, Nat.lt_of_not_le hl⟩
    cases hn.symm.trans h
  · exact calculate_scan_error (hsplit.scan_refused hfine (.tooLarge digits hl hbig))
  · by_contra hl
    cases (calculate_long_digits hne hd (Nat.lt_of_not_le hl)).symm.trans h

theorem ofDigitChars_zeros (n : Nat) : Nat.ofDigitChars 10 (List.replicate n '0') 0 = 0 := by
  induction n with
  | zero => rfl
  | succ n ih => simp [List.replicate_succ, Nat.ofDigitChars_cons, ih]

theorem calculate_zeros :
    let zeros := List.replicate (maxDigits + 1) '0'
    let text := String.ofList zeros
    (∀ c ∈ zeros, c.isDigit = true) ∧ Nat.ofDigitChars 10 zeros 0 = 0 ∧
      calculate text = .error (.scan (.tooManyDigits 4301)) ∧ (ScanFault.tooManyDigits 4301).kind.name = "ValueError" ∧
      (ScanFault.tooManyDigits 4301).report? = none ∧ ¬CalculatesOrReports text := by
  intro zeros text
  have hd : ∀ c ∈ zeros, c.isDigit = true := by
    intro c hc
    obtain rfl := List.eq_of_mem_replicate hc
    rfl
  have hlength : zeros.length = 4301 := List.length_replicate
  have hl : maxDigits < zeros.length := Nat.lt_of_lt_of_eq (Nat.lt_succ_self 4300) hlength.symm
  have hne : zeros ≠ [] := List.ne_nil_of_length_pos (Nat.zero_lt_of_lt hl)
  have hcalc := calculate_long_digits hne hd hl
  rw [hlength] at hcalc
  exact ⟨hd, ofDigitChars_zeros _, hcalc, rfl, rfl, fun h => h.report_ne_none hcalc rfl⟩

end LetterArithmetic
