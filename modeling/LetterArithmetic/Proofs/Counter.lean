import LetterArithmetic.Proofs.Reading
import LetterArithmetic.Report

/-!
Reading checked in one pass. An automaton with two modes goes over the tokens and only counts the open groups. Main
statement: the reader accepts and refuses what the automaton does, with the same fault, at the same position and
with the same count.
-/

set_option autoImplicit false

namespace LetterArithmetic

inductive Mode where
  | operand | operator
  deriving DecidableEq, Repr

/-- Behind an operand, does the token ask for another one? An operator below rank zero does not. -/
def Token.joins (ranks : Ranks) : Token → Except ReadFault Bool
  | operator op =>
    match ranks op with
    | some k => .ok (decide (0 ≤ k))
    | none => .error (.unranked op)
  | _ => .ok false

namespace Cursor

/-- The automaton at a position with `n` groups open. -/
def countFrom (lim : Limits) : Mode → (pos n : Nat) → List Token → Except ReadFault Unit × Cursor
  | _, pos, n, [] => (.error .unexpectedEnd, ⟨pos, [], n⟩)
  | .operand, pos, n, t :: r =>
    match t with
    | .number _ => countFrom lim .operator (pos + 1) n r
    | .leftParen =>
      if lim.maxDepth < (n : Int) + 1 then (.error .tooDeep, ⟨pos + 1, r, n + 1⟩)
      else countFrom lim .operand (pos + 1) (n + 1) r
    | t => (.error (.unexpectedToken t), ⟨pos + 1, r, n⟩)
  | .operator, pos, n, t :: r =>
    match t.joins lim.ranks with
    | .error e => (.error e, ⟨pos, t :: r, n⟩)
    | .ok true => countFrom lim .operand (pos + 1) n r
    | .ok false =>
      if 0 < n then
        if t = .rightParen then countFrom lim .operator (pos + 1) (n - 1) r
        else (.error (.expected .rightParen t), ⟨pos + 1, r, n⟩)
      else if t = .stop then (.ok (), ⟨pos + 1, r, n⟩)
      else (.error (.expected .stop t), ⟨pos + 1, r, n⟩)

def count (lim : Limits) (mode : Mode) (c : Cursor) : Except ReadFault Unit × Cursor :=
  countFrom lim mode c.pos c.depth c.rest

def verdict : Outcome → Except ReadFault Unit × Cursor
  | (.error e, c) => (.error e, c)
  | (.ok _, c) => (.ok (), c)

def countOn (lim : Limits) : Outcome → Except ReadFault Unit × Cursor
  | (.error e, c) => (.error e, c)
  | (.ok _, c) => c.count lim .operator

def Stage.mode : Stage → Mode
  | primary _ | expression .. => .operand
  | operators .. => .operator

def Stage.least : Stage → Int
  | primary _ => 0
  | expression min _ | operators min _ _ => min

def Stage.EndsAt (ranks : Ranks) (c : Cursor) : Stage → Prop
  | primary _ => True
  | expression min _ | operators min _ _ => c.StopsAt ranks min

variable {lim : Limits} {s : Stage} {out : Outcome} {n : Nat}

theorem Reading.endsAt (h : Reading lim s out n) {t : Tree} {c : Cursor} (hok : out = (.ok t, c)) :
    s.EndsAt lim.ranks c := by
  induction h generalizing t c with
  | number | group => trivial
  | expression first more ih₁ ih₂ => exact ih₂ hok
  | stop hs => cases hok; exact hs
  | operand hr hm operand more ih₁ ih₂ => exact ih₂ hok
  | _ => cases hok

theorem joins_of_stopsAt {ranks : Ranks} {pos depth : Nat} {t : Token} {r : List Token}
    (h : StopsAt ranks 0 ⟨pos, t :: r, depth⟩) : t.joins ranks = .ok false := by
  cases t with
  | operator op =>
    obtain ⟨k, hk, hlt⟩ := h op r rfl
    simp [Token.joins, Option.mem_def.mp hk, hlt]
  | _ => rfl

section

variable {pos depth : Nat} {r : List Token}

theorem count_number {v : Int} :
    count lim .operand ⟨pos, .number v :: r, depth⟩ = count lim .operator ⟨pos + 1, r, depth⟩ := rfl

theorem count_tooDeep (hd : lim.maxDepth < (depth : Int) + 1) :
    count lim .operand ⟨pos, .leftParen :: r, depth⟩ = (.error .tooDeep, ⟨pos + 1, r, depth + 1⟩) := by
  simp only [count, countFrom]
  rw [if_pos hd]

theorem count_leftParen (hd : (depth : Int) + 1 ≤ lim.maxDepth) :
    count lim .operand ⟨pos, .leftParen :: r, depth⟩ = count lim .operand ⟨pos + 1, r, depth + 1⟩ := by
  simp only [count, countFrom]
  rw [if_neg (by omega)]

theorem count_rightParen :
    count lim .operator ⟨pos, .rightParen :: r, depth + 1⟩ = count lim .operator ⟨pos + 1, r, depth⟩ := by
  simp [count, countFrom, Token.joins]

theorem count_operator {op : Operator} {k : Int} (hr : lim.ranks op = some k) (hk : 0 ≤ k) :
    count lim .operator ⟨pos, .operator op :: r, depth⟩ = count lim .operand ⟨pos + 1, r, depth⟩ := by
  simp [count, countFrom, Token.joins, hr, hk]

theorem count_closeGroup {t : Tree} (hs : StopsAt lim.ranks 0 ⟨pos, r, depth + 1⟩) :
    count lim .operator ⟨pos, r, depth + 1⟩ = countOn lim (closeGroup (.ok t, ⟨pos, r, depth + 1⟩)) := by
  cases r with
  | nil => rfl
  | cons u r =>
    by_cases hu : u = .rightParen
    · subst hu
      simp [count_rightParen, countOn, closeGroup]
    · simp [count, countFrom, countOn, closeGroup, joins_of_stopsAt hs, hu]

theorem count_finish {t : Tree} (hs : StopsAt lim.ranks 0 ⟨pos, r, 0⟩) :
    count lim .operator ⟨pos, r, 0⟩ = verdict (finish (.ok t, ⟨pos, r, 0⟩)) := by
  cases r with
  | nil => rfl
  | cons u r =>
    by_cases hu : u = .stop
    · subst hu
      simp [count, countFrom, verdict, finish, joins_of_stopsAt hs]
    · simp [count, countFrom, verdict, finish, joins_of_stopsAt hs, hu]

end

/-- The automaton goes over what is read as the reader does: to the same fault, or to the end of what is read. -/
theorem Reading.count_eq (h : Reading lim s out n) (hs : 0 ≤ s.least) :
    s.cursor.count lim s.mode = countOn lim out := by
  induction h with
  | exhausted => rfl
  | number => exact count_number
  | @unexpected pos depth t r hn hp => cases t <;> simp_all [count, countFrom, countOn, Stage.cursor, Stage.mode]
  | tooDeep hd => exact count_tooDeep hd
  | @group pos depth n r out hd inner ih =>
    have hgo := (count_leftParen hd).trans (ih (Int.le_refl 0))
    obtain ⟨e | t, pos', r', depth'⟩ := out
    · exact hgo
    · obtain rfl : depth' = depth + 1 := (inner.frame rfl).2
      have hstop : StopsAt lim.ranks 0 ⟨pos', r', depth + 1⟩ := inner.endsAt rfl
      exact hgo.trans (count_closeGroup hstop)
  | fault first ih => exact ih (Int.le_refl 0)
  | expression first more ih₁ ih₂ => exact (ih₁ (Int.le_refl 0)).trans (ih₂ hs)
  | stop => rfl
  | unranked hr => simp [count, countFrom, countOn, Stage.cursor, Stage.mode, Token.joins, hr]
  -- an operator that is taken has a rank from zero on, since no least rank is below zero
  | @operandFault min k left pos depth n op r e c hr hm operand ih =>
    have hk : 0 ≤ k := Int.le_trans hs hm
    have hk' : 0 ≤ k + 1 := by omega
    exact (count_operator hr hk).trans (ih hk')
  | @operand min k left right pos depth n m op r c out hr hm operand more ih₁ ih₂ =>
    have hk : 0 ≤ k := Int.le_trans hs hm
    have hk' : 0 ≤ k + 1 := by omega
    exact ((count_operator hr hk).trans (ih₁ hk')).trans (ih₂ hs)

theorem Reading.verdict_eq {ts : List Token} (h : Reading lim (.expression 0 (ofTokens ts)) out n) :
    verdict (finish out) = (ofTokens ts).count lim .operand := by
  have hc := h.count_eq (Int.le_refl 0)
  obtain ⟨e | t, pos, r, depth⟩ := out
  · exact hc.symm
  · obtain rfl : depth = 0 := (h.frame rfl).2
    have hstop : StopsAt lim.ranks 0 ⟨pos, r, 0⟩ := h.endsAt rfl
    exact (hc.trans (count_finish hstop)).symm

end Cursor

inductive Token.ShownAs : Token → String → Prop where
  | number {v : Int} (hv : Text.isWritable v = true) : ShownAs (.number v) ("Number(" ++ v.repr ++ ")")
  | plus : ShownAs (.operator .add) "Plus"
  | minus : ShownAs (.operator .subtract) "Minus"
  | star : ShownAs (.operator .multiply) "Star"
  | slash : ShownAs (.operator .divide) "Slash"
  | leftParen : ShownAs .leftParen "LeftParen"
  | rightParen : ShownAs .rightParen "RightParen"
  | stop : ShownAs .stop "End"

theorem Token.ShownAs.text_eq {t : Token} {s : String} (h : t.ShownAs s) : t.text = .ok s := by
  cases h with
  | number hv =>
    rw [text, Text.writeInteger, if_pos hv]
    rfl
  | _ => rfl

theorem Token.shownAs_or_long (t : Token) :
    (∃ s, t.ShownAs s) ∨ ∃ v, t = .number v ∧ Text.isWritable v = false ∧ t.text = .error {} := by
  cases t with
  | number v =>
    cases hv : Text.isWritable v with
    | true => exact .inl ⟨_, .number hv⟩
    | false =>
      refine .inr ⟨v, rfl, hv, ?_⟩
      rw [text, Text.writeInteger, if_neg (Bool.not_eq_true _ ▸ hv)]
      rfl
  | operator op =>
    cases op with
    | add => exact .inl ⟨_, .plus⟩
    | subtract => exact .inl ⟨_, .minus⟩
    | multiply => exact .inl ⟨_, .star⟩
    | divide => exact .inl ⟨_, .slash⟩
  | leftParen => exact .inl ⟨_, .leftParen⟩
  | rightParen => exact .inl ⟨_, .rightParen⟩
  | stop => exact .inl ⟨_, .stop⟩

namespace ReadFault

inductive Raises : ReadFault → String → String → Prop where
  | unexpectedToken {t : Token} {s : String} (ht : t.ShownAs s) :
      Raises (.unexpectedToken t) "ExpressionSyntaxError" ("Unexpected token found " ++ s)
  | unexpectedEnd : Raises .unexpectedEnd "ExpressionSyntaxError" "Unexpected end of input"
  | expectedClosing {t : Token} {s : String} (ht : t.ShownAs s) :
      Raises (.expected .rightParen t) "ExpressionSyntaxError" ("Expected RightParen got " ++ s)
  | expectedEnd {t : Token} {s : String} (ht : t.ShownAs s) :
      Raises (.expected .stop t) "ExpressionSyntaxError" ("Expected End got " ++ s)
  | tooDeep : Raises .tooDeep "ExpressionSyntaxError" "Expression nested too deeply"
  | long {f : ReadFault} {v : Int} (hf : f.shown? = some (.number v)) (hv : Text.isWritable v = false) :
      Raises f "ValueError" ("Exceeds the limit (4300 digits) for integer string conversion; " ++
        "use sys.set_int_max_str_digits() to increase the limit")
  | addition : Raises (.unranked .add) "KeyError" "<Operator.ADD: '+'>"
  | subtraction : Raises (.unranked .subtract) "KeyError" "<Operator.SUBTRACT: '-'>"
  | multiplication : Raises (.unranked .multiply) "KeyError" "<Operator.MULTIPLY: '*'>"
  | division : Raises (.unranked .divide) "KeyError" "<Operator.DIVIDE: '/'>"

inductive Arises (ranks : Ranks) (ts : List Token) : ReadFault → Prop where
  | unexpectedToken {t : Token} (ht : t ∈ ts) : Arises ranks ts (.unexpectedToken t)
  | unexpectedEnd : Arises ranks ts .unexpectedEnd
  | expected {kind : TokenKind} {t : Token} (hk : kind = .rightParen ∨ kind = .stop) (ht : t ∈ ts) :
      Arises ranks ts (.expected kind t)
  | tooDeep : Arises ranks ts .tooDeep
  | unranked {op : Operator} (hop : .operator op ∈ ts) (hr : ranks op = none) : Arises ranks ts (.unranked op)

variable {f : ReadFault} {ranks : Ranks} {ts : List Token}

theorem Arises.cons (h : f.Arises ranks ts) (t : Token) : f.Arises ranks (t :: ts) := by
  cases h with
  | unexpectedToken ht => exact .unexpectedToken (List.mem_cons_of_mem t ht)
  | unexpectedEnd => exact .unexpectedEnd
  | expected hk ht => exact .expected hk (List.mem_cons_of_mem t ht)
  | tooDeep => exact .tooDeep
  | unranked hop hr => exact .unranked (List.mem_cons_of_mem t hop) hr

structure IsRaised (f : ReadFault) (name message : String) : Prop where
  raises : f.Raises name message
  kind_eq : f.kind.name = name
  message_eq : f.message = message
  report_eq : name = "ExpressionSyntaxError" → f.report? = some (.misread .parser message)

theorem isRaised_of_written {m : String} (hr : f.Raises "ExpressionSyntaxError" m) (hw : f.written = .ok m)
    (hk : f.kind = .misread) : f.IsRaised "ExpressionSyntaxError" m := by
  have hm : f.message = m := by rw [message, hw]; rfl
  exact ⟨hr, by rw [hk]; rfl, hm, fun _ => by rw [report?, if_pos hk, hm]⟩

theorem isRaised_long {v : Int} (hf : f.shown? = some (.number v)) (hv : Text.isWritable v = false)
    (hw : f.written = .error {}) (hk : f.kind = .value) : ∃ name m, f.IsRaised name m :=
  ⟨_, _, .long hf hv, by rw [hk]; rfl, by rw [message, hw]; decide +kernel, nofun⟩

theorem Arises.exists_isRaised (h : f.Arises ranks ts) : ∃ name m, f.IsRaised name m := by
  cases h with
  | @unexpectedToken t ht =>
    rcases t.shownAs_or_long with ⟨s, hs⟩ | ⟨v, rfl, hv, htext⟩
    · have hw : (ReadFault.unexpectedToken t).written = .ok ("Unexpected token found " ++ s) := by
        rw [written, hs.text_eq]; rfl
      exact ⟨_, _, isRaised_of_written (.unexpectedToken hs) hw (by simp [kind, hw])⟩
    · have hw : (ReadFault.unexpectedToken (.number v)).written = .error {} := by rw [written, htext]; rfl
      exact isRaised_long rfl hv hw (by simp [kind, hw])
  | unexpectedEnd => exact ⟨_, _, isRaised_of_written .unexpectedEnd rfl rfl⟩
  | @expected kind' t hk ht =>
    rcases t.shownAs_or_long with ⟨s, hs⟩ | ⟨v, rfl, hv, htext⟩
    · have hw : (ReadFault.expected kind' t).written = .ok ("Expected " ++ kind'.name ++ " got " ++ s) := by
        rw [written, hs.text_eq]; rfl
      obtain rfl | rfl := hk
      · exact ⟨_, _, isRaised_of_written (.expectedClosing hs) hw (by simp [kind, hw])⟩
      · exact ⟨_, _, isRaised_of_written (.expectedEnd hs) hw (by simp [kind, hw])⟩
    · have hw : (ReadFault.expected kind' (.number v)).written = .error {} := by rw [written, htext]; rfl
      exact isRaised_long rfl hv hw (by simp [kind, hw])
  | tooDeep => exact ⟨_, _, isRaised_of_written .tooDeep rfl rfl⟩
  | @unranked op hop hr =>
    cases op with
    | add => exact ⟨_, _, .addition, rfl, by decide +kernel, nofun⟩
    | subtract => exact ⟨_, _, .subtraction, rfl, by decide +kernel, nofun⟩
    | multiply => exact ⟨_, _, .multiplication, rfl, by decide +kernel, nofun⟩
    | divide => exact ⟨_, _, .division, rfl, by decide +kernel, nofun⟩

end ReadFault

namespace Cursor

variable {lim : Limits} {ts : List Token}

theorem arises_of_countFrom {mode : Mode} {pos n : Nat} {f : ReadFault} {c : Cursor}
    (h : countFrom lim mode pos n ts = (.error f, c)) : f.Arises lim.ranks ts := by
  -- on the tokens that remain: a fault of those behind the first token is a fault of all
  fun_induction countFrom lim mode pos n ts with
  | case1 =>
    cases h
    exact .unexpectedEnd
  | case2 pos n r v ih => exact (ih h).cons _
  | case3 pos n r hd =>
    cases h
    exact .tooDeep
  | case4 pos n r hd ih => exact (ih h).cons _
  | case5 pos n t r hn hp =>
    cases h
    exact .unexpectedToken (by simp)
  | case6 pos n t r e hj =>
    cases h
    cases t with
    | operator op =>
      cases hr : lim.ranks op with
      | none =>
        simp only [Token.joins, hr, Except.error.injEq] at hj
        subst hj
        exact .unranked (by simp) hr
      | some k => simp [Token.joins, hr] at hj
    | _ => cases hj
  | case7 pos n t r hj ih => exact (ih h).cons _
  | case8 pos n r hd hj ih => exact (ih h).cons _
  | case9 pos n t r hd hj ht =>
    cases h
    exact .expected (.inl rfl) (by simp)
  | case10 => cases h
  | case11 pos n t r hd hj ht =>
    cases h
    exact .expected (.inr rfl) (by simp)

theorem WithinCalls.verdict_eq (h : (ofTokens ts).WithinCalls lim) :
    verdict ((ofTokens ts).whole lim) = (ofTokens ts).count lim .operand := by
  obtain ⟨n, hr⟩ := h.reading
  rw [h.whole_eq]
  exact hr.verdict_eq

/-- The reader and the automaton agree on whether the tokens are a whole, on the fault if they are none, and on the
position and the open groups that they end with. The fault is raised as an error of one of three classes, with its
message: of the reader's stage, or that an operator has no rank, or that a number is too long to be shown. -/
theorem whole_agrees_with_count (lim : Limits) (ts : List Token) (h : (ofTokens ts).WithinCalls lim) :
    verdict ((ofTokens ts).whole lim) = (ofTokens ts).count lim .operand ∧
    ∀ f c, (ofTokens ts).count lim .operand = (.error f, c) →
      ∃ name message, f.Raises name message ∧ f.kind.name = name ∧ f.message = message ∧
        (name = "ExpressionSyntaxError" → f.report? = some (.misread .parser message)) := by
  refine ⟨h.verdict_eq, fun f c hf => ?_⟩
  obtain ⟨name, message, hr⟩ := (arises_of_countFrom hf).exists_isRaised
  exact ⟨name, message, hr.raises, hr.kind_eq, hr.message_eq, hr.report_eq⟩

theorem whole_agrees_with_count_low_operator :
    let lim : Limits := { ranks := fun op => if op = .add then some (-1) else some 2, maxDepth := 3 }
    let ts : List Token := [.leftParen, .number 1, .operator .multiply, .leftParen, .number 2, .operator .add, .stop]
    (ofTokens ts).WithinCalls lim ∧
      verdict ((ofTokens ts).whole lim) = (.error (.expected .rightParen (.operator .add)), ⟨6, [.stop], 2⟩) ∧
      (ReadFault.expected .rightParen (.operator .add)).report? =
        some (.misread .parser "Expected RightParen got Plus") := by
  intro lim ts
  have h : (ofTokens ts).WithinCalls lim := by
    rintro f ⟨⟩
    rfl
  obtain ⟨hverdict, hfaults⟩ := whole_agrees_with_count lim ts h
  have hcount : (ofTokens ts).count lim .operand =
      (.error (.expected .rightParen (.operator .add)), ⟨6, [.stop], 2⟩) := rfl
  obtain ⟨name, message, hraises, -, -, hreport⟩ := hfaults _ _ hcount
  refine ⟨h, hverdict.trans hcount, ?_⟩
  cases hraises with
  | expectedClosing hs =>
    cases hs
    exact hreport rfl
  | long hf => cases hf

end Cursor

end LetterArithmetic
