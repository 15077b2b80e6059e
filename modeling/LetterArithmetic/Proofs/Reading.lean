import LetterArithmetic.Reader

/-!
Reading without a cap on calls, as a relation. A reading starts at a stage, has an outcome, and opens some number of
primaries and expressions at one time. Main statements: every stage has a reading, and the reader with a cap agrees
with it where the cap leaves room for six calls more than are opened, agrees up to a message that is cut short where
it allows the calls that are opened, and fails for too many calls where it does not.
-/

set_option autoImplicit false

namespace LetterArithmetic.Cursor

abbrev Outcome := Except ReadFault Tree × Cursor

/-- What is to be read: a primary, an expression, or what follows the tree that an expression has come to so far. -/
inductive Stage where
  | primary (c : Cursor)
  | expression (min : Int) (c : Cursor)
  | operators (min : Int) (left : Tree) (c : Cursor)

def Stage.cursor : Stage → Cursor
  | primary c | expression _ c | operators _ _ c => c

def StopsAt (ranks : Ranks) (min : Int) (c : Cursor) : Prop :=
  ∀ op r, c.rest = .operator op :: r → ∃ k ∈ ranks op, k < min

def closeGroup : Outcome → Outcome
  | (.error e, c) => (.error e, c)
  | (.ok t, c) =>
    match c.takeKind .rightParen with
    | (.error e, c) => (.error e, c)
    | (.ok _, c) => (.ok t, { c with depth := c.depth - 1 })

def closeGroupIn (calls : Nat) : Outcome → Outcome
  | (.error e, c) => (.error e, c)
  | (.ok t, c) =>
    match c.takeKind .rightParen with
    | (.error e, c) => (.error (e.within calls), c)
    | (.ok _, c) => (.ok t, { c with depth := c.depth - 1 })

def finish : Outcome → Outcome
  | (.error e, c) => (.error e, c)
  | (.ok t, c) =>
    match c.takeKind .stop with
    | (.error e, c) => (.error e, c)
    | (.ok _, c) => (.ok t, c)

/-- `Reading lim s out n`: reading from `s`, with no cap on calls, comes to `out`, and the most primaries and
expressions that are open at one time are `n`. -/
inductive Reading (lim : Limits) : Stage → Outcome → Nat → Prop where
  | exhausted {pos depth : Nat} :
      Reading lim (.primary ⟨pos, [], depth⟩) (.error .unexpectedEnd, ⟨pos, [], depth⟩) 1
  | number {pos depth : Nat} {v : Int} {r : List Token} :
      Reading lim (.primary ⟨pos, .number v :: r, depth⟩) (.ok (.number v), ⟨pos + 1, r, depth⟩) 1
  | unexpected {pos depth : Nat} {t : Token} {r : List Token} (hn : ∀ v, t ≠ .number v) (hp : t ≠ .leftParen) :
      Reading lim (.primary ⟨pos, t :: r, depth⟩) (.error (.unexpectedToken t), ⟨pos + 1, r, depth⟩) 1
  | tooDeep {pos depth : Nat} {r : List Token} (hd : lim.maxDepth < (depth : Int) + 1) :
      Reading lim (.primary ⟨pos, .leftParen :: r, depth⟩) (.error .tooDeep, ⟨pos + 1, r, depth + 1⟩) 1
  | group {pos depth n : Nat} {r : List Token} {out : Outcome} (hd : (depth : Int) + 1 ≤ lim.maxDepth)
      (inner : Reading lim (.expression 0 ⟨pos + 1, r, depth + 1⟩) out n) :
      Reading lim (.primary ⟨pos, .leftParen :: r, depth⟩) (closeGroup out) (n + 1)
  | fault {min : Int} {c c' : Cursor} {e : ReadFault} {n : Nat}
      (first : Reading lim (.primary c) (.error e, c') n) :
      Reading lim (.expression min c) (.error e, c') (n + 1)
  | expression {min : Int} {c c' : Cursor} {left : Tree} {out : Outcome} {n m : Nat}
      (first : Reading lim (.primary c) (.ok left, c') n)
      (more : Reading lim (.operators min left c') out m) :
      Reading lim (.expression min c) out (max n m + 1)
  | stop {min : Int} {left : Tree} {c : Cursor} (hs : c.StopsAt lim.ranks min) :
      Reading lim (.operators min left c) (.ok left, c) 0
  | unranked {min : Int} {left : Tree} {pos depth : Nat} {op : Operator} {r : List Token}
      (hr : lim.ranks op = none) :
      Reading lim (.operators min left ⟨pos, .operator op :: r, depth⟩)
        (.error (.unranked op), ⟨pos, .operator op :: r, depth⟩) 0
  | operandFault {min k : Int} {left : Tree} {pos depth n : Nat} {op : Operator} {r : List Token} {e : ReadFault}
      {c : Cursor} (hr : lim.ranks op = some k) (hm : min ≤ k)
      (operand : Reading lim (.expression (k + 1) ⟨pos + 1, r, depth⟩) (.error e, c) n) :
      Reading lim (.operators min left ⟨pos, .operator op :: r, depth⟩) (.error e, c) n
  | operand {min k : Int} {left right : Tree} {pos depth n m : Nat} {op : Operator} {r : List Token} {c : Cursor}
      {out : Outcome} (hr : lim.ranks op = some k) (hm : min ≤ k)
      (operand : Reading lim (.expression (k + 1) ⟨pos + 1, r, depth⟩) (.ok right, c) n)
      (more : Reading lim (.operators min (.binary (.known op) left right) c) out m) :
      Reading lim (.operators min left ⟨pos, .operator op :: r, depth⟩) out (max n m)

variable {lim : Limits} {s : Stage} {out : Outcome} {n : Nat}

@[simp] theorem takeKind_nil (kind : TokenKind) (pos depth : Nat) :
    takeKind kind ⟨pos, [], depth⟩ = (.error .unexpectedEnd, ⟨pos, [], depth⟩) := rfl

@[simp] theorem takeKind_cons (kind : TokenKind) (pos depth : Nat) (t : Token) (r : List Token) :
    takeKind kind ⟨pos, t :: r, depth⟩ =
      (if t.kind = kind then .ok t else .error (.expected kind t), ⟨pos + 1, r, depth⟩) := rfl

@[simp] theorem kind_eq_rightParen {t : Token} : t.kind = .rightParen ↔ t = .rightParen := by
  cases t with
  | operator op => cases op <;> simp [Token.kind, Operator.tokenKind]
  | _ => simp [Token.kind]

@[simp] theorem kind_eq_stop {t : Token} : t.kind = .stop ↔ t = .stop := by
  cases t with
  | operator op => cases op <;> simp [Token.kind, Operator.tokenKind]
  | _ => simp [Token.kind]

theorem closeGroup_eq_ok {t : Tree} {c' : Cursor} (h : closeGroup out = (.ok t, c')) :
    ∃ pos r depth, out = (.ok t, ⟨pos, .rightParen :: r, depth⟩) ∧ c' = ⟨pos + 1, r, depth - 1⟩ := by
  obtain ⟨e | u, pos, rest, depth⟩ := out
  · simp [closeGroup] at h
  · cases rest with
    | nil => simp [closeGroup] at h
    | cons v r =>
      by_cases hv : v = .rightParen
      · subst hv
        simp only [closeGroup, takeKind_cons, Token.kind, if_true, Prod.mk.injEq, Except.ok.injEq] at h
        obtain ⟨rfl, rfl⟩ := h
        exact ⟨pos, r, depth, rfl, rfl⟩
      · simp [closeGroup, hv] at h

theorem finish_eq_ok {t : Tree} {c' : Cursor} (h : finish out = (.ok t, c')) :
    ∃ pos r depth, out = (.ok t, ⟨pos, .stop :: r, depth⟩) ∧ c' = ⟨pos + 1, r, depth⟩ := by
  obtain ⟨e | u, pos, rest, depth⟩ := out
  · simp [finish] at h
  · cases rest with
    | nil => simp [finish] at h
    | cons v r =>
      by_cases hv : v = .stop
      · subst hv
        simp only [finish, takeKind_cons, Token.kind, if_true, Prod.mk.injEq, Except.ok.injEq] at h
        obtain ⟨rfl, rfl⟩ := h
        exact ⟨pos, r, depth, rfl, rfl⟩
      · simp [finish, hv] at h

namespace Reading

theorem frame (h : Reading lim s out n) {t : Tree} {c : Cursor} (hok : out = (.ok t, c)) :
    c.rest.length ≤ s.cursor.rest.length ∧ c.depth = s.cursor.depth := by
  induction h generalizing t c with
  | exhausted => cases hok
  | number => cases hok; simp [Stage.cursor]
  | unexpected => cases hok
  | tooDeep => cases hok
  | group hd inner ih =>
    obtain ⟨pos, r, depth, rfl, rfl⟩ := closeGroup_eq_ok hok
    have := ih rfl
    simp only [Stage.cursor, List.length_cons] at *
    omega
  | fault => cases hok
  | expression first more ih₁ ih₂ =>
    obtain ⟨hl₁, hd₁⟩ := ih₁ rfl
    obtain ⟨hl₂, hd₂⟩ := ih₂ hok
    exact ⟨Nat.le_trans hl₂ hl₁, hd₂.trans hd₁⟩
  | stop => cases hok; exact ⟨Nat.le_refl _, rfl⟩
  | unranked => cases hok
  | operandFault => cases hok
  | operand hr hm operand more ih₁ ih₂ =>
    have h₁ := ih₁ rfl
    have h₂ := ih₂ hok
    simp only [Stage.cursor, List.length_cons] at *
    omega

theorem not_isExhaustion (h : Reading lim s out n) {f : ReadFault} (hf : out.1 = .error f) :
    f.isExhaustion = false := by
  induction h generalizing f with
  | @group pos depth n r out hd inner ih =>
    obtain ⟨e | t, pos, rest, depth⟩ := out
    · exact ih hf
    · cases rest with
      | nil =>
        cases hf
        rfl
      | cons v r =>
        by_cases hv : v = .rightParen
        · simp [closeGroup, hv] at hf
        · simp only [closeGroup, takeKind_cons, kind_eq_rightParen, hv, if_false] at hf
          cases hf
          rfl
  | fault first ih => exact ih hf
  | expression first more ih₁ ih₂ => exact ih₂ hf
  | operandFault hr hm operand ih => exact ih hf
  | operand hr hm operand more ih₁ ih₂ => exact ih₂ hf
  | _ =>
    cases hf
    try rfl

end Reading

/-- The reader that may have `calls` primaries and expressions open at one time comes to what satisfies `P`, however
large the budget of its loop is. -/
def Stage.Gives (lim : Limits) (calls : Nat) (P : Outcome → Prop) : Stage → Prop
  | primary c => P (c.primary lim calls)
  | expression min c => P (c.expression lim calls min)
  | operators min left c =>
    ∀ budget : List Token, c.rest.length ≤ budget.length →
      P (climb lim.ranks (Cursor.expression lim calls) min budget left c)

theorem Stage.Gives.imp {calls : Nat} {P Q : Outcome → Prop} (h : s.Gives lim calls P) (himp : ∀ o, P o → Q o) :
    s.Gives lim calls Q := by
  cases s with
  | primary c => exact himp _ h
  | expression min c => exact himp _ h
  | operators min left c => exact fun budget hb => himp _ (h budget hb)

theorem primary_tooDeep {calls pos depth : Nat} {r : List Token} (hd : lim.maxDepth < (depth : Int) + 1) :
    primary lim (calls + 1) ⟨pos, .leftParen :: r, depth⟩ =
      (.error (ReadFault.tooDeep.within calls), ⟨pos + 1, r, depth + 1⟩) := by
  simp only [primary, take, Int.natCast_add, Int.cast_ofNat_Int]
  rw [if_pos hd]

theorem primary_group {calls pos depth : Nat} {r : List Token} (hd : (depth : Int) + 1 ≤ lim.maxDepth) :
    primary lim (calls + 1) ⟨pos, .leftParen :: r, depth⟩ =
      closeGroupIn calls (expression lim calls 0 ⟨pos + 1, r, depth + 1⟩) := by
  simp only [primary, take, Int.natCast_add, Int.cast_ofNat_Int]
  rw [if_neg (by omega)]
  obtain ⟨e | t, c⟩ := expression lim calls 0 ⟨pos + 1, r, depth + 1⟩
  · rfl
  · rfl

theorem expression_fault {calls : Nat} {min : Int} {c c' : Cursor} {e : ReadFault}
    (h : primary lim calls c = (.error e, c')) : expression lim (calls + 1) min c = (.error e, c') := by
  simp only [expression, h]

theorem expression_operators {calls : Nat} {min : Int} {c c' : Cursor} {left : Tree}
    (h : primary lim calls c = (.ok left, c')) :
    expression lim (calls + 1) min c = climb lim.ranks (expression lim calls) min c'.rest left c' := by
  simp only [expression, h]

section

variable {ranks : Ranks} {operand : Int → Cursor → Outcome} {min k : Int} {left : Tree} {b : Token}
  {budget r : List Token} {op : Operator} {pos depth : Nat} {c : Cursor}

theorem climb_stop (hs : c.StopsAt ranks min) : climb ranks operand min budget left c = (.ok left, c) := by
  cases budget with
  | nil => rfl
  | cons b budget =>
    simp only [climb]
    split
    · rename_i r op heq
      obtain ⟨k, hk, hlt⟩ := hs r op heq
      rw [Option.mem_def.mp hk]
      simp [hlt]
    · rfl

theorem climb_unranked (hr : ranks op = none) :
    climb ranks operand min (b :: budget) left ⟨pos, .operator op :: r, depth⟩ =
      (.error (.unranked op), ⟨pos, .operator op :: r, depth⟩) := by
  simp only [climb, hr]

theorem climb_fault {e : ReadFault} (hr : ranks op = some k) (hm : min ≤ k)
    (h : operand (k + 1) ⟨pos + 1, r, depth⟩ = (.error e, c)) :
    climb ranks operand min (b :: budget) left ⟨pos, .operator op :: r, depth⟩ = (.error e, c) := by
  simp only [climb, hr, h]
  rw [if_neg (by omega)]

theorem climb_operand {right : Tree} (hr : ranks op = some k) (hm : min ≤ k)
    (h : operand (k + 1) ⟨pos + 1, r, depth⟩ = (.ok right, c)) :
    climb ranks operand min (b :: budget) left ⟨pos, .operator op :: r, depth⟩ =
      climb ranks operand min budget (.binary (.known op) left right) c := by
  simp only [climb, hr, h]
  rw [if_neg (by omega)]

end

def CutShort (out o : Outcome) : Prop := ∃ f c, out = (.error f, c) ∧ o = (.error (.cutShort f.shown?), c)

/-- What comes of `out` under a cap on calls, of which `n` are opened: `out` itself, or less if fewer than six of the
calls are left. -/
def Allows (calls n : Nat) (out o : Outcome) : Prop := o = out ∨ calls < n + 6 ∧ CutShort out o

namespace Allows

variable {calls m : Nat} {o : Outcome} {c : Cursor}

theorem mono (h : Allows calls n out o) (hm : n ≤ m) : Allows calls m out o := by
  rcases h with h | ⟨hroom, hcut⟩
  · exact .inl h
  · exact .inr ⟨by omega, hcut⟩

theorem eq_of_ok {t : Tree} (h : Allows calls n (.ok t, c) o) : o = (.ok t, c) := by
  rcases h with h | ⟨-, f, c', hf, -⟩
  · exact h
  · cases hf

theorem eq_of_le (h : Allows calls n out o) (hroom : n + 6 ≤ calls) : o = out := by
  rcases h with h | ⟨hless, -⟩
  · exact h
  · omega

theorem within (f : ReadFault) (calls n : Nat) (c : Cursor) :
    Allows (calls + 1) (n + 1) (.error f, c) (.error (f.within calls), c) := by
  by_cases hroom : f.room ≤ calls
  · exact .inl (by rw [ReadFault.within, if_pos hroom])
  · have := f.room_le
    exact .inr ⟨by omega, f, c, rfl, by rw [ReadFault.within, if_neg hroom]⟩

theorem fault {f : ReadFault} {o' : Outcome} (h : Allows calls n (.error f, c) o)
    (hand : ∀ e c', o = (.error e, c') → o' = (.error e, c')) : Allows (calls + 1) (n + 1) (.error f, c) o' := by
  rcases h with h | ⟨hless, f', c', hf, ho⟩
  · exact .inl (hand f c h)
  · exact .inr ⟨by omega, f', c', hf, hand _ c' ho⟩

theorem closeGroupIn (h : Allows calls n out o) :
    Allows (calls + 1) (n + 1) (closeGroup out) (closeGroupIn calls o) := by
  obtain ⟨e | t, c⟩ := out
  · exact h.fault fun e c' ho => by rw [ho]; rfl
  · rw [h.eq_of_ok]
    simp only [Cursor.closeGroup, Cursor.closeGroupIn]
    split
    · exact within _ _ _ _
    · exact .inl rfl

end Allows

namespace Reading

theorem gives (h : Reading lim s out n) {calls : Nat} (hn : n ≤ calls) : s.Gives lim calls (Allows calls n out) := by
  induction h generalizing calls with
  | exhausted =>
    obtain _ | calls := calls
    · omega
    · exact .within _ _ _ _
  | number =>
    obtain _ | calls := calls
    · omega
    · exact .inl rfl
  | @unexpected pos depth t r hv hp =>
    obtain _ | calls := calls
    · omega
    · cases t with
      | number v => exact absurd rfl (hv v)
      | leftParen => exact absurd rfl hp
      | _ => exact .within _ _ _ _
  | tooDeep hd =>
    obtain _ | calls := calls
    · omega
    · rw [Stage.Gives, primary_tooDeep hd]
      exact .within _ _ _ _
  | group hd inner ih =>
    obtain _ | calls := calls
    · omega
    · rw [Stage.Gives, primary_group hd]
      exact Allows.closeGroupIn (ih (Nat.le_of_succ_le_succ hn))
  | fault first ih =>
    obtain _ | calls := calls
    · omega
    · exact Allows.fault (ih (Nat.le_of_succ_le_succ hn)) fun _ _ => expression_fault
  | @expression min c c' left out n m first more ih₁ ih₂ =>
    obtain _ | calls := calls
    · omega
    · have hfits : n ≤ calls ∧ m ≤ calls := by omega
      have hfirst := ih₁ hfits.1
      have hmore := ih₂ hfits.2 _ (Nat.le_refl _)
      rw [Stage.Gives, expression_operators hfirst.eq_of_ok]
      rcases hmore with hmore | ⟨hless, hcut⟩
      · exact .inl hmore
      · exact .inr ⟨by omega, hcut⟩
  | stop hs => exact fun budget _ => .inl (climb_stop hs)
  | unranked hr =>
    intro budget hb
    obtain _ | ⟨b, budget⟩ := budget
    · simp at hb
    · exact .inl (climb_unranked hr)
  | operandFault hr hm operand ih =>
    intro budget hb
    obtain _ | ⟨b, budget⟩ := budget
    · simp at hb
    · rcases ih hn with hfault | ⟨hless, f, c', hf, hcut⟩
      · exact .inl (climb_fault hr hm hfault)
      · exact .inr ⟨hless, f, c', hf, climb_fault hr hm hcut⟩
  | @operand min k left right pos depth n m op r c' out hr hm operand more ih₁ ih₂ =>
    intro budget hb
    obtain _ | ⟨b, budget⟩ := budget
    · simp at hb
    · -- a round takes the operator at least, so one less of the budget is still enough
      have hl := (operand.frame rfl).1
      simp only [Stage.cursor, List.length_cons] at hl hb
      have hright := ih₁ (Nat.le_trans (Nat.le_max_left n m) hn)
      have hmore := ih₂ (Nat.le_trans (Nat.le_max_right n m) hn) budget (by omega)
      rw [climb_operand hr hm hright.eq_of_ok]
      exact hmore.mono (Nat.le_max_right n m)

theorem gives_ok {t : Tree} {c : Cursor} (h : Reading lim s (.ok t, c) n) {calls : Nat} (hn : n ≤ calls) :
    s.Gives lim calls (· = (.ok t, c)) := (h.gives hn).imp fun _ => Allows.eq_of_ok

theorem gives_out (h : Reading lim s out n) {calls : Nat} (hn : n + 6 ≤ calls) : s.Gives lim calls (· = out) :=
  (h.gives (by omega)).imp fun _ ho => ho.eq_of_le hn

theorem gives_tooManyCalls (h : Reading lim s out n) {calls : Nat} (hn : calls < n) :
    s.Gives lim calls fun o => ∃ c, o = (.error .tooManyCalls, c) := by
  induction h generalizing calls with
  | exhausted | number | unexpected | tooDeep =>
    obtain rfl : calls = 0 := by omega
    exact ⟨_, rfl⟩
  | @group pos depth n r out hd inner ih =>
    obtain _ | calls := calls
    · exact ⟨_, rfl⟩
    · have hcut : calls < n := by omega
      obtain ⟨c, hc⟩ := ih hcut
      exact ⟨c, by rw [primary_group hd, hc]; rfl⟩
  | @fault min c c' e n first ih =>
    obtain _ | calls := calls
    · exact ⟨_, rfl⟩
    · have hcut : calls < n := by omega
      obtain ⟨c, hc⟩ := ih hcut
      exact ⟨c, expression_fault hc⟩
  | @expression min c c' left out n m first more ih₁ ih₂ =>
    obtain _ | calls := calls
    · exact ⟨_, rfl⟩
    · by_cases hcut : calls < n
      · obtain ⟨c, hc⟩ := ih₁ hcut
        exact ⟨c, expression_fault hc⟩
      · -- the primary is read, so it is behind it that more calls are opened
        have hmore : calls < m := by omega
        obtain ⟨c, hc⟩ := ih₂ hmore _ (Nat.le_refl _)
        exact ⟨c, (expression_operators (first.gives_ok (by omega))).trans hc⟩
  | stop hs => omega
  | unranked hr => omega
  | operandFault hr hm operand ih =>
    intro budget hb
    obtain _ | ⟨b, budget⟩ := budget
    · simp at hb
    · obtain ⟨c, hc⟩ := ih hn
      exact ⟨c, climb_fault hr hm hc⟩
  | @operand min k left right pos depth n m op r c' out hr hm operand more ih₁ ih₂ =>
    intro budget hb
    obtain _ | ⟨b, budget⟩ := budget
    · simp at hb
    · by_cases hcut : calls < n
      · obtain ⟨c, hc⟩ := ih₁ hcut
        exact ⟨c, climb_fault hr hm hc⟩
      · have hl := (operand.frame rfl).1
        simp only [Stage.cursor, List.length_cons] at hl hb
        have hmore : calls < m := by omega
        obtain ⟨c, hc⟩ := ih₂ hmore budget (by omega)
        exact ⟨c, (climb_operand hr hm (operand.gives_ok (by omega))).trans hc⟩

end Reading

/-- Bounds the stages that are still to come: every stage leads to some with fewer tokens or, with as many, to later
ones in the order expression, primary, operators. -/
def Stage.weight : Stage → Nat
  | operators _ _ c => 3 * c.rest.length
  | primary c => 3 * c.rest.length + 1
  | expression _ c => 3 * c.rest.length + 2

theorem exists_reading (lim : Limits) (s : Stage) : ∃ out n, Reading lim s out n := by
  induction hw : s.weight using Nat.strongRecOn generalizing s with
  | ind w ih =>
    subst hw
    cases s with
    | primary c =>
      obtain ⟨pos, rest, depth⟩ := c
      cases rest with
      | nil => exact ⟨_, _, .exhausted⟩
      | cons t r =>
        cases t with
        | number v => exact ⟨_, _, .number⟩
        | leftParen =>
          by_cases hd : lim.maxDepth < (depth : Int) + 1
          · exact ⟨_, _, .tooDeep hd⟩
          · obtain ⟨out, n, inner⟩ := ih _ (by simp [Stage.weight]; omega) (.expression 0 ⟨pos + 1, r, depth + 1⟩) rfl
            exact ⟨_, _, .group (by omega) inner⟩
        | _ => exact ⟨_, _, .unexpected (by simp) (by simp)⟩
    | expression min c =>
      obtain ⟨⟨e | left, c'⟩, n, first⟩ := ih _ (by simp [Stage.weight]) (.primary c) rfl
      · exact ⟨_, _, .fault first⟩
      · have hl := (first.frame rfl).1
        obtain ⟨out, m, more⟩ := ih _ (by simp [Stage.weight, Stage.cursor] at *; omega) (.operators min left c') rfl
        exact ⟨_, _, .expression first more⟩
    | operators min left c =>
      obtain ⟨pos, rest, depth⟩ := c
      cases rest with
      | nil => exact ⟨_, _, .stop (by simp [StopsAt])⟩
      | cons t r =>
        cases t with
        | operator op =>
          cases hr : lim.ranks op with
          | none => exact ⟨_, _, .unranked hr⟩
          | some k =>
            -- below the least rank the operator belongs to an expression further out
            by_cases hm : min ≤ k
            · obtain ⟨⟨e | right, c'⟩, n, operand⟩ :=
                ih _ (by simp [Stage.weight]; omega) (.expression (k + 1) ⟨pos + 1, r, depth⟩) rfl
              · exact ⟨_, _, .operandFault hr hm operand⟩
              · have hl := (operand.frame rfl).1
                obtain ⟨out, m, more⟩ := ih _ (by simp [Stage.weight, Stage.cursor] at *; omega)
                  (.operators min (.binary (.known op) left right) c') rfl
                exact ⟨_, _, .operand hr hm operand more⟩
            · refine ⟨_, _, .stop ?_⟩
              intro op' r' heq
              cases heq
              exact ⟨k, hr, by omega⟩
        | _ => exact ⟨_, _, .stop (by simp [StopsAt])⟩

def WithinCalls (lim : Limits) (c : Cursor) : Prop :=
  ∀ f, (c.expression lim lim.openCalls 0).1 = .error f → f.isExhaustion = false

theorem WithinCalls.whole_eq {c : Cursor} (h : c.WithinCalls lim) :
    c.whole lim = finish (c.expression lim lim.openCalls 0) := by
  unfold WithinCalls at h
  unfold whole wholeIn
  generalize c.expression lim lim.openCalls 0 = out at h ⊢
  obtain ⟨e | t, c'⟩ := out
  · simp [finish, h e rfl]
  · simp only [ReadFault.within_openCalls]
    rfl

theorem Reading.withinCalls {c : Cursor} (h : Reading lim (.expression 0 c) out n) (hn : n ≤ lim.maxCalls) :
    c.WithinCalls lim := by
  have hroom : n + 6 ≤ lim.openCalls := Nat.add_le_add_right hn 6
  have hout : c.expression lim lim.openCalls 0 = out := h.gives_out hroom
  rw [WithinCalls, hout]
  exact fun _ => h.not_isExhaustion

theorem WithinCalls.reading {c : Cursor} (h : c.WithinCalls lim) :
    ∃ n, Reading lim (.expression 0 c) (c.expression lim lim.openCalls 0) n := by
  obtain ⟨out, n, hr⟩ := exists_reading lim (.expression 0 c)
  by_cases hn : n ≤ lim.openCalls
  · have hgives : Allows lim.openCalls n out (c.expression lim lim.openCalls 0) := hr.gives hn
    rcases hgives with hout | ⟨-, f, c', -, hcut⟩
    · exact ⟨n, hout ▸ hr⟩
    · cases h _ (congrArg Prod.fst hcut)
  · obtain ⟨c', hc⟩ := hr.gives_tooManyCalls (Nat.lt_of_not_le hn)
    cases h _ (congrArg Prod.fst hc)

end LetterArithmetic.Cursor
