import LetterArithmetic.Reader

/-!
Rank tables that order the operators alike. A reading compares ranks with each other and with zero only, so it does
not see by how much they differ. Main statement: under two such tables reading comes to the same tree or the same
fault and leaves the cursor at the same place, whatever the limits on groups and calls are.
-/

set_option autoImplicit false

namespace LetterArithmetic

namespace Ranks

structure SameOrder (ranks ranks' : Ranks) : Prop where
  isSome_eq : ∀ op, (ranks op).isSome = (ranks' op).isSome
  lt_iff : ∀ x y, ∀ j ∈ ranks x, ∀ k ∈ ranks y, ∀ j' ∈ ranks' x, ∀ k' ∈ ranks' y, j < k ↔ j' < k'
  nonneg_iff : ∀ x, ∀ k ∈ ranks x, ∀ k' ∈ ranks' x, 0 ≤ k ↔ 0 ≤ k'

/-- The same operators have a rank below `min` in the first table as have one below `min'` in the second. -/
def CutAlike (ranks ranks' : Ranks) (min min' : Int) : Prop :=
  ∀ op, ∀ k ∈ ranks op, ∀ k' ∈ ranks' op, k < min ↔ k' < min'

variable {ranks ranks' : Ranks}

namespace SameOrder

theorem cutAlike_zero (h : ranks.SameOrder ranks') : ranks.CutAlike ranks' 0 0 := by
  intro op k hk k' hk'
  have := h.nonneg_iff op k hk k' hk'
  omega

theorem cutAlike_succ (h : ranks.SameOrder ranks') {op : Operator} {k k' : Int} (hk : k ∈ ranks op)
    (hk' : k' ∈ ranks' op) : ranks.CutAlike ranks' (k + 1) (k' + 1) := by
  intro x j hj j' hj'
  have := h.lt_iff op x k hk j hj k' hk' j' hj'
  omega

theorem eq_none_iff (h : ranks.SameOrder ranks') (op : Operator) : ranks op = none ↔ ranks' op = none := by
  rw [← Option.isNone_iff_eq_none, ← Option.isNone_iff_eq_none, ← Option.not_isSome, ← Option.not_isSome, h.isSome_eq]

end SameOrder

theorem sameOrder_const {j k : Int} (hj : 0 ≤ j) (hk : 0 ≤ k) : SameOrder (fun _ => some j) fun _ => some k := by
  refine ⟨fun _ => rfl, fun x y a ha b hb a' ha' b' hb' => ?_, fun x a ha a' ha' => ?_⟩
  · obtain rfl := Option.some.inj ha
    obtain rfl := Option.some.inj hb
    obtain rfl := Option.some.inj ha'
    obtain rfl := Option.some.inj hb'
    omega
  · obtain rfl := Option.some.inj ha
    obtain rfl := Option.some.inj ha'
    omega

end Ranks

namespace Cursor

variable {ranks ranks' : Ranks}

theorem climb_congr (h : ranks.SameOrder ranks') {operand operand' : Int → Cursor → Except ReadFault Tree × Cursor}
    (hoperand : ∀ min min' c, ranks.CutAlike ranks' min min' → operand min c = operand' min' c) {min min' : Int}
    (hmin : ranks.CutAlike ranks' min min') (budget : List Token) (left : Tree) (c : Cursor) :
    climb ranks operand min budget left c = climb ranks' operand' min' budget left c := by
  induction budget generalizing left c with
  | nil => rfl
  | cons b budget ih =>
    simp only [climb]
    split
    case h_2 => rfl
    case h_1 op r hrest =>
      cases hk : ranks op with
      | none => rw [(h.eq_none_iff op).mp hk]
      | some k =>
        obtain ⟨k', hk'⟩ : ∃ k', ranks' op = some k' :=
          Option.isSome_iff_exists.mp (by rw [← h.isSome_eq, hk]; rfl)
        -- both loops end at this operator, or both take it
        have hbelow : k < min ↔ k' < min' := hmin op k hk k' hk'
        have habove := hoperand (k + 1) (k' + 1) ⟨c.pos + 1, r, c.depth⟩ (h.cutAlike_succ hk hk')
        simp only [hk', habove, hbelow]
        split
        · rfl
        · cases operand' (k' + 1) ⟨c.pos + 1, r, c.depth⟩ with
          | mk result c' =>
            cases result with
            | error e => rfl
            | ok right => exact ih _ c'

/-- Primaries are read alike, and so are expressions from least ranks on that cut the tables alike. -/
theorem reads_alike (lim : Limits) (h : lim.ranks.SameOrder ranks) (calls : Nat) :
    (∀ c, primary lim calls c = primary { lim with ranks := ranks } calls c) ∧
    ∀ min min' c, lim.ranks.CutAlike ranks min min' →
      expression lim calls min c = expression { lim with ranks := ranks } calls min' c := by
  -- on the calls that may be open; the least ranks of the two readings differ, and only the cut they make is kept
  induction calls with
  | zero => exact ⟨fun _ => rfl, fun _ _ _ _ => rfl⟩
  | succ calls ih =>
    obtain ⟨hprimary, hexpression⟩ := ih
    constructor
    · intro c
      simp only [primary, hexpression 0 0 _ h.cutAlike_zero]
    · intro min min' c hmin
      simp only [expression, hprimary]
      split
      · rfl
      · exact climb_congr h hexpression hmin _ _ _

theorem wholeIn_congr (lim : Limits) (h : lim.ranks.SameOrder ranks) (calls : Nat) (c : Cursor) :
    c.wholeIn lim calls = c.wholeIn { lim with ranks := ranks } calls := by
  have hread := (reads_alike lim h calls).2 0 0 c h.cutAlike_zero
  simp only [wholeIn, hread]

/-- Tables that rank the same operators in the same order, and the same of them from zero on, have the same readings:
the same tree or fault, with the cursor at the same place and depth, whatever groups and calls are allowed. So all
tables with one rank for all operators, if it is not below zero, read as the usual one. -/
theorem whole_of_sameOrder {ranks ranks' : Ranks} (h : ranks.SameOrder ranks') (maxDepth : Int) (maxCalls : Nat)
    (c : Cursor) :
    c.whole ⟨ranks, maxDepth, maxCalls⟩ = c.whole ⟨ranks', maxDepth, maxCalls⟩ ∧
    (∀ k : Int, 0 ≤ k → c.whole ⟨fun _ => some k, maxDepth, maxCalls⟩ = c.whole ⟨Ranks.level, maxDepth, maxCalls⟩) ∧
    ∀ calls, c.wholeIn ⟨ranks, maxDepth, maxCalls⟩ calls = c.wholeIn ⟨ranks', maxDepth, maxCalls⟩ calls := by
  have hcalls := wholeIn_congr ⟨ranks, maxDepth, maxCalls⟩ h
  refine ⟨hcalls _ c, fun k hk => ?_, fun calls => hcalls calls c⟩
  exact wholeIn_congr ⟨fun _ => some k, maxDepth, maxCalls⟩ (Ranks.sameOrder_const hk (by decide)) _ c

theorem whole_of_sameOrder_wide :
    let ranks : Ranks
      | .add => some 3
      | .multiply => some 900
      | .divide => some (-70)
      | .subtract => none
    let ranks' : Ranks
      | .add => some 0
      | .multiply => some 1
      | .divide => some (-1)
      | .subtract => none
    let ts : List Token := [.number 1, .operator .add, .number 2, .operator .multiply, .leftParen, .number 3,
      .operator .subtract, .number 4, .rightParen, .stop]
    ranks.SameOrder ranks' ∧
      (ofTokens ts).whole ⟨ranks, 5, 100⟩ =
        (.error (.unranked .subtract), ⟨6, [.operator .subtract, .number 4, .rightParen, .stop], 1⟩) := by
  intro ranks ranks' ts
  have h : ranks.SameOrder ranks' := by
    refine ⟨fun op => by cases op <;> rfl, fun x y j hj k hk j' hj' k' hk' => ?_, fun x k hk k' hk' => ?_⟩
    · cases x <;> cases y <;> cases hj <;> cases hk <;> cases hj' <;> cases hk' <;> decide
    · cases x <;> cases hk <;> cases hk' <;> decide
  exact ⟨h, (whole_of_sameOrder h 5 100 (ofTokens ts)).1.trans rfl⟩

end Cursor

end LetterArithmetic
