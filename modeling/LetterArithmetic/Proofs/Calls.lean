import LetterArithmetic.Proofs.Grammar
import Mathlib.Data.Finset.Card
import Mathlib.Data.Finset.Dedup
import Mathlib.Data.Finset.Filter

/-!
How many calls a reading has open. Inside one group the least rank rises with every expression that is opened, so a
group adds at most two calls to the distinct ranks of the table. Main statement: the cap on nested groups keeps the
reader away from a cap on calls that is large enough for that.
-/

set_option autoImplicit false

namespace LetterArithmetic

def Operator.all : List Operator := [.add, .subtract, .multiply, .divide]

theorem Operator.mem_all (op : Operator) : op ∈ Operator.all := by
  cases op <;> simp [all]

def Ranks.above (ranks : Ranks) (min : Int) : Finset Int :=
  (Operator.all.filterMap ranks).toFinset.filter (min ≤ ·)

theorem Ranks.mem_above {ranks : Ranks} {min k : Int} : k ∈ ranks.above min ↔ (∃ op, ranks op = some k) ∧ min ≤ k := by
  simp [above, Operator.mem_all]

theorem Ranks.card_above_lt {ranks : Ranks} {op : Operator} {min k : Int} (hr : ranks op = some k) (hm : min ≤ k) :
    (ranks.above (k + 1)).card < (ranks.above min).card := by
  have hsub : ranks.above (k + 1) ⊆ ranks.above min := by
    intro j hj
    obtain ⟨hop, hle⟩ := Ranks.mem_above.mp hj
    exact Ranks.mem_above.mpr ⟨hop, by omega⟩
  have hk : k ∈ ranks.above min := Ranks.mem_above.mpr ⟨⟨op, hr⟩, hm⟩
  have hk' : k ∉ ranks.above (k + 1) := by
    intro hmem
    have := (Ranks.mem_above.mp hmem).2
    omega
  exact Finset.card_lt_card ((Finset.ssubset_iff_of_subset hsub).mpr ⟨k, hk, hk'⟩)

/-- The calls that one group can add: one for each rank from zero on, one for the expression that the group starts
with, and one for the primary at the end. -/
def Ranks.callsPerGroup (ranks : Ranks) : Nat := (ranks.above 0).card + 2

def Limits.callBound (lim : Limits) : Nat := lim.ranks.callsPerGroup * (lim.maxDepth.toNat + 1)

namespace Cursor

variable {lim : Limits} {s : Stage} {out : Outcome} {n : Nat}

def Stage.callBound (lim : Limits) : Stage → Nat
  | primary c => lim.ranks.callsPerGroup * (lim.maxDepth.toNat - c.depth) + 1
  | operators min _ c => lim.ranks.callsPerGroup * (lim.maxDepth.toNat - c.depth) + (lim.ranks.above min).card + 1
  | expression min c => lim.ranks.callsPerGroup * (lim.maxDepth.toNat - c.depth) + (lim.ranks.above min).card + 2

theorem Stage.callBound_group {pos pos' depth : Nat} {r r' : List Token} (hd : (depth : Int) + 1 ≤ lim.maxDepth) :
    (expression 0 ⟨pos, r, depth + 1⟩).callBound lim + 1 = (primary ⟨pos', r', depth⟩).callBound lim := by
  have hroom : lim.maxDepth.toNat - depth = lim.maxDepth.toNat - (depth + 1) + 1 := by omega
  simp only [callBound, hroom, Nat.mul_add, Nat.mul_one]
  simp only [Ranks.callsPerGroup]
  omega

theorem Stage.callBound_operand {min k : Int} {left : Tree} {op : Operator} {pos pos' depth : Nat} {r r' : List Token}
    (hr : lim.ranks op = some k) (hm : min ≤ k) :
    (expression (k + 1) ⟨pos, r, depth⟩).callBound lim ≤ (operators min left ⟨pos', r', depth⟩).callBound lim := by
  have := Ranks.card_above_lt hr hm
  simp only [callBound]
  omega

theorem Stage.callBound_start (ts : List Token) : (expression 0 (ofTokens ts)).callBound lim = lim.callBound := by
  simp only [callBound, ofTokens, Limits.callBound, Ranks.callsPerGroup, Nat.sub_zero, Nat.mul_add, Nat.mul_one]
  omega

theorem Reading.calls_le (h : Reading lim s out n) : n ≤ s.callBound lim := by
  -- groups still allowed, ranks still to come and one call for the stage itself make up the bound at every stage
  induction h with
  | exhausted | number | unexpected | tooDeep => simp [Stage.callBound]
  | @group pos depth n r out hd inner ih =>
    have hgroup : (Stage.expression 0 ⟨pos + 1, r, depth + 1⟩).callBound lim + 1 =
        (Stage.primary ⟨pos, .leftParen :: r, depth⟩).callBound lim := Stage.callBound_group hd
    omega
  | fault first ih =>
    simp only [Stage.callBound] at ih ⊢
    omega
  | expression first more ih₁ ih₂ =>
    have hd := (first.frame rfl).2
    simp only [Stage.cursor] at hd
    simp only [Stage.callBound, hd] at ih₁ ih₂ ⊢
    omega
  | stop => exact Nat.zero_le _
  | unranked => exact Nat.zero_le _
  | operandFault hr hm operand ih => exact Nat.le_trans ih (Stage.callBound_operand hr hm)
  | @operand min k left right pos depth n m op r c' out hr hm operand more ih₁ ih₂ =>
    have hfirst : n ≤ (Stage.operators min left ⟨pos, .operator op :: r, depth⟩).callBound lim :=
      Nat.le_trans ih₁ (Stage.callBound_operand hr hm)
    obtain rfl : c'.depth = depth := (operand.frame rfl).2
    simp only [Stage.callBound] at hfirst ih₂ ⊢
    omega

theorem Reading.withCap (h : Reading lim s out n) (cap : Nat) : Reading { lim with maxCalls := cap } s out n := by
  induction h with
  | exhausted => exact .exhausted
  | number => exact .number
  | unexpected hn hp => exact .unexpected hn hp
  | tooDeep hd => exact .tooDeep hd
  | group hd inner ih => exact .group hd ih
  | fault first ih => exact .fault ih
  | expression first more ih₁ ih₂ => exact .expression ih₁ ih₂
  | stop hs => exact .stop hs
  | unranked hr => exact .unranked hr
  | operandFault hr hm operand ih => exact .operandFault hr hm ih
  | operand hr hm operand more ih₁ ih₂ => exact .operand hr hm ih₁ ih₂

theorem Reading.expression_eq_tooManyCalls_iff {min : Int} {c : Cursor} (h : Reading lim (.expression min c) out n)
    (calls : Nat) : (c.expression lim calls min).1 = .error .tooManyCalls ↔ calls < n := by
  constructor
  · intro hfault
    refine Nat.lt_of_not_le fun hle => ?_
    have hgives : Allows calls n out (c.expression lim calls min) := h.gives hle
    rcases hgives with hout | ⟨-, f, c', -, hcut⟩
    · cases h.not_isExhaustion (hout ▸ hfault)
    · cases hfault.symm.trans (congrArg Prod.fst hcut)
  · intro hlt
    obtain ⟨c', hc'⟩ := h.gives_tooManyCalls hlt
    rw [hc']

theorem withinCalls_of_callBound_le (h : lim.callBound ≤ lim.maxCalls) (ts : List Token) :
    (ofTokens ts).WithinCalls lim := by
  obtain ⟨out, n, hr⟩ := exists_reading lim (.expression 0 (ofTokens ts))
  exact hr.withinCalls (Nat.le_trans hr.calls_le (Nat.le_trans (Nat.le_of_eq (Stage.callBound_start ts)) h))

/-- From `ts` with `depth` groups open, more groups than allowed are open at `c`, behind a token that opens one. -/
def TooDeepAt (lim : Limits) (depth : Nat) (ts : List Token) (c : Cursor) : Prop :=
  lim.maxDepth < c.depth ∧
    ∃ before, ts = before ++ .leftParen :: c.rest ∧ (c.depth : Int) = depth + balance before + 1

theorem TooDeepAt.cons {depth depth' : Nat} {t : Token} {r : List Token} {c : Cursor} (h : TooDeepAt lim depth' r c)
    (ht : (depth' : Int) = depth + t.opening) : TooDeepAt lim depth (t :: r) c := by
  obtain ⟨hd, before, rfl, hb⟩ := h
  refine ⟨hd, t :: before, rfl, ?_⟩
  simp only [balance]
  omega

theorem tooDeepAt_of_countFrom {mode : Mode} {pos depth : Nat} {ts : List Token} {c : Cursor}
    (h : countFrom lim mode pos depth ts = (.error .tooDeep, c)) : TooDeepAt lim depth ts c := by
  fun_induction countFrom lim mode pos depth ts with
  | case1 => cases h
  | case2 pos depth r v ih => exact (ih h).cons (by simp [Token.opening])
  | case3 pos depth r hd =>
    cases h
    exact ⟨hd, [], rfl, by simp [balance]⟩
  | case4 pos depth r hd ih => exact (ih h).cons (by simp [Token.opening])
  | case5 => cases h
  | case6 pos depth t r e hj =>
    cases h
    cases t with
    | operator op => cases hr : lim.ranks op <;> simp [Token.joins, hr] at hj
    | _ => cases hj
  | case7 pos depth t r hj ih =>
    have ht : t.opening = 0 := by
      cases t with
      | operator op => rfl
      | _ => cases hj
    exact (ih h).cons (by omega)
  | case8 pos depth r hd hj ih => exact (ih h).cons (by simp only [Token.opening]; omega)
  | case9 => cases h
  | case10 => cases h
  | case11 => cases h

theorem Reading.tooDeepAt {ts : List Token} (h : Reading lim (.expression 0 (ofTokens ts)) out n) {c : Cursor}
    (hout : finish out = (.error .tooDeep, c)) : TooDeepAt lim 0 ts c := by
  have hv := h.verdict_eq
  rw [hout] at hv
  exact tooDeepAt_of_countFrom hv.symm

end Cursor

namespace Phrase

theorem binds_level (p : Phrase) : p.Binds Ranks.level 3 := by
  cases p with
  | number v => trivial
  | group p => trivial
  | binary op l r => exact ⟨3, rfl, Int.le_refl 3⟩

def link (p : Phrase) (x : Operator × Int) : Phrase := binary x.1 p (number x.2)

theorem tokens_links (p : Phrase) (links : List (Operator × Int)) :
    (links.foldl link p).tokens = p.tokens ++ links.flatMap fun x => [.operator x.1, .number x.2] := by
  induction links generalizing p with
  | nil => simp
  | cons x links ih => simp [ih, link, tokens]

theorem tree_links (p : Phrase) (links : List (Operator × Int)) :
    (links.foldl link p).tree = links.foldl (fun t x => .binary (.known x.1) t (.number x.2)) p.tree := by
  induction links generalizing p with
  | nil => rfl
  | cons x links ih => exact ih (link p x)

theorem nesting_links (p : Phrase) (links : List (Operator × Int)) : (links.foldl link p).nesting = p.nesting := by
  induction links generalizing p with
  | nil => rfl
  | cons x links ih => simp [ih, link, nesting]

theorem wellRanked_links {p : Phrase} (hp : p.WellRanked Ranks.level) (links : List (Operator × Int)) :
    (links.foldl link p).WellRanked Ranks.level := by
  induction links generalizing p with
  | nil => exact hp
  | cons x links ih => exact ih ⟨3, rfl, by decide, p.binds_level, trivial, hp, trivial⟩

end Phrase

namespace Cursor

theorem callBound_default : Limits.callBound {} = 603 := by decide

theorem withinCalls_default (ts : List Token) : (ofTokens ts).WithinCalls {} :=
  withinCalls_of_callBound_le (by rw [callBound_default]; decide) ts

theorem ofTokens_chain (v : Int) (links : List (Operator × Int)) (after : List Token) :
    Tree.ofTokens {} (.number v :: (links.flatMap fun x => [.operator x.1, .number x.2]) ++ .stop :: after) =
      .ok (links.foldl (fun t x => .binary (.known x.1) t (.number x.2)) (.number v)) := by
  have hp : (links.foldl Phrase.link (.number v)).WellRanked Ranks.level :=
    Phrase.wellRanked_links (p := .number v) trivial links
  have hn := Phrase.nesting_links (.number v) links
  have hroom : (links.foldl Phrase.link (.number v)).nesting ≤ 200 := by
    rw [hn]
    exact Nat.zero_le 200
  have hw := whole_of_phrase (withinCalls_default (_ ++ .stop :: after)) hp hroom
  rw [Phrase.tokens_links, Phrase.tree_links] at hw
  exact congrArg Prod.fst hw

/-- Reading has no more calls open than the ranks of the table and the cap on groups allow. A cap on calls that leaves
room for these changes nothing, and groups are found too deep only where they are. Under the usual limits there is
room, and so a chain of any length is read. -/
theorem open_calls_le_callBound (lim : Limits) (ts : List Token) :
    (∃ out n, Reading lim (.expression 0 (ofTokens ts)) out n ∧ n ≤ lim.callBound ∧
      (∀ calls, ((ofTokens ts).expression lim calls 0).1 = .error .tooManyCalls ↔ calls < n) ∧
      ∀ cap, lim.callBound ≤ cap → (ofTokens ts).whole { lim with maxCalls := cap } = finish out ∧
        ∀ c, finish out = (.error .tooDeep, c) → TooDeepAt lim 0 ts c) ∧
    (∀ calls, 603 ≤ calls → ((ofTokens ts).expression {} calls 0).1 ≠ .error .tooManyCalls) ∧
    (ofTokens ts).WithinCalls {} ∧
    (∀ c, (ofTokens ts).whole {} = (.error .tooDeep, c) → TooDeepAt {} 0 ts c) ∧
    ∀ (v : Int) (links : List (Operator × Int)) (after : List Token),
      Tree.ofTokens {} (.number v :: (links.flatMap fun x => [.operator x.1, .number x.2]) ++ .stop :: after) =
        .ok (links.foldl (fun t x => .binary (.known x.1) t (.number x.2)) (.number v)) := by
  refine ⟨?_, fun calls hcalls => ?_, withinCalls_default ts, fun c hc => ?_, ofTokens_chain⟩
  · obtain ⟨out, n, hr⟩ := exists_reading lim (.expression 0 (ofTokens ts))
    have hn : n ≤ lim.callBound := Stage.callBound_start ts ▸ hr.calls_le
    refine ⟨out, n, hr, hn, hr.expression_eq_tooManyCalls_iff, fun cap hcap => ⟨?_, fun c => hr.tooDeepAt⟩⟩
    have hr' := hr.withCap cap
    have hroom : n ≤ cap := Nat.le_trans hn hcap
    have hout : (ofTokens ts).expression { lim with maxCalls := cap } (cap + 6) 0 = out :=
      hr'.gives_out (Nat.add_le_add_right hroom 6)
    rw [(hr'.withinCalls hroom).whole_eq, Limits.openCalls, hout]
  · obtain ⟨out, n, hr⟩ := exists_reading {} (.expression 0 (ofTokens ts))
    have hn : n ≤ 603 := callBound_default ▸ Stage.callBound_start ts ▸ hr.calls_le
    intro hfault
    have := (hr.expression_eq_tooManyCalls_iff calls).mp hfault
    omega
  · obtain ⟨n, hr⟩ := (withinCalls_default ts).reading
    rw [(withinCalls_default ts).whole_eq] at hc
    exact hr.tooDeepAt hc

theorem open_calls_le_callBound_full :
    let lim : Limits := { ranks := fun op => if op = .multiply then some 5 else some 3, maxDepth := 1 }
    let ts : List Token := [.number 1, .operator .add, .number 2, .operator .multiply, .leftParen, .number 3,
      .operator .subtract, .number 4, .operator .multiply, .number 5, .rightParen, .stop]
    lim.callBound = 8 ∧ ∃ out n, Reading lim (.expression 0 (ofTokens ts)) out n ∧ n = 8 ∧
      (ofTokens ts).whole { lim with maxCalls := 8 } = finish out := by
  intro lim ts
  have hb : lim.callBound = 8 := by decide
  obtain ⟨⟨out, n, hr, hn, hcalls, hcap⟩, -⟩ := open_calls_le_callBound lim ts
  have h7 : 7 < n := (hcalls 7).mp rfl
  exact ⟨hb, out, n, hr, by omega, (hcap 8 (Nat.le_of_eq hb)).1⟩

end Cursor

end LetterArithmetic
