import LetterArithmetic.Proofs.Counter
import LetterArithmetic.Proofs.Phrase

/-!
What the reader accepts. Main statement: it comes to a tree exactly if the tokens in front of the first end token are
spelled by a well-ranked phrase of that tree whose groups do not nest too deep, and there is at most one such phrase.
-/

set_option autoImplicit false

namespace LetterArithmetic

namespace Cursor

variable {lim : Limits} {s : Stage} {out : Outcome} {n : Nat}

/-- From the stage to `c`, the tokens of a well-ranked phrase of `t` are read. In the loop of an expression they go on
behind any phrase of its left tree that binds what comes next. -/
def Stage.Spells (ranks : Ranks) (t : Tree) (c : Cursor) : Stage → Prop
  | primary c₀ =>
    ∃ p : Phrase, p.tree = t ∧ c₀.rest = p.tokens ++ c.rest ∧ p.WellRanked ranks ∧ ∀ min, p.Binds ranks min
  | expression min c₀ =>
    ∃ p : Phrase, p.tree = t ∧ c₀.rest = p.tokens ++ c.rest ∧ p.WellRanked ranks ∧ p.Binds ranks min
  | operators min left c₀ =>
    ∀ l : Phrase, l.tree = left → l.WellRanked ranks → l.Binds ranks min →
      (∀ op r, c₀.rest = .operator op :: r → ∀ k ∈ ranks op, l.Binds ranks k) →
      ∃ (p : Phrase) (more : List Token), p.tree = t ∧ p.tokens = l.tokens ++ more ∧ c₀.rest = more ++ c.rest ∧
        p.WellRanked ranks ∧ p.Binds ranks min

theorem Reading.spells (h : Reading lim s out n) (hs : 0 ≤ s.least) {t : Tree} {c : Cursor} (hok : out = (.ok t, c)) :
    s.Spells lim.ranks t c := by
  induction h generalizing t c with
  | exhausted | unexpected | tooDeep | fault | unranked | operandFault => cases hok
  | @number pos depth v r =>
    cases hok
    exact ⟨.number v, rfl, rfl, trivial, fun _ => trivial⟩
  | @group pos depth n r out hd inner ih =>
    obtain ⟨pos', r', depth', rfl, rfl⟩ := closeGroup_eq_ok hok
    obtain ⟨p, ht, hr, hw, -⟩ := ih (Int.le_refl 0) rfl
    refine ⟨.group p, ht, ?_, hw, fun _ => trivial⟩
    simp only at hr
    simp [Phrase.tokens, hr]
  | expression first more ih₁ ih₂ =>
    obtain ⟨l, hl, hr₁, hw₁, hb₁⟩ := ih₁ (Int.le_refl 0) rfl
    obtain ⟨p, rest, ht, hp, hr₂, hw₂, hb₂⟩ := ih₂ hs hok l hl hw₁ (hb₁ _) fun _ _ _ _ _ => hb₁ _
    refine ⟨p, ht, ?_, hw₂, hb₂⟩
    rw [hr₁, hr₂, hp, List.append_assoc]
  | stop =>
    cases hok
    intro l hl hw hb _
    exact ⟨l, [], hl, by simp, rfl, hw, hb⟩
  | @operand min k left right pos depth n m op r c' out hr hm operand more ih₁ ih₂ =>
    intro l hl hw _ hnext
    have hk : 0 ≤ k := Int.le_trans hs hm
    have hk' : 0 ≤ k + 1 := by omega
    obtain ⟨q, hq, hrq, hwq, hbq⟩ := ih₁ hk' rfl
    have hbl : l.Binds lim.ranks k := hnext op r rfl k hr
    -- behind the operand comes an operator of this rank or less, if any, and that takes the whole as its left part
    have hnext' : ∀ op' r', c'.rest = .operator op' :: r' →
        ∀ k' ∈ lim.ranks op', (Phrase.binary op l q).Binds lim.ranks k' := by
      intro op' r' heq k' hk'
      obtain ⟨j, hj, hlt⟩ := (operand.endsAt rfl : StopsAt _ _ _) op' r' heq
      obtain rfl := Option.mem_unique hj hk'
      exact ⟨k, hr, by omega⟩
    obtain ⟨p, rest, ht, hp, hrest, hwp, hbp⟩ := ih₂ hs hok (.binary op l q) (by simp [Phrase.tree, hl, hq])
      ⟨k, hr, hk, hbl, hbq, hw, hwq⟩ ⟨k, hr, hm⟩ hnext'
    refine ⟨p, .operator op :: (q.tokens ++ rest), ht, ?_, ?_, hwp, hbp⟩
    · simp [hp, Phrase.tokens]
    · simp only at hrq
      simp [hrq, hrest]

theorem count_phrase {p : Phrase} (hp : p.WellRanked lim.ranks) {pos depth : Nat} (r : List Token)
    (hn : p.nesting ≤ lim.maxDepth.toNat - depth) :
    count lim .operand ⟨pos, p.tokens ++ r, depth⟩ = count lim .operator ⟨pos + p.tokens.length, r, depth⟩ := by
  induction p generalizing pos depth r with
  | number v => rfl
  | group p ih =>
    simp only [Phrase.nesting] at hn
    have hp' : p.WellRanked lim.ranks := hp
    simp only [Phrase.tokens, List.cons_append, List.append_assoc, List.nil_append]
    rw [count_leftParen (by omega), ih hp' _ (by omega), count_rightParen]
    congr 2
    simp
    omega
  | binary op l r' ihl ihr =>
    obtain ⟨k, hk, h0, -, -, hl, hr⟩ := hp
    simp only [Phrase.nesting] at hn
    simp only [Phrase.tokens, List.append_assoc, List.cons_append]
    rw [ihl hl _ (by omega), count_operator hk h0, ihr hr _ (by omega)]
    congr 2
    simp
    omega

theorem count_phrase_tooDeep {p : Phrase} (hp : p.WellRanked lim.ranks) (pos depth : Nat) (r : List Token)
    (hn : lim.maxDepth.toNat - depth < p.nesting) :
    ∃ c, count lim .operand ⟨pos, p.tokens ++ r, depth⟩ = (.error .tooDeep, c) := by
  induction p generalizing pos depth r with
  | number v => simp [Phrase.nesting] at hn
  | group p ih =>
    simp only [Phrase.nesting] at hn
    have hp' : p.WellRanked lim.ranks := hp
    simp only [Phrase.tokens, List.cons_append, List.append_assoc]
    by_cases hd : (depth : Int) + 1 ≤ lim.maxDepth
    · rw [count_leftParen hd]
      exact ih hp' _ _ _ (by omega)
    · exact ⟨_, count_tooDeep (by omega)⟩
  | binary op l r' ihl ihr =>
    obtain ⟨k, hk, h0, -, -, hl, hr⟩ := hp
    simp only [Phrase.nesting] at hn
    simp only [Phrase.tokens, List.append_assoc, List.cons_append]
    by_cases hnl : l.nesting ≤ lim.maxDepth.toNat - depth
    · rw [count_phrase hl _ hnl, count_operator hk h0]
      exact ihr hr _ _ _ (by omega)
    · exact ihl hl _ _ _ (by omega)

theorem count_whole {p : Phrase} (hp : p.WellRanked lim.ranks) (hn : p.nesting ≤ lim.maxDepth.toNat)
    (after : List Token) :
    (ofTokens (p.tokens ++ .stop :: after)).count lim .operand = (.ok (), ⟨p.tokens.length + 1, after, 0⟩) := by
  rw [ofTokens, count_phrase hp _ (by simpa using hn)]
  simp [count, countFrom, Token.joins]

theorem verdict_eq_ok {c : Cursor} (h : verdict out = (.ok (), c)) : ∃ t, out = (.ok t, c) := by
  obtain ⟨e | t, c'⟩ := out
  · simp [verdict] at h
  · simp only [verdict, Prod.mk.injEq, true_and] at h
    exact ⟨t, by rw [h]⟩

theorem verdict_eq_error {e : ReadFault} {c : Cursor} (h : verdict out = (.error e, c)) : out = (.error e, c) := by
  obtain ⟨e' | t, c'⟩ := out
  · simpa [verdict] using h
  · simp [verdict] at h

variable {ts : List Token} {t : Tree}

theorem stop_mem_and_takeWhile_iff {x : List Token} (hx : .stop ∉ x) :
    .stop ∈ ts ∧ ts.takeWhile (· ≠ .stop) = x ↔ ∃ after, ts = x ++ .stop :: after := by
  have hbefore : ∀ (y after : List Token), .stop ∉ y → (y ++ .stop :: after).takeWhile (· ≠ .stop) = y := by
    intro y after hy
    rw [List.takeWhile_append_of_pos]
    · simp
    · intro u hu
      simpa using fun heq : u = .stop => hy (heq ▸ hu)
  constructor
  · rintro ⟨hmem, rfl⟩
    obtain ⟨y, after, rfl, hy⟩ := List.eq_append_cons_of_mem hmem
    exact ⟨after, by rw [hbefore y after hy]⟩
  · rintro ⟨after, rfl⟩
    exact ⟨by simp, hbefore x after hx⟩

theorem exists_phrase_of_whole (h : (ofTokens ts).WithinCalls lim) {c : Cursor}
    (hok : (ofTokens ts).whole lim = (.ok t, c)) :
    ∃ (p : Phrase) (after : List Token), p.tree = t ∧ ts = p.tokens ++ .stop :: after ∧ p.WellRanked lim.ranks ∧
      p.nesting ≤ lim.maxDepth.toNat := by
  obtain ⟨n, hr⟩ := h.reading
  rw [h.whole_eq] at hok
  obtain ⟨pos, after, depth, hout, -⟩ := finish_eq_ok hok
  obtain ⟨p, ht, hrest, hw, -⟩ := hr.spells (Int.le_refl 0) hout
  refine ⟨p, after, ht, hrest, hw, Nat.le_of_not_lt fun hn => ?_⟩
  simp only [ofTokens] at hrest
  obtain ⟨c', hc'⟩ := count_phrase_tooDeep hw 0 0 (.stop :: after) (by omega)
  have hv := hr.verdict_eq
  rw [hok, ofTokens, hrest, hc'] at hv
  simp [verdict] at hv

theorem whole_of_phrase {p : Phrase} {after : List Token} (h : (ofTokens (p.tokens ++ .stop :: after)).WithinCalls lim)
    (hp : p.WellRanked lim.ranks) (hn : p.nesting ≤ lim.maxDepth.toNat) :
    (ofTokens (p.tokens ++ .stop :: after)).whole lim = (.ok p.tree, ⟨p.tokens.length + 1, after, 0⟩) := by
  obtain ⟨n, hr⟩ := h.reading
  have hv := hr.verdict_eq
  rw [← h.whole_eq, count_whole hp hn after] at hv
  obtain ⟨t, ht⟩ := verdict_eq_ok hv
  obtain ⟨q, after', hq, hts, hw, -⟩ := exists_phrase_of_whole h ht
  have hsame : q.tokens = p.tokens := by
    rw [← ((stop_mem_and_takeWhile_iff q.stop_notMem_tokens).mpr ⟨after', hts⟩).2,
      ((stop_mem_and_takeWhile_iff p.stop_notMem_tokens).mpr ⟨after, rfl⟩).2]
  obtain rfl := Phrase.eq_of_tokens_eq hw hp hsame
  rw [ht, hq]

theorem whole_of_phrase_tooDeep {p : Phrase} {after : List Token}
    (h : (ofTokens (p.tokens ++ .stop :: after)).WithinCalls lim) (hp : p.WellRanked lim.ranks)
    (hn : lim.maxDepth.toNat < p.nesting) :
    ∃ c, (ofTokens (p.tokens ++ .stop :: after)).whole lim = (.error .tooDeep, c) := by
  obtain ⟨n, hr⟩ := h.reading
  obtain ⟨c, hc⟩ := count_phrase_tooDeep hp 0 0 (.stop :: after) (by omega)
  have hv := hr.verdict_eq
  rw [← h.whole_eq, ofTokens, hc] at hv
  exact ⟨c, verdict_eq_error hv⟩

end Cursor

/-- The tokens in front of the first end token are those of a phrase, well ranked and with room for its groups,
exactly for the tree that is read; and of such phrases there is at most one. -/
theorem ofTokens_eq_ok_iff (lim : Limits) (ts : List Token) (h : (Cursor.ofTokens ts).WithinCalls lim) :
    (∀ t, Tree.ofTokens lim ts = .ok t ↔
      ∃ p : Phrase, p.tree = t ∧ (.stop ∈ ts ∧ ts.takeWhile (· ≠ .stop) = p.tokens) ∧ p.WellRanked lim.ranks ∧
        p.nesting ≤ lim.maxDepth.toNat) ∧
    ∀ p q : Phrase, p.WellRanked lim.ranks → q.WellRanked lim.ranks → p.tokens = q.tokens → p = q := by
  refine ⟨fun t => ⟨fun hok => ?_, ?_⟩, fun p q hp hq => Phrase.eq_of_tokens_eq hp hq⟩
  · obtain ⟨p, after, ht, hts, hw, hn⟩ := Cursor.exists_phrase_of_whole h (Prod.ext hok rfl)
    exact ⟨p, ht, (Cursor.stop_mem_and_takeWhile_iff p.stop_notMem_tokens).mpr ⟨after, hts⟩, hw, hn⟩
  · rintro ⟨p, rfl, hts, hw, hn⟩
    obtain ⟨after, rfl⟩ := (Cursor.stop_mem_and_takeWhile_iff p.stop_notMem_tokens).mp hts
    rw [Tree.ofTokens, Cursor.whole_of_phrase h hw hn]

theorem ofTokens_eq_ok_iff_two_groups :
    let lim : Limits := { ranks := fun op => if op = .multiply then some 5 else some 3, maxDepth := 2 }
    let ts : List Token := [.number 1, .operator .add, .number 2, .operator .multiply, .number 3, .operator .subtract,
      .leftParen, .leftParen, .number 4, .operator .divide, .number 5, .rightParen, .rightParen, .stop, .rightParen]
    let t : Tree := .binary (.known .subtract) (.binary (.known .add) (.number 1)
      (.binary (.known .multiply) (.number 2) (.number 3))) (.binary (.known .divide) (.number 4) (.number 5))
    (Cursor.ofTokens ts).WithinCalls lim ∧ ∃ p : Phrase, p.tree = t ∧
      (.stop ∈ ts ∧ ts.takeWhile (· ≠ .stop) = p.tokens) ∧ p.WellRanked lim.ranks ∧ p.nesting ≤ lim.maxDepth.toNat :=
  have h : Cursor.WithinCalls _ _ := by rintro f ⟨⟩
  ⟨h, ((ofTokens_eq_ok_iff _ _ h).1 _).mp rfl⟩

end LetterArithmetic
