import LetterArithmetic.Proofs.Containment

/-!
A cursor that is used again, also where reading has failed. A fault leaves groups open, namely those that the tokens in
front of it opened and did not close. Main statement: after any steps the cursor stands on the tokens it was made for;
no step takes it back or closes a group of an earlier one; and what a reading does to the depth is the balance of the
tokens that it takes.
-/

set_option autoImplicit false

namespace LetterArithmetic

inductive Balanced : List Token → Prop where
  | nil : Balanced []
  | other {t : Token} {ts : List Token} (ht : t.opening = 0) (h : Balanced ts) : Balanced (t :: ts)
  | group {ts us : List Token} (inner : Balanced ts) (h : Balanced us) :
      Balanced (.leftParen :: (ts ++ .rightParen :: us))

namespace Balanced

variable {ts us : List Token}

theorem append (h : Balanced ts) (h' : Balanced us) : Balanced (ts ++ us) := by
  induction h with
  | nil => exact h'
  | other ht h ih => exact .other ht ih
  | group inner h ihinner ih =>
    rw [List.cons_append, List.append_assoc, List.cons_append]
    exact .group inner ih

theorem balance_eq (h : Balanced ts) : balance ts = 0 := by
  induction h with
  | nil => rfl
  | other ht h ih => rw [balance, ht, ih, Int.add_zero]
  | group inner h ihinner ih => simp [balance, Token.opening, ihinner, ih]

end Balanced

namespace Cursor

structure Takes (c : Cursor) (ts : List Token) (c' : Cursor) : Prop where
  rest : c.rest = ts ++ c'.rest
  pos : c'.pos = c.pos + ts.length

structure Passes (c : Cursor) (ts : List Token) (c' : Cursor) : Prop extends Takes c ts c' where
  depth : c'.depth = c.depth
  balanced : Balanced ts

/-- A fault arises behind the tokens `ts`, whose groups stay open. A token that is named is taken too, but neither
opens nor closes a group. -/
structure Breaks (maxDepth : Int) (c : Cursor) (named : Option Token) (ts : List Token) (c' : Cursor) : Prop extends
    Takes c (ts ++ named.toList) c' where
  depth : (c'.depth : Int) = c.depth + balance ts
  balance_nonneg : 0 ≤ balance ts
  depth_le : (c'.depth : Int) ≤ max (c.depth : Int) maxDepth + 1

/-- Reading from `c` goes over balanced tokens to a tree, or breaks off with a fault and the token named with it. -/
def Moves (maxDepth : Int) (c : Cursor) (names : ReadFault → Option Token → Prop) : Outcome → Prop
  | (.ok _, c') => ∃ ts, c.Passes ts c'
  | (.error f, c') => ∃ named ts, names f named ∧ c.Breaks maxDepth named ts c'

def Shown (f : ReadFault) (named : Option Token) : Prop := named = f.shown?

variable {lim : Limits} {maxDepth : Int} {c c₁ c' : Cursor} {ts us r : List Token} {f : ReadFault} {out : Outcome}
  {named : Option Token} {names : ReadFault → Option Token → Prop} {pos depth calls : Nat}

theorem shown?_within (f : ReadFault) (calls : Nat) : (f.within calls).shown? = f.shown? := by
  rw [ReadFault.within]
  split <;> rfl

theorem Takes.refl (c : Cursor) : c.Takes [] c := ⟨rfl, rfl⟩

theorem Takes.trans (h : c.Takes ts c₁) (h' : c₁.Takes us c') : c.Takes (ts ++ us) c' :=
  ⟨by rw [h.rest, h'.rest, List.append_assoc], by rw [h'.pos, h.pos, List.length_append, Nat.add_assoc]⟩

theorem Takes.pos_le (h : c.Takes ts c') : c.pos ≤ c'.pos := h.pos ▸ Nat.le_add_right _ _

theorem Takes.one (t : Token) : Takes ⟨pos, t :: r, depth⟩ [t] ⟨pos + 1, r, depth⟩ := ⟨rfl, rfl⟩

namespace Passes

theorem refl (c : Cursor) : c.Passes [] c := ⟨.refl c, rfl, .nil⟩

theorem trans (h : c.Passes ts c₁) (h' : c₁.Passes us c') : c.Passes (ts ++ us) c' :=
  ⟨h.toTakes.trans h'.toTakes, h'.depth.trans h.depth, h.balanced.append h'.balanced⟩

theorem one {t : Token} (ht : t.opening = 0) : Passes ⟨pos, t :: r, depth⟩ [t] ⟨pos + 1, r, depth⟩ :=
  ⟨.one t, rfl, .other ht .nil⟩

theorem breaks (h : c.Passes ts c₁) (h' : c₁.Breaks maxDepth named us c') :
    c.Breaks maxDepth named (ts ++ us) c' := by
  have htakes := h.toTakes.trans h'.toTakes
  rw [← List.append_assoc] at htakes
  have hbalance : balance (ts ++ us) = balance us := by rw [balance_append, h.balanced.balance_eq, Int.zero_add]
  refine ⟨htakes, ?_, ?_, ?_⟩
  · rw [h'.depth, h.depth, hbalance]
  · rw [hbalance]
    exact h'.balance_nonneg
  · rw [← h.depth]
    exact h'.depth_le

theorem moves (h : c.Passes ts c₁) (h' : Moves maxDepth c₁ names out) : Moves maxDepth c names out := by
  obtain ⟨e | t, c'⟩ := out
  · obtain ⟨named, us, hnames, hbreaks⟩ := h'
    exact ⟨named, _, hnames, h.breaks hbreaks⟩
  · obtain ⟨us, hpasses⟩ := h'
    exact ⟨_, h.trans hpasses⟩

end Passes

theorem breaks_at (h : c.Takes named.toList c') (hd : c'.depth = c.depth) : c.Breaks maxDepth named [] c' :=
  ⟨h, by simp [hd, balance], Int.le_refl 0, by omega⟩

theorem moves_at (h : c.Takes f.shown?.toList c') (hd : c'.depth = c.depth) :
    Moves maxDepth c Shown (.error (f.within calls), c') :=
  ⟨_, [], (shown?_within f calls).symm, breaks_at h hd⟩

theorem breaks_takeKind {kind : TokenKind} (h : c.takeKind kind = (.error f, c')) :
    c.Breaks maxDepth f.shown? [] c' := by
  obtain ⟨pos, rest, depth⟩ := c
  cases rest with
  | nil =>
    cases h
    exact breaks_at (.refl _) rfl
  | cons t r =>
    rw [takeKind_cons] at h
    split at h
    · cases h
    · cases h
      exact breaks_at (.one t) rfl

theorem takeKind_eq_ok {kind : TokenKind} {t : Token} (h : c.takeKind kind = (.ok t, c')) :
    t.kind = kind ∧ c.Takes [t] c' ∧ c'.depth = c.depth := by
  obtain ⟨pos, rest, depth⟩ := c
  cases rest with
  | nil => cases h
  | cons u r =>
    rw [takeKind_cons] at h
    split at h
    case isTrue hkind =>
      cases h
      exact ⟨hkind, .one t, rfl⟩
    case isFalse => cases h

theorem Breaks.group (h : Breaks maxDepth ⟨pos + 1, r, depth + 1⟩ named ts c') (hd : (depth : Int) + 1 ≤ maxDepth) :
    Breaks maxDepth ⟨pos, .leftParen :: r, depth⟩ named (.leftParen :: ts) c' := by
  obtain ⟨htakes, hdepth, hnonneg, hle⟩ := h
  have hopening : balance (.leftParen :: ts) = 1 + balance ts := rfl
  refine ⟨(Takes.one .leftParen).trans ⟨htakes.rest, htakes.pos⟩, ?_, ?_, ?_⟩
  · simp only [hopening] at hdepth ⊢
    omega
  · omega
  · simp only at hle ⊢
    omega

theorem Passes.group (h : Passes ⟨pos + 1, r, depth + 1⟩ ts c₁) (h' : c₁.Takes [.rightParen] c')
    (hd : c'.depth = c₁.depth) :
    Passes ⟨pos, .leftParen :: r, depth⟩ (.leftParen :: (ts ++ [.rightParen])) { c' with depth := c'.depth - 1 } := by
  obtain ⟨hrest, hpos⟩ := h.toTakes.trans h'
  exact ⟨(Takes.one .leftParen).trans ⟨hrest, hpos⟩, by rw [hd, h.depth, Nat.add_sub_cancel], .group h.balanced .nil⟩

theorem closeGroupIn_moves (h : Moves maxDepth ⟨pos + 1, r, depth + 1⟩ Shown out)
    (hd : (depth : Int) + 1 ≤ maxDepth) :
    Moves maxDepth ⟨pos, .leftParen :: r, depth⟩ Shown (closeGroupIn calls out) := by
  obtain ⟨e | t, c₁⟩ := out
  · obtain ⟨named, ts, hnamed, hbreaks⟩ := h
    exact ⟨named, _, hnamed, hbreaks.group hd⟩
  · obtain ⟨ts, hpasses⟩ := h
    simp only [closeGroupIn]
    split
    case h_1 f c' htake =>
      exact ⟨_, _, (shown?_within f calls).symm, (hpasses.breaks (breaks_takeKind htake)).group hd⟩
    case h_2 u c' htake =>
      obtain ⟨hkind, htakes, hdepth⟩ := takeKind_eq_ok htake
      rw [kind_eq_rightParen.mp hkind] at htakes
      exact ⟨_, hpasses.group htakes hdepth⟩

theorem Passes.takeStop (h : c.Passes ts c₁) (t : Tree) : Moves maxDepth c Shown
    (match c₁.takeKind .stop with
      | (.error e, c') => (.error (e.within calls), c')
      | (.ok _, c') => (.ok t, c')) := by
  split
  case h_1 f c' htake => exact ⟨_, _, (shown?_within f calls).symm, h.breaks (breaks_takeKind htake)⟩
  case h_2 u c' htake =>
    obtain ⟨hkind, htakes, hdepth⟩ := takeKind_eq_ok htake
    have hflat : u.opening = 0 := kind_eq_stop.mp hkind ▸ rfl
    exact ⟨_, h.trans ⟨htakes, hdepth, .other hflat .nil⟩⟩

theorem climb_moves {ranks : Ranks} {operand : Int → Cursor → Outcome}
    (hoperand : ∀ min c, Moves maxDepth c Shown (operand min c)) (min : Int) (budget : List Token) (left : Tree)
    (c : Cursor) : Moves maxDepth c Shown (climb ranks operand min budget left c) := by
  induction budget generalizing left c with
  | nil => exact ⟨[], .refl c⟩
  | cons b budget ih =>
    simp only [climb]
    split
    case h_2 => exact ⟨[], .refl c⟩
    case h_1 op r hrest =>
      cases ranks op with
      | none => exact ⟨none, [], rfl, breaks_at (.refl c) rfl⟩
      | some k =>
        -- an operator is balanced by itself, so the operand may count from in front of it
        have hone : c.Passes [.operator op] ⟨c.pos + 1, r, c.depth⟩ := ⟨⟨hrest, rfl⟩, rfl, .other rfl .nil⟩
        have hright := hone.moves (hoperand (k + 1) ⟨c.pos + 1, r, c.depth⟩)
        dsimp only
        split
        · exact ⟨[], .refl c⟩
        · generalize operand (k + 1) ⟨c.pos + 1, r, c.depth⟩ = result at hright
          obtain ⟨e | right, c₁⟩ := result
          · exact hright
          · obtain ⟨ts, hpasses⟩ := hright
            exact hpasses.moves (ih _ c₁)

theorem reads_move (lim : Limits) (calls : Nat) :
    (∀ c, Moves lim.maxDepth c Shown (primary lim calls c)) ∧
      ∀ min c, Moves lim.maxDepth c Shown (expression lim calls min c) := by
  -- on the calls that may be open, for primaries and expressions together
  induction calls with
  | zero =>
    have hstop : ∀ c, Moves lim.maxDepth c Shown (.error .tooManyCalls, c) :=
      fun c => ⟨none, [], rfl, breaks_at (.refl c) rfl⟩
    exact ⟨hstop, fun _ => hstop⟩
  | succ calls ih =>
    obtain ⟨hprimary, hexpression⟩ := ih
    constructor
    · rintro ⟨pos, rest, depth⟩
      cases rest with
      | nil => exact moves_at (.refl _) rfl
      | cons t r =>
        cases t with
        | number v => exact ⟨_, .one rfl⟩
        | leftParen =>
          by_cases hd : lim.maxDepth < (depth : Int) + 1
          · rw [primary_tooDeep hd]
            exact ⟨none, [.leftParen], (shown?_within .tooDeep calls).symm, ⟨rfl, rfl⟩, rfl, by decide,
              by simp only [Int.natCast_add]; omega⟩
          · rw [primary_group (by omega)]
            exact closeGroupIn_moves (hexpression 0 _) (by omega)
        | operator op => exact moves_at (.one _) rfl
        | rightParen => exact moves_at (.one _) rfl
        | stop => exact moves_at (.one _) rfl
    · intro min c
      have hfirst := hprimary c
      cases hread : primary lim calls c with
      | mk result c₁ =>
        rw [hread] at hfirst
        cases result with
        | error e =>
          rw [expression_fault hread]
          exact hfirst
        | ok left =>
          rw [expression_operators hread]
          obtain ⟨ts, hpasses⟩ := hfirst
          exact hpasses.moves (climb_moves hexpression min _ left c₁)

theorem Moves.imp {names' : ReadFault → Option Token → Prop} (h : Moves maxDepth c names out)
    (himp : ∀ f named, names f named → names' f named) : Moves maxDepth c names' out := by
  obtain ⟨e | t, c'⟩ := out
  · obtain ⟨named, ts, hnames, hbreaks⟩ := h
    exact ⟨named, ts, himp e named hnames, hbreaks⟩
  · exact h

theorem Moves.exists_takes (h : Moves maxDepth c names out) : ∃ ts, c.Takes ts out.2 := by
  obtain ⟨e | t, c'⟩ := out
  · obtain ⟨named, ts, -, hbreaks⟩ := h
    exact ⟨_, hbreaks.toTakes⟩
  · obtain ⟨ts, hpasses⟩ := h
    exact ⟨ts, hpasses.toTakes⟩

theorem Moves.depth_le (h : Moves maxDepth c names out) : c.depth ≤ out.2.depth := by
  obtain ⟨e | t, c'⟩ := out
  · obtain ⟨named, ts, -, hbreaks⟩ := h
    have hdepth := hbreaks.depth
    have hnonneg := hbreaks.balance_nonneg
    dsimp only
    omega
  · obtain ⟨ts, hpasses⟩ := h
    exact Nat.le_of_eq hpasses.depth.symm

theorem takeKind_snd (kind : TokenKind) (c : Cursor) : (c.takeKind kind).2 = c.take.2 := by
  obtain ⟨pos, rest, depth⟩ := c
  cases rest <;> rfl

theorem take_depth (c : Cursor) : c.take.2.depth = c.depth := by
  obtain ⟨pos, rest, depth⟩ := c
  cases rest <;> rfl

theorem take_takes (c : Cursor) : ∃ ts, c.Takes ts c.take.2 := by
  obtain ⟨pos, rest, depth⟩ := c
  cases rest with
  | nil => exact ⟨[], .refl _⟩
  | cons t r => exact ⟨[t], .one t⟩

theorem takeKind_takes (kind : TokenKind) (c : Cursor) : ∃ ts, c.Takes ts (c.takeKind kind).2 := by
  rw [takeKind_snd]
  exact take_takes c

theorem pos_le_closeGroupIn (out : Outcome) : out.2.pos ≤ (closeGroupIn calls out).2.pos := by
  obtain ⟨e | t, c⟩ := out
  · exact Nat.le_refl _
  · obtain ⟨ts, htakes⟩ := takeKind_takes .rightParen c
    simp only [closeGroupIn]
    split
    case h_1 f c' htake => exact (htake ▸ htakes).pos_le
    case h_2 u c' htake => exact (htake ▸ htakes).pos_le

theorem lt_primary_pos (hc : c.rest ≠ []) : c.pos < (c.primary lim (calls + 1)).2.pos := by
  obtain ⟨pos, rest, depth⟩ := c
  cases rest with
  | nil => exact absurd rfl hc
  | cons t r =>
    cases t with
    | leftParen =>
      by_cases hd : lim.maxDepth < (depth : Int) + 1
      · rw [primary_tooDeep hd]
        exact Nat.lt_succ_self pos
      · rw [primary_group (by omega)]
        obtain ⟨ts, htakes⟩ := ((reads_move lim calls).2 0 ⟨pos + 1, r, depth + 1⟩).exists_takes
        exact Nat.lt_of_lt_of_le (Nat.lt_succ_self pos) (Nat.le_trans htakes.pos_le (pos_le_closeGroupIn _))
    | _ => exact Nat.lt_succ_self pos

theorem lt_expression_pos {min : Int} (hc : c.rest ≠ []) :
    c.pos < (c.expression lim (calls + 2) min).2.pos := by
  have hfirst : c.pos < (c.primary lim (calls + 1)).2.pos := lt_primary_pos hc
  cases hread : primary lim (calls + 1) c with
  | mk result c₁ =>
    rw [hread] at hfirst
    cases result with
    | error e =>
      rw [expression_fault hread]
      exact hfirst
    | ok left =>
      rw [expression_operators hread]
      have hmoves : Moves lim.maxDepth c₁ Shown (climb lim.ranks (expression lim (calls + 1)) min c₁.rest left c₁) :=
        climb_moves (reads_move lim (calls + 1)).2 min c₁.rest left c₁
      obtain ⟨ts, htakes⟩ := hmoves.exists_takes
      exact Nat.lt_of_lt_of_le hfirst htakes.pos_le

theorem expression_pos_le_wholeIn (c : Cursor) :
    (c.expression lim calls 0).2.pos ≤ (c.wholeIn lim calls).2.pos := by
  unfold wholeIn
  generalize c.expression lim calls 0 = out
  obtain ⟨e | t, c₁⟩ := out
  · exact Nat.le_refl _
  · obtain ⟨ts, htakes⟩ := takeKind_takes .stop c₁
    dsimp only
    split
    case h_1 f c' htake => exact (htake ▸ htakes).pos_le
    case h_2 u c' htake => exact (htake ▸ htakes).pos_le

inductive Attempt where
  | primary
  | expression (min : Int)
  | whole
  deriving DecidableEq, Repr

namespace Attempt

def run (lim : Limits) (calls : Nat) : Attempt → Cursor → Outcome
  | primary, c => c.primary lim calls
  | expression min, c => c.expression lim calls min
  | whole, c => c.wholeIn lim calls

def Names (lim : Limits) (calls : Nat) (c : Cursor) (a : Attempt) (f : ReadFault) (named : Option Token) : Prop :=
  named = f.shown? ∨ a = .whole ∧ f = .tooDeep ∧ (c.expression lim calls 0).1 = .error (.cutShort named)

theorem wholeIn_moves (lim : Limits) (calls : Nat) (c : Cursor) :
    Moves lim.maxDepth c (whole.Names lim calls c) (c.wholeIn lim calls) := by
  have h := (reads_move lim calls).2 0 c
  cases hread : c.expression lim calls 0 with
  | mk result c₁ =>
    rw [hread] at h
    simp only [wholeIn, hread]
    cases result with
    | error e =>
      obtain ⟨named, ts, rfl, hbreaks⟩ := h
      refine ⟨e.shown?, ts, ?_, hbreaks⟩
      cases e with
      | cutShort naming =>
        -- a message is cut short inside a call, so there was one to open, which is room for the message of a whole
        cases calls with
        | zero => cases hread
        | succ calls =>
          have hroom : ReadFault.tooDeep.within (calls + 1) = .tooDeep := if_pos (Nat.succ_pos calls)
          exact .inr ⟨rfl, hroom, by rw [hread]; rfl⟩
      | tooManyCalls => exact .inl (shown?_within .tooDeep calls).symm
      | _ => exact .inl rfl
    | ok t =>
      obtain ⟨ts, hpasses⟩ := h
      exact (hpasses.takeStop t).imp fun f named hnamed => .inl hnamed

theorem moves (lim : Limits) (calls : Nat) (a : Attempt) (c : Cursor) :
    Moves lim.maxDepth c (a.Names lim calls c) (a.run lim calls c) := by
  cases a with
  | primary => exact ((reads_move lim calls).1 c).imp fun _ _ => .inl
  | expression min => exact ((reads_move lim calls).2 min c).imp fun _ _ => .inl
  | whole => exact wholeIn_moves lim calls c

theorem lt_pos (a : Attempt) (hcalls : 2 ≤ calls) (hc : c.rest ≠ []) : c.pos < (a.run lim calls c).2.pos := by
  obtain ⟨calls, rfl⟩ : ∃ less, calls = less + 2 := ⟨calls - 2, by omega⟩
  cases a with
  | primary => exact lt_primary_pos hc
  | expression min => exact lt_expression_pos hc
  | whole => exact Nat.lt_of_lt_of_le (lt_expression_pos hc) (expression_pos_le_wholeIn c)

end Attempt

/-- What can be done with a cursor. A reading has so many calls to open. -/
inductive Step where
  | peek
  | advance
  | expect (kind : TokenKind)
  | rank (op : Operator)
  | read (calls : Nat) (a : Attempt)
  deriving DecidableEq, Repr

def Step.next (lim : Limits) : Step → Cursor → Cursor
  | peek, c | rank _, c => c
  | advance, c => c.take.2
  | expect kind, c => (c.takeKind kind).2
  | read calls a, c => (a.run lim calls c).2

def after (lim : Limits) (steps : List Step) (c : Cursor) : Cursor := steps.foldl (fun c s => s.next lim c) c

theorem Step.next_takes (lim : Limits) (s : Step) (c : Cursor) : ∃ ts, c.Takes ts (s.next lim c) := by
  cases s with
  | peek => exact ⟨[], .refl c⟩
  | rank op => exact ⟨[], .refl c⟩
  | advance => exact take_takes c
  | expect kind => exact takeKind_takes kind c
  | read calls a => exact (a.moves lim calls c).exists_takes

theorem Step.depth_le_next (lim : Limits) (s : Step) (c : Cursor) : c.depth ≤ (s.next lim c).depth := by
  cases s with
  | peek => exact Nat.le_refl _
  | rank op => exact Nat.le_refl _
  | advance => exact Nat.le_of_eq (take_depth c).symm
  | expect kind =>
    rw [next, takeKind_snd]
    exact Nat.le_of_eq (take_depth c).symm
  | read calls a => exact (a.moves lim calls c).depth_le

def On (ts : List Token) (c : Cursor) : Prop := c.pos ≤ ts.length ∧ c.rest = ts.drop c.pos

theorem Takes.on (h : c.Takes us c') (hc : c.On ts) : c'.On ts := by
  obtain ⟨hpos, hrest⟩ := hc
  have hlength := congrArg List.length hrest
  rw [h.rest, List.length_append, List.length_drop] at hlength
  refine ⟨by rw [h.pos]; omega, ?_⟩
  rw [h.pos, ← List.drop_drop, ← hrest, h.rest, List.drop_left]

theorem after_on (lim : Limits) (ts : List Token) (steps : List Step) (hc : c.On ts) : (c.after lim steps).On ts := by
  induction steps generalizing c with
  | nil => exact hc
  | cons s steps ih =>
    obtain ⟨us, htakes⟩ := s.next_takes lim c
    exact ih (htakes.on hc)

theorem Moves.exists_taken (h : Moves maxDepth c names out) (hc : c.On ts) :
    ∃ taken, ts.drop c.pos = taken ++ ts.drop out.2.pos ∧ out.2.pos = c.pos + taken.length ∧
      (∀ t, out.1 = .ok t → out.2.depth = c.depth ∧ Balanced taken) ∧
      ∀ f, out.1 = .error f →
        ∃ counted named, taken = counted ++ named.toList ∧ names f named ∧
          (out.2.depth : Int) = c.depth + balance counted ∧
          (out.2.depth : Int) ≤ max (c.depth : Int) maxDepth + 1 := by
  have hdrop : ∀ {taken c'}, c.Takes taken c' → ts.drop c.pos = taken ++ ts.drop c'.pos := fun htakes => by
    rw [← hc.2, ← (htakes.on hc).2]
    exact htakes.rest
  obtain ⟨e | t, c'⟩ := out
  · obtain ⟨named, counted, hnames, hbreaks⟩ := h
    refine ⟨_, hdrop hbreaks.toTakes, hbreaks.pos, by simp, fun f hf => ?_⟩
    obtain rfl := Except.error.inj hf
    exact ⟨counted, named, rfl, hnames, hbreaks.depth, hbreaks.depth_le⟩
  · obtain ⟨taken, hpasses⟩ := h
    exact ⟨taken, hdrop hpasses.toTakes, hpasses.pos, fun _ _ => ⟨hpasses.depth, hpasses.balanced⟩, by simp⟩

theorem expression_cutShort (lim : Limits) (k pos depth : Nat) (r : List Token)
    (hd : (depth : Int) + k ≤ lim.maxDepth) :
    expression lim (2 * k + 2) 0 ⟨pos, List.replicate k .leftParen ++ .rightParen :: r, depth⟩ =
      (.error (.cutShort (some .rightParen)), ⟨pos + k + 1, r, depth + k⟩) := by
  induction k generalizing pos depth with
  | zero => rfl
  | succ k ih =>
    have hinner := ih (pos + 1) (depth + 1) (by omega)
    rw [List.replicate_succ, List.cons_append]
    refine expression_fault ?_
    rw [show 2 * (k + 1) + 1 = (2 * k + 2) + 1 by omega, primary_group (by omega), hinner, closeGroupIn,
      show pos + 1 + k + 1 = pos + (k + 1) + 1 by omega, show depth + 1 + k = depth + (k + 1) by omega]

end Cursor

end LetterArithmetic
