import LetterArithmetic.Token
import LetterArithmetic.Tree

/-!
Phrases: trees that remember the groups they are written in. A phrase spells a list of tokens, and a rank table says
which phrases are well ranked. Main statement: a list of tokens is spelled by at most one well-ranked phrase, which
is seen from the balance of opening and closing tokens around each operator.
-/

set_option autoImplicit false

namespace LetterArithmetic

/-- A tree over numbers and operators with marks on some of its parts, one for each group around the part. -/
inductive Phrase where
  | number (value : Int)
  | group (inner : Phrase)
  | binary (op : Operator) (left right : Phrase)
  deriving DecidableEq, Repr

namespace Phrase

def tree : Phrase → Tree
  | number v => .number v
  | group p => p.tree
  | binary op l r => .binary (.known op) l.tree r.tree

def tokens : Phrase → List Token
  | number v => [.number v]
  | group p => .leftParen :: (p.tokens ++ [.rightParen])
  | binary op l r => l.tokens ++ .operator op :: r.tokens

def nesting : Phrase → Nat
  | number _ => 0
  | group p => p.nesting + 1
  | binary _ l r => max l.nesting r.nesting

def Binds (ranks : Ranks) (min : Int) : Phrase → Prop
  | number _ | group _ => True
  | binary op _ _ => ∃ k ∈ ranks op, min ≤ k

/-- Every operator has a rank that is not below zero, at which its left part binds, and above which its right part
does. -/
def WellRanked (ranks : Ranks) : Phrase → Prop
  | number _ => True
  | group p => p.WellRanked ranks
  | binary op l r =>
    ∃ k ∈ ranks op, 0 ≤ k ∧ l.Binds ranks k ∧ r.Binds ranks (k + 1) ∧ l.WellRanked ranks ∧ r.WellRanked ranks

instance decidableBinds (ranks : Ranks) (min : Int) (p : Phrase) : Decidable (p.Binds ranks min) :=
  match p with
  | number _ | group _ => .isTrue trivial
  | binary op _ _ => Option.decidableExistsMem (ranks op)

instance decidableWellRanked (ranks : Ranks) : (p : Phrase) → Decidable (p.WellRanked ranks)
  | number _ => .isTrue trivial
  | group p => decidableWellRanked ranks p
  | binary op l r =>
    have := decidableWellRanked ranks l
    have := decidableWellRanked ranks r
    Option.decidableExistsMem (ranks op)

example : (binary .add (number 1) (group (binary .add (number 2) (number 3)))).WellRanked Ranks.level ∧
    ¬(binary .add (number 1) (binary .add (number 2) (number 3))).WellRanked Ranks.level := by decide

theorem stop_notMem_tokens (p : Phrase) : Token.stop ∉ p.tokens := by
  induction p <;> simp_all [tokens]

end Phrase

def Token.opening : Token → Int
  | leftParen => 1
  | rightParen => -1
  | _ => 0

def balance : List Token → Int
  | [] => 0
  | t :: r => t.opening + balance r

@[simp] theorem balance_append (ts us : List Token) : balance (ts ++ us) = balance ts + balance us := by
  induction ts with
  | nil => simp [balance]
  | cons t r ih =>
    simp only [List.cons_append, balance, ih]
    omega

namespace Phrase

@[simp] theorem balance_tokens (p : Phrase) : balance p.tokens = 0 := by
  induction p <;> simp_all [tokens, balance, Token.opening]

theorem split_cases {x y z w : List Token} {t u : Token} (h : x ++ t :: y = z ++ u :: w) :
    (∃ m, z = x ++ t :: m ∧ y = m ++ u :: w) ∨ (x = z ∧ t = u ∧ y = w) ∨ ∃ m, x = z ++ u :: m ∧ w = m ++ t :: y := by
  obtain ⟨m, rfl, hm⟩ | ⟨m, rfl, hm⟩ := List.append_eq_append_iff.mp h
  · cases m with
    | nil => simp_all
    | cons v m => simp_all
  · cases m with
    | nil => simp_all
    | cons v m => simp_all

theorem balance_start (p : Phrase) {x y : List Token} (h : p.tokens = x ++ y) : 0 ≤ balance x := by
  induction p generalizing x y with
  | number v =>
    cases x with
    | nil => simp [balance]
    | cons t x =>
      simp only [tokens, List.cons_append, List.cons.injEq, List.nil_eq_append_iff] at h
      obtain ⟨rfl, rfl, -⟩ := h
      simp [balance, Token.opening]
  | group p ih =>
    cases x with
    | nil => simp [balance]
    | cons t x =>
      simp only [tokens, List.cons_append, List.cons.injEq] at h
      obtain ⟨rfl, h⟩ := h
      obtain ⟨a, rfl, ha⟩ | ⟨a, ha, -⟩ := List.append_eq_append_iff.mp h
      · obtain ⟨rfl, -⟩ | ⟨rfl, -⟩ := List.append_eq_singleton_iff.mp ha.symm
        · simp [balance, Token.opening]
        · simp [balance, Token.opening]
      · have := ih ha
        simp only [balance, Token.opening]
        omega
  | binary op l r ihl ihr =>
    simp only [tokens] at h
    obtain ⟨a, rfl, ha⟩ | ⟨a, ha, -⟩ := List.append_eq_append_iff.mp h
    · cases a with
      | nil => simp
      | cons u a =>
        simp only [List.cons_append, List.cons.injEq] at ha
        obtain ⟨rfl, ha⟩ := ha
        have := ihr ha
        simp only [balance_append, balance_tokens, balance, Token.opening]
        omega
    · exact ihl ha

/-- An operator outside all groups of a phrase shows that the phrase is binary without a mark, and that it binds at
no higher rank than the operator has. -/
theorem open_operator {ranks : Ranks} {p : Phrase} (hp : p.WellRanked ranks) {x y : List Token} {op : Operator}
    (h : p.tokens = x ++ .operator op :: y) (hx : balance x = 0) :
    (∃ o l r, p = binary o l r) ∧ ∀ min, p.Binds ranks min → ∃ k ∈ ranks op, min ≤ k := by
  induction p generalizing x y with
  | number v => cases x <;> simp [tokens] at h
  | group p ih =>
    cases x with
    | nil => simp [tokens] at h
    | cons t x =>
      simp only [tokens, List.cons_append, List.cons.injEq] at h
      obtain ⟨rfl, h⟩ := h
      simp only [balance, Token.opening] at hx
      obtain ⟨m, -, hm⟩ | ⟨-, ht, -⟩ | ⟨m, hm, -⟩ := split_cases h
      · simp at hm
      · cases ht
      · have := p.balance_start hm
        omega
  | binary o l r ihl ihr =>
    obtain ⟨k, hk, -, hl, hr, hlw, hrw⟩ := hp
    refine ⟨⟨o, l, r, rfl⟩, fun min hmin => ?_⟩
    obtain ⟨j, hj, hmj⟩ := hmin
    obtain rfl : j = k := Option.mem_unique hj hk
    -- the operator stands behind, at or before the one that is applied last
    obtain ⟨m, rfl, hm⟩ | ⟨rfl, ho, -⟩ | ⟨m, hm, -⟩ := split_cases h
    · have hx' : balance m = 0 := by simpa [balance, Token.opening] using hx
      obtain ⟨k', hk', hle⟩ := (ihr hrw hm hx').2 _ hr
      exact ⟨k', hk', by omega⟩
    · cases ho
      exact ⟨j, hk, hmj⟩
    · obtain ⟨k', hk', hle⟩ := (ihl hlw hm hx).2 _ hl
      exact ⟨k', hk', by omega⟩

theorem left_not_shorter {ranks : Ranks} {o₁ o₂ : Operator} {l₁ r₁ l₂ r₂ : Phrase} {z : List Token}
    (h₁ : (binary o₁ l₁ r₁).WellRanked ranks) (h₂ : (binary o₂ l₂ r₂).WellRanked ranks)
    (hl : l₂.tokens = l₁.tokens ++ .operator o₁ :: z) : r₁.tokens ≠ z ++ .operator o₂ :: r₂.tokens := by
  intro hr
  obtain ⟨k₁, hk₁, -, -, hb₁, -, hw₁⟩ := h₁
  obtain ⟨k₂, hk₂, -, hb₂, -, hw₂, -⟩ := h₂
  have hz : balance z = 0 := by
    have := congrArg balance hl
    simpa [balance, Token.opening] using this.symm
  obtain ⟨j₁, hj₁, hle₁⟩ := (open_operator hw₂ hl l₁.balance_tokens).2 _ hb₂
  obtain ⟨j₂, hj₂, hle₂⟩ := (open_operator hw₁ hr hz).2 _ hb₁
  obtain rfl := Option.mem_unique hj₁ hk₁
  obtain rfl := Option.mem_unique hj₂ hk₂
  omega

theorem tokens_ne_of_not_binary {ranks : Ranks} {p : Phrase} (hp : p.WellRanked ranks) (hb : ∀ o l r, p ≠ binary o l r)
    (op : Operator) (l r : Phrase) : p.tokens ≠ (binary op l r).tokens := by
  intro h
  obtain ⟨⟨o, l', r', rfl⟩, -⟩ := open_operator hp h l.balance_tokens
  exact hb o l' r' rfl

/-- A well-ranked phrase can be told from its tokens. -/
theorem eq_of_tokens_eq {ranks : Ranks} {p q : Phrase} (hp : p.WellRanked ranks) (hq : q.WellRanked ranks)
    (h : p.tokens = q.tokens) : p = q := by
  induction p generalizing q with
  | number v =>
    cases q with
    | number w => simp_all [tokens]
    | group q => simp [tokens] at h
    | binary o l r => exact absurd h (tokens_ne_of_not_binary hp (by simp) o l r)
  | group p ih =>
    cases q with
    | number w => simp [tokens] at h
    | group q =>
      simp only [tokens, List.cons.injEq, List.append_cancel_right_eq, true_and] at h
      have hq' : q.WellRanked ranks := hq
      rw [ih hp hq' h]
    | binary o l r => exact absurd h (tokens_ne_of_not_binary hp (by simp) o l r)
  | binary o₁ l₁ r₁ ihl ihr =>
    cases q with
    | number w => exact absurd h.symm (tokens_ne_of_not_binary hq (by simp) o₁ l₁ r₁)
    | group q => exact absurd h.symm (tokens_ne_of_not_binary hq (by simp) o₁ l₁ r₁)
    | binary o₂ l₂ r₂ =>
      obtain ⟨m, hl, hr⟩ | ⟨hl, ho, hr⟩ | ⟨m, hl, hr⟩ := split_cases h
      · exact absurd hr (left_not_shorter hp hq hl)
      · cases ho
        obtain ⟨k, -, -, -, -, hlw, hrw⟩ := hp
        obtain ⟨k', -, -, -, -, hlw', hrw'⟩ := hq
        rw [ihl hlw hlw' hl, ihr hrw hrw' hr]
      · exact absurd hr (left_not_shorter hq hp hl)

end Phrase

end LetterArithmetic
