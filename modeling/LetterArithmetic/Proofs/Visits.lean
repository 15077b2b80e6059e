import LetterArithmetic.Proofs.Walk

/-!
What a walk asks for at the nodes, which may see and change a state and may fail. Main statement: a walk with lists of
tasks and results makes the calls of plain recursion, in the same order and up to the same failure, and comes to the
same result.
-/

set_option autoImplicit false

namespace LetterArithmetic

abbrev Acting (σ ε : Type) := ExceptT ε (StateM σ)

namespace Acting

variable {σ ε α β : Type} {x : Acting σ ε α} {f : α → Acting σ ε β} {s s' : σ}

theorem bind_ok {a : α} (h : x s = (.ok a, s')) : (x >>= f) s = f a s' := by
  change (match x s with | (result, s') => ExceptT.bindCont f result s' : Except ε β × σ) = f a s'
  rw [h]
  rfl

theorem bind_error {e : ε} (h : x s = (.error e, s')) : (x >>= f) s = (.error e, s') := by
  change (match x s with | (result, s') => ExceptT.bindCont f result s' : Except ε β × σ) = (.error e, s')
  rw [h]
  rfl

theorem map_apply {g : α → β} {result : Except ε α} (h : x s = (result, s')) : (g <$> x) s = (result.map g, s') := by
  rw [map_eq_pure_bind]
  cases result with
  | ok a => exact bind_ok h
  | error e => exact bind_error h

end Acting

namespace Visitor

inductive Call (α : Type) where
  | number (value : Int)
  | binary (sign : Sign) (left right : Tree) (a b : α)
  deriving DecidableEq, Repr

section

variable {σ ε α : Type}

/-- What an action does at each call, and a failure at bare nodes. -/
def ofCalls (fault : WalkFault → ε) (act : Call α → Acting σ ε α) : Visitor (Acting σ ε) α where
  number n := act (.number n)
  binary g l r a b := act (.binary g l r a b)
  bare k := throw (fault (.bare k))

def recorded (act : Call α → Acting σ ε α) (call : Call α) : Acting (σ × List (Call α)) ε α := fun (s, calls) =>
  let (result, s') := act call s
  (result, s', calls ++ [call])

/-- The calls of recursion: on a tree and from the state `s`, these calls in this order, with this result and with the
state `s'` at the end. Nothing is called behind a failure. -/
inductive Makes (fault : WalkFault → ε) (act : Call α → Acting σ ε α) :
    Tree → σ → List (Call α) → Except ε α → σ → Prop where
  | number {n : Int} {s s' : σ} {result : Except ε α} (h : act (.number n) s = (result, s')) :
      Makes fault act (.number n) s [.number n] result s'
  | bare {k : NodeKind} {s : σ} : Makes fault act (.bare k) s [] (.error (fault (.bare k))) s
  | left {g : Sign} {l r : Tree} {s s' : σ} {calls : List (Call α)} {e : ε}
      (hl : Makes fault act l s calls (.error e) s') : Makes fault act (.binary g l r) s calls (.error e) s'
  | right {g : Sign} {l r : Tree} {s s₁ s' : σ} {calls more : List (Call α)} {a : α} {e : ε}
      (hl : Makes fault act l s calls (.ok a) s₁) (hr : Makes fault act r s₁ more (.error e) s') :
      Makes fault act (.binary g l r) s (calls ++ more) (.error e) s'
  | binary {g : Sign} {l r : Tree} {s s₁ s₂ s' : σ} {calls more : List (Call α)} {a b : α} {result : Except ε α}
      (hl : Makes fault act l s calls (.ok a) s₁) (hr : Makes fault act r s₁ more (.ok b) s₂)
      (h : act (.binary g l r a b) s₂ = (result, s')) :
      Makes fault act (.binary g l r) s (calls ++ more ++ [.binary g l r a b]) result s'

theorem exists_makes (fault : WalkFault → ε) (act : Call α → Acting σ ε α) (t : Tree) (s : σ) :
    ∃ calls result s', Makes fault act t s calls result s' := by
  induction t generalizing s with
  | number n => exact ⟨_, _, _, .number rfl⟩
  | bare k => exact ⟨_, _, _, .bare⟩
  | binary g l r ihl ihr =>
    obtain ⟨calls, result, s₁, hl⟩ := ihl s
    cases result with
    | error e => exact ⟨_, _, _, .left hl⟩
    | ok a =>
      obtain ⟨more, result, s₂, hr⟩ := ihr s₁
      cases result with
      | error e => exact ⟨_, _, _, .right hl hr⟩
      | ok b => exact ⟨_, _, _, .binary hl hr rfl⟩

variable {fault : WalkFault → ε} {act : Call α → Acting σ ε α}

theorem recorded_apply {call : Call α} {s s' : σ} {result : Except ε α} (h : act call s = (result, s'))
    (done : List (Call α)) : recorded act call (s, done) = (result, s', done ++ [call]) := by
  simp only [recorded, h]

namespace Makes

variable {t : Tree} {s s' : σ} {calls : List (Call α)} {result : Except ε α}

theorem recurse (h : Makes fault act t s calls result s') : (ofCalls fault act).recurse t s = (result, s') := by
  induction h with
  | number h => exact h
  | bare => rfl
  | left hl ihl => exact Acting.bind_error ihl
  | right hl hr ihl ihr =>
    rw [Visitor.recurse, Acting.bind_ok ihl]
    exact Acting.bind_error ihr
  | binary hl hr h ihl ihr =>
    rw [Visitor.recurse, Acting.bind_ok ihl, Acting.bind_ok ihr]
    exact h

theorem recurse_recorded (h : Makes fault act t s calls result s') (done : List (Call α)) :
    (ofCalls fault (recorded act)).recurse t (s, done) = (result, s', done ++ calls) := by
  induction h generalizing done with
  | number h => exact recorded_apply h done
  | bare =>
    rw [List.append_nil]
    rfl
  | left hl ihl => exact Acting.bind_error (ihl done)
  | @right g l r s s₁ s' calls more a e hl hr ihl ihr =>
    rw [Visitor.recurse, Acting.bind_ok (ihl done), ← List.append_assoc]
    exact Acting.bind_error (ihr (done ++ calls))
  | @binary g l r s s₁ s₂ s' calls more a b result hl hr h ihl ihr =>
    rw [Visitor.recurse, Acting.bind_ok (ihl done), Acting.bind_ok (ihr (done ++ calls)), ← List.append_assoc,
      ← List.append_assoc]
    exact recorded_apply h _

theorem run (h : Makes fault act t s calls result s') :
    (ofCalls fault act).run [.visit t] [] s = (result.map some, s') := by
  rw [run_tree]
  exact Acting.map_apply h.recurse

theorem run_recorded (h : Makes fault act t s calls result s') :
    (ofCalls fault (recorded act)).run [.visit t] [] (s, []) = (result.map some, s', calls) := by
  rw [run_tree]
  exact Acting.map_apply (h.recurse_recorded [])

end Makes

theorem map_some_injective {result result' : Except ε α} (h : result.map some = result'.map some) :
    result = result' := by
  cases result <;> cases result' <;> cases h <;> rfl

end

end Visitor

end LetterArithmetic
