import LetterArithmetic.Tree.Walk

/-!
Walks as recursion. A walk with lists of tasks and results does to a tree what plain recursion does, in any lawful
monad, so what a walk computes is shown by induction on the tree. Expressions are the trees that walks finish on.
-/

set_option autoImplicit false

namespace LetterArithmetic

namespace Visitor

variable {m : Type → Type} [Monad m] {α : Type}

def recurse (v : Visitor m α) : Tree → m α
  | .number n => v.number n
  | .bare k => v.bare k
  | .binary s l r => v.recurse l >>= fun a => v.recurse r >>= fun b => v.binary s l r a b

/-- A task of visiting a tree puts the tree's result on top of those at hand. -/
theorem run_visit [LawfulMonad m] (v : Visitor m α) (t : Tree) (tasks : List Task) (done : List α) :
    v.run (.visit t :: tasks) done = v.recurse t >>= fun a => v.run tasks (a :: done) := by
  induction t generalizing tasks done with
  | number n => rw [run, recurse]
  | bare k => rw [run, recurse]
  | binary s l r ihl ihr =>
    rw [run, ihl, recurse, bind_assoc]
    refine bind_congr fun a => ?_
    rw [ihr, bind_assoc]
    refine bind_congr fun b => ?_
    rw [run]

theorem run_tree [LawfulMonad m] (v : Visitor m α) (t : Tree) : v.run [.visit t] [] = some <$> v.recurse t := by
  rw [run_visit, map_eq_pure_bind]
  refine bind_congr fun a => ?_
  rw [run]

end Visitor

namespace Tree

theorem fold_eq_recurse {ε α : Type} (t : Tree) (fault : WalkFault → ε) (number : Int → α)
    (binary : Sign → Tree → Tree → α → α → Except ε α) :
    t.fold fault number binary =
      Visitor.recurse ⟨fun n => .ok (number n), binary, fun k => .error (fault (.bare k))⟩ t := by
  rw [fold, Visitor.run_tree]
  generalize Visitor.recurse (m := Except ε) _ t = result
  cases result with
  | error e => rfl
  | ok a => rfl

inductive IsExpression : Tree → Prop where
  | number (v : Int) : IsExpression (.number v)
  | binary (op : Operator) {l r : Tree} (left : IsExpression l) (right : IsExpression r) :
      IsExpression (.binary (.known op) l r)

/-- A walk that fails at none of the four operators gives an expression what any function gives it that obeys the same
equations. -/
theorem IsExpression.fold_eq_ok {ε α : Type} {t : Tree} (ht : t.IsExpression) (fault : WalkFault → ε)
    (number : Int → α) (binary : Sign → Tree → Tree → α → α → Except ε α) (result : Tree → α)
    (hnumber : ∀ v, result (.number v) = number v)
    (hbinary : ∀ op l r, binary (.known op) l r (result l) (result r) = .ok (result (.binary (.known op) l r))) :
    t.fold fault number binary = .ok (result t) := by
  rw [fold_eq_recurse]
  induction ht with
  | number v => exact congrArg Except.ok (hnumber v).symm
  | @binary op l r left right ihl ihr =>
    rw [Visitor.recurse, ihl, ihr]
    exact hbinary op l r

def leaves : Tree → List Int
  | number v => [v]
  | binary _ l r => l.leaves ++ r.leaves
  | bare _ => []

end Tree

end LetterArithmetic
