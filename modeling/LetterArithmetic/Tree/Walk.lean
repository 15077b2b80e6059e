import LetterArithmetic.Tree

/-!
Walking a tree from the leaves up, left before right, with lists for the tasks ahead and for the results at hand.
A tree as tall as it has operators needs no deep recursion that way. The walk runs in any monad, so what is done
at a node may keep state or fail. Three things are made by it here: the tour of a tree, its infix form with every group
in parentheses, and its letters with only the groups that reading from the left needs.
-/

set_option autoImplicit false

namespace LetterArithmetic

/-- What to do at each kind of node. A binary node comes with its parts and with the results of both. -/
structure Visitor (m : Type → Type) (α : Type) where
  number : Int → m α
  binary : Sign → Tree → Tree → α → α → m α
  bare : NodeKind → m α

inductive Task where
  | visit (t : Tree)
  | combine (sign : Sign) (left right : Tree)

def Tree.steps : Tree → Nat
  | number _ | bare _ => 1
  | binary _ l r => l.steps + r.steps + 2

def Task.steps : Task → Nat
  | visit t => t.steps
  | combine .. => 1

/-- Work off the tasks in order; results lie latest first. The outcome is `none` where a combination lacks a
result, or where the tasks end with more or fewer than one. -/
@[specialize] def Visitor.run {m : Type → Type} [Monad m] {α : Type} (v : Visitor m α) :
    List Task → List α → m (Option α)
  | [], [a] => pure (some a)
  | [], _ => pure none
  | .visit (.number n) :: tasks, done => v.number n >>= fun a => v.run tasks (a :: done)
  | .visit (.bare k) :: tasks, done => v.bare k >>= fun a => v.run tasks (a :: done)
  | .visit (.binary s l r) :: tasks, done => v.run (.visit l :: .visit r :: .combine s l r :: tasks) done
  | .combine s l r :: tasks, b :: a :: done => v.binary s l r a b >>= fun c => v.run tasks (c :: done)
  | .combine .. :: _, _ => pure none
termination_by tasks => tasks.foldr (fun task n => task.steps + n) 0
decreasing_by
  all_goals simp [Task.steps, Tree.steps]
  omega

inductive WalkFault where
  | bare (kind : NodeKind)
  | unbalanced
  deriving DecidableEq, Repr

def WalkFault.message : WalkFault → String
  | bare k => "Unhandled expression node type: " ++ k.description
  | unbalanced => "pop from empty list"

@[inline] def Tree.fold {ε α : Type} (t : Tree) (fault : WalkFault → ε) (number : Int → α)
    (binary : Sign → Tree → Tree → α → α → Except ε α) : Except ε α :=
  match Visitor.run ⟨fun n => .ok (number n), binary, fun k => .error (fault (.bare k))⟩ [.visit t] [] with
  | .ok (some a) => .ok a
  | .ok none => .error (fault .unbalanced)
  | .error e => .error e

structure Tour where
  order : List String
  height : Nat
  size : Nat
  deriving DecidableEq, Repr

/-- The nodes met so far lie latest first. -/
abbrev Touring := StateT (List String) (Except WalkFault)

def Touring.visitor : Visitor Touring (Nat × Nat) where
  number v := fun met => .ok ((0, 1), v.repr :: met)
  binary s _ _ l r := fun met => .ok ((max l.1 r.1 + 1, l.2 + r.2 + 1), s.text :: met)
  bare k := fun _ => .error (.bare k)

def Tree.tour (t : Tree) : Except WalkFault Tour :=
  match (Touring.visitor.run [.visit t] []).run [] with
  | .ok (some (height, size), met) => .ok ⟨met.reverse, height, size⟩
  | .ok (none, _) => .error .unbalanced
  | .error f => .error f

def Tree.grouping (t : Tree) : Except WalkFault String :=
  t.fold id Int.repr fun s _ _ l r => .ok ("(" ++ l ++ " " ++ s.text ++ " " ++ r ++ ")")

inductive LettersFault where
  | noLetter (name : String)
  | walk (f : WalkFault)
  deriving DecidableEq, Repr

def LettersFault.message : LettersFault → String
  | noLetter name => Text.quoted name
  | walk f => f.message

/-- A chain groups from the left, so only a binary node on the right is put between `e` and `f`. -/
def Tree.letters (t : Tree) : Except LettersFault String :=
  t.fold .walk Int.repr fun s _ right l r =>
    match s with
    | .known op => .ok (l.push op.letter ++ if right.isBinary then "e" ++ r ++ "f" else r)
    | .unknown name => .error (.noLetter name)

end LetterArithmetic
