import LetterArithmetic.Text.Integer
import LetterArithmetic.Token
import LetterArithmetic.Tree.Walk

/-!
The value of a tree in checked unsigned arithmetic. A difference below zero, a division by zero, and a sum or
product above 64 bits are faults; division rounds toward the floor. Parts are computed left before right, so the
first fault in that order is the one reported. Only a tree assembled by hand has numbers beyond 64 bits.
-/

set_option autoImplicit false

namespace LetterArithmetic

inductive ArithmeticFault where
  | underflow (left right : Int)
  | divisionByZero (left : Int)
  | overflow (op : Operator) (left right : Int)
  deriving DecidableEq, Repr

def ArithmeticFault.message : ArithmeticFault → String
  | underflow l r => l.repr ++ " - " ++ r.repr ++ " is below zero"
  | divisionByZero l => l.repr ++ " / 0 divides by zero"
  | overflow op l r => l.repr ++ " " ++ String.singleton op.symbol ++ " " ++ r.repr ++ " does not fit in 64 bits"

def fitted (op : Operator) (l r value : Int) : Except ArithmeticFault Int :=
  if maxValue < value then .error (.overflow op l r) else .ok value

def Operator.apply (op : Operator) (l r : Int) : Except ArithmeticFault Int :=
  match op with
  | add => fitted add l r (l + r)
  | subtract => if l < r then .error (.underflow l r) else .ok (l - r)
  | multiply => fitted multiply l r (l * r)
  | divide => if r = 0 then .error (.divisionByZero l) else .ok (l.fdiv r)

def ArithmeticFault.operands : ArithmeticFault → List Int
  | underflow l r | overflow _ l r => [l, r]
  | divisionByZero l => [l]

inductive EvaluationFault where
  | arithmetic (f : ArithmeticFault)
  | tooLong (f : LongNumber)
  | unsupported (name : String)
  | walk (f : WalkFault)
  deriving DecidableEq, Repr

def EvaluationFault.message : EvaluationFault → String
  | arithmetic f => f.message
  | tooLong f => f.message
  | unsupported name => "Unsupported binary operator: " ++ name
  | walk f => f.message

/-- A fault with a number that cannot be written is told as that. -/
def ArithmeticFault.told (f : ArithmeticFault) : EvaluationFault :=
  if f.operands.all Text.isWritable then .arithmetic f else .tooLong {}

def Sign.apply (s : Sign) (l r : Int) : Except EvaluationFault Int :=
  match s with
  | known op => (op.apply l r).mapError ArithmeticFault.told
  | unknown name => .error (.unsupported name)

def Tree.evaluate (t : Tree) : Except EvaluationFault Int :=
  t.fold .walk id fun s _ _ l r => s.apply l r

def Tree.valueText (t : Tree) : Except EvaluationFault String :=
  t.evaluate >>= fun v => (Text.writeInteger v).mapError .tooLong

end LetterArithmetic
