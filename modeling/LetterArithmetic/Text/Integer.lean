/-!
Whole numbers as decimal text. Reading and writing have the same limit, a number of digits; a sign is no digit.
-/

set_option autoImplicit false

namespace LetterArithmetic

/-- The most digits that a number is read from, leading zeros counted, or written with. -/
def maxDigits : Nat := 4300

/-- A number with more digits. Their count is told of a text only. -/
structure LongNumber where
  digits : Option Nat := none
  deriving DecidableEq, Repr

def LongNumber.message (f : LongNumber) : String :=
  "Exceeds the limit (" ++ maxDigits.repr ++ " digits) for integer string conversion" ++
    (match f.digits with
      | some n => ": value has " ++ n.repr ++ " digits"
      | none => "") ++
    "; use sys.set_int_max_str_digits() to increase the limit"

def LongNumber.told : Except LongNumber String → String
  | .ok message => message
  | .error f => f.message

namespace Text

def isWritable (n : Int) : Bool := n.natAbs < Nat.pow 10 maxDigits

def writeInteger (n : Int) : Except LongNumber String := if isWritable n then .ok n.repr else .error {}

def readInteger (s : List Char) : Except LongNumber Int :=
  let digits := if s.head? = some '-' then s.tail else s
  let value : Int := Nat.ofDigitChars 10 digits 0
  if maxDigits < digits.length then .error ⟨digits.length⟩
  else .ok (if s.head? = some '-' then -value else value)

end Text

end LetterArithmetic
