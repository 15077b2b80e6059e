import LetterArithmetic.Text.Integer
import LetterArithmetic.Text.Ranges
import LetterArithmetic.Token

/-!
The scanner turns characters into tokens: one letter for each operator and parenthesis, a longest run of ASCII
digits for a number. It can be driven step by step, and a fault leaves it where the fault arose: on a character
that starts no token, or behind a whole digit run.
-/

set_option autoImplicit false

namespace LetterArithmetic

inductive ScanFault where
  | unrecognized (c : Char)
  | tooLarge (digits : List Char)
  | tooManyDigits (count : Nat)
  | noDigits
  deriving DecidableEq, Repr

def ScanFault.message : ScanFault → String
  | unrecognized c => "Unrecognized character: " ++ String.singleton c
  | tooLarge digits => "Number too large: " ++ String.ofList digits
  | tooManyDigits n => LongNumber.message ⟨n⟩
  | noDigits => "invalid literal for int() with base 10: ''"

def numeral (digits : List Char) : Except ScanFault Nat :=
  let value := Nat.ofDigitChars 10 digits 0
  if digits = [] then .error .noDigits
  else if maxDigits < digits.length then .error (.tooManyDigits digits.length)
  else if maxValue < value then .error (.tooLarge digits)
  else .ok value

/-- The characters still to be read, and how many steps have been taken; steps are counted past the end too. -/
structure Scanner where
  pos : Nat
  rest : List Char
  deriving DecidableEq, Repr

namespace Scanner

def ofText (s : String) : Scanner := ⟨0, Text.trim s.toList⟩

def current? (sc : Scanner) : Option Char := sc.rest.head?

def step (sc : Scanner) : Scanner := ⟨sc.pos + 1, sc.rest.tail⟩

/-- Read a longest run of digits, which is consumed even where it is refused. -/
def readNumber (sc : Scanner) : Except ScanFault Nat × Scanner :=
  let digits := sc.rest.takeWhile Char.isDigit
  (numeral digits, ⟨sc.pos + digits.length, sc.rest.dropWhile Char.isDigit⟩)

def next (sc : Scanner) : Except ScanFault Token × Scanner :=
  match sc.rest with
  | [] => (.ok .stop, sc)
  | c :: _ =>
    match Token.ofLetter? c with
    | some t => (.ok t, sc.step)
    | none =>
      if c.isDigit then
        let (value, after) := sc.readNumber
        (value.map fun v : Nat => .number v, after)
      else (.error (.unrecognized c), sc)

/-- Read tokens until `stop`, in front of which those in `done` go, latest first. Every token but `stop` takes at
least one character, so a budget of as many tokens as characters remain is enough. -/
def tokensLoop : Nat → List Token → Scanner → Except ScanFault (List Token) × Scanner
  | 0, done, sc => (.ok (done.reverse ++ [.stop]), sc)
  | budget + 1, done, sc =>
    match sc.next with
    | (.error e, after) => (.error e, after)
    | (.ok .stop, after) => (.ok (done.reverse ++ [.stop]), after)
    | (.ok t, after) => tokensLoop budget (t :: done) after

def tokens (sc : Scanner) : Except ScanFault (List Token) × Scanner := tokensLoop sc.rest.length [] sc

end Scanner

def scan (s : String) : Except ScanFault (List Token) := (Scanner.ofText s).tokens.1

end LetterArithmetic
