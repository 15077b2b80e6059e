import LetterArithmetic.Reader
import LetterArithmetic.Scanner
import LetterArithmetic.Tree.Arithmetic
import LetterArithmetic.Tree.Encoding
import LetterArithmetic.Tree.Outline

/-!
Faults by the kind of error that they are raised as, and reports, which are what a user sees of the faults of a
calculation. A report is about the reading of a text, and names the stage that refused it, or about its arithmetic.
Some faults have no report: they come from limits outside the notation.
-/

set_option autoImplicit false

namespace LetterArithmetic

inductive Stage where
  | tokenizer | parser
  deriving DecidableEq, Repr

def Stage.name : Stage → String
  | tokenizer => "Tokenizer"
  | parser => "Parser"

inductive ArithmeticKind where
  | general | divisionByZero | underflow | overflow
  deriving DecidableEq, Repr

def ArithmeticKind.name : ArithmeticKind → String
  | general => "EvaluationError"
  | divisionByZero => "DivisionByZeroError"
  | underflow => "UnderflowError"
  | overflow => "ResultOverflowError"

inductive ErrorKind where
  | misread
  | arithmetic (kind : ArithmeticKind)
  | value | key | index | noAttribute | overflow | runtime | recursion
  deriving DecidableEq, Repr

namespace ErrorKind

/-- The classes that an error belongs to. The first is its own, and the others are the more general ones. -/
def classes : ErrorKind → List String
  | misread => ["ExpressionSyntaxError", "SyntaxError", "Exception"]
  | arithmetic .general => ["EvaluationError", "ArithmeticError", "Exception"]
  | arithmetic kind => [kind.name, "EvaluationError", "ArithmeticError", "Exception"]
  | value => ["ValueError", "Exception"]
  | key => ["KeyError", "LookupError", "Exception"]
  | index => ["IndexError", "LookupError", "Exception"]
  | noAttribute => ["AttributeError", "Exception"]
  | overflow => ["OverflowError", "ArithmeticError", "Exception"]
  | runtime => ["RuntimeError", "Exception"]
  | recursion => ["RecursionError", "RuntimeError", "Exception"]

def name (k : ErrorKind) : String := k.classes.headD "Exception"

end ErrorKind

inductive Report where
  | misread (stage : Stage) (message : String)
  | arithmetic (kind : ArithmeticKind) (message : String)
  deriving DecidableEq, Repr

namespace Report

def kind : Report → ErrorKind
  | misread .. => .misread
  | arithmetic kind _ => .arithmetic kind

def message : Report → String
  | misread _ m | arithmetic _ m => m

def text : Report → String
  | misread stage m => stage.name ++ " Error " ++ m
  | arithmetic _ m => "Arithmetic Error " ++ m

def description : Report → String
  | misread stage m => "ExpressionSyntaxError(" ++ stage.name ++ ", " ++ Text.quoted m ++ ")"
  | arithmetic kind m => kind.name ++ "(" ++ Text.quoted m ++ ")"

/-- What identifies a report. Each arithmetic report is an event of its own, and has no key. -/
def key? : Report → Option (Stage × String)
  | misread stage m => some (stage, m)
  | arithmetic .. => none

def agrees (r s : Report) : Bool := r.key?.isSome && r.key? == s.key?

end Report

def ScanFault.kind : ScanFault → ErrorKind
  | unrecognized _ | tooLarge _ => .misread
  | tooManyDigits _ | noDigits => .value

def ScanFault.report? : ScanFault → Option Report
  | f@(unrecognized _) | f@(tooLarge _) => some (.misread .tokenizer f.message)
  | tooManyDigits _ | noDigits => none

/-- A fault whose message cannot be written is raised as that. -/
def ReadFault.kind : ReadFault → ErrorKind
  | unranked _ => .key
  | tooManyCalls | cutShort _ => .recursion
  | f =>
    match f.written with
    | .ok _ => .misread
    | .error _ => .value

def ReadFault.report? (f : ReadFault) : Option Report :=
  if f.kind = .misread then some (.misread .parser f.message) else none

def WalkFault.kind : WalkFault → ErrorKind
  | bare _ => .runtime
  | unbalanced => .index

def LettersFault.kind : LettersFault → ErrorKind
  | noLetter _ => .key
  | walk f => f.kind

def OutlineFault.kind : OutlineFault → ErrorKind
  | indentation => .overflow
  | long _ => .value

def ArithmeticFault.kind : ArithmeticFault → ArithmeticKind
  | underflow .. => .underflow
  | divisionByZero _ => .divisionByZero
  | overflow .. => .overflow

def EvaluationFault.kind : EvaluationFault → ErrorKind
  | arithmetic f => .arithmetic f.kind
  | tooLong _ => .value
  | unsupported _ => .runtime
  | walk f => f.kind

def EvaluationFault.report? : EvaluationFault → Option Report
  | arithmetic f => some (.arithmetic f.kind f.message)
  | tooLong _ | unsupported _ | walk _ => none

def Json.DescriptionFault.kind : DescriptionFault → ErrorKind
  | long _ => .value
  | tooDeep => .recursion

def Json.DescriptionFault.kindOr (kind : ErrorKind) : Except DescriptionFault String → ErrorKind
  | .ok _ => kind
  | .error f => f.kind

def EncodingFault.kind : EncodingFault → ErrorKind
  | notATree value => Json.DescriptionFault.kindOr .value (value.describe Json.usualLevels)
  | bareRoot _ => .value
  | noSymbol _ => .noAttribute
  | walk f => f.kind

def DecodingFault.kind (levels : Nat) : DecodingFault → ErrorKind
  | unbalanced => .index
  | f => Json.DescriptionFault.kindOr .value (f.written levels)

inductive Fault where
  | scan (f : ScanFault)
  | read (f : ReadFault)
  | evaluation (f : EvaluationFault)
  deriving DecidableEq, Repr

namespace Fault

def kind : Fault → ErrorKind
  | scan f => f.kind
  | read f => f.kind
  | evaluation f => f.kind

def message : Fault → String
  | scan f => f.message
  | read f => f.message
  | evaluation f => f.message

def report? : Fault → Option Report
  | scan f => f.report?
  | read f => f.report?
  | evaluation f => f.report?

def line (f : Fault) : String :=
  match f.report? with
  | some r => r.text
  | none => "Unexpected error: " ++ f.message

end Fault

end LetterArithmetic
