import LetterArithmetic.Operator
import LetterArithmetic.Text.Integer

/-!
Tokens of the letter notation. A `Token` carries a value exactly when it is a number. A `TokenRecord` is a kind
with a value that may be missing or out of place, as when tokens are assembled by hand.
-/

set_option autoImplicit false

namespace LetterArithmetic

def maxValue : Nat := UInt64.size - 1

inductive TokenKind where
  | number | plus | minus | star | slash | leftParen | rightParen | stop
  deriving DecidableEq, Repr

namespace TokenKind

def name : TokenKind → String
  | number => "Number"
  | plus => "Plus"
  | minus => "Minus"
  | star => "Star"
  | slash => "Slash"
  | leftParen => "LeftParen"
  | rightParen => "RightParen"
  | stop => "End"

def all : List TokenKind := [number, plus, minus, star, slash, leftParen, rightParen, stop]

def ofName? (s : String) : Option TokenKind := all.find? fun k => k.name == s

def operator? : TokenKind → Option Operator
  | plus => some .add
  | minus => some .subtract
  | star => some .multiply
  | slash => some .divide
  | _ => none

end TokenKind

def Operator.tokenKind : Operator → TokenKind
  | add => .plus
  | subtract => .minus
  | multiply => .star
  | divide => .slash

inductive Token where
  | number (value : Int)
  | operator (op : Operator)
  | leftParen
  | rightParen
  | stop
  deriving DecidableEq, Repr

namespace Token

def kind : Token → TokenKind
  | number _ => .number
  | operator op => op.tokenKind
  | leftParen => .leftParen
  | rightParen => .rightParen
  | stop => .stop

def text : Token → Except LongNumber String
  | number v => (Text.writeInteger v).map fun s => "Number(" ++ s ++ ")"
  | t => .ok t.kind.name

def ofLetter? : Char → Option Token
  | 'a' => some (operator .add)
  | 'b' => some (operator .subtract)
  | 'c' => some (operator .multiply)
  | 'd' => some (operator .divide)
  | 'e' => some leftParen
  | 'f' => some rightParen
  | _ => none

end Token

structure TokenRecord where
  kind : TokenKind
  value : Option Int := none
  deriving DecidableEq, Repr

def Token.toRecord : Token → TokenRecord
  | .number v => ⟨.number, some v⟩
  | t => ⟨t.kind, none⟩

namespace TokenRecord

def valueText (r : TokenRecord) : Except LongNumber String :=
  match r.value with
  | some v => Text.writeInteger v
  | none => .ok "None"

/-- Only a number shows its value, and it shows a missing one too. -/
def text (r : TokenRecord) : Except LongNumber String :=
  if r.kind = .number then r.valueText.map fun s => "Number(" ++ s ++ ")" else .ok r.kind.name

def description (r : TokenRecord) : Except LongNumber String :=
  r.valueText.map fun s => "Token(" ++ r.kind.name ++ ", " ++ s ++ ")"

def isOperator (r : TokenRecord) : Bool := r.kind.operator?.isSome

end TokenRecord

structure NotAnOperator where
  token : TokenRecord
  deriving DecidableEq, Repr

def NotAnOperator.message (f : NotAnOperator) : String :=
  LongNumber.told (f.token.text.map ("Not an operator token: " ++ ·))

def TokenRecord.operator (r : TokenRecord) : Except NotAnOperator Operator :=
  match r.kind.operator? with
  | some op => .ok op
  | none => .error ⟨r⟩

structure UnknownKind where
  text : String
  deriving DecidableEq, Repr

def UnknownKind.message (f : UnknownKind) : String := Text.quoted f.text ++ " is not a valid TokenType"

def TokenKind.ofName (s : String) : Except UnknownKind TokenKind :=
  match ofName? s with
  | some k => .ok k
  | none => .error ⟨s⟩

end LetterArithmetic
