import LetterArithmetic.Text.Decimal
import LetterArithmetic.Text.Integer
import LetterArithmetic.Text.Quoted

/-!
Values of the interchange format, with the order of an object's fields kept. A description shows a value inside a
message, unless a number in it is too long or it nests too deep for the stack; the written form is the format itself,
on one line or indented.
-/

set_option autoImplicit false

namespace LetterArithmetic

inductive Json where
  | null
  | bool (b : Bool)
  | int (n : Int)
  | decimal (d : Decimal)
  | string (s : String)
  | array (items : List Json)
  | object (fields : List (String × Json))

namespace Json

/-- The first field of a name. A missing one reads as null. -/
def field (fields : List (String × Json)) (name : String) : Json := (fields.lookup name).getD null

def typeName : Json → String
  | null => "NoneType"
  | bool _ => "bool"
  | int _ => "int"
  | decimal _ => "float"
  | string _ => "str"
  | array _ => "list"
  | object _ => "object"

inductive DescriptionFault where
  | long (f : LongNumber)
  | tooDeep
  deriving DecidableEq, Repr

def DescriptionFault.message : DescriptionFault → String
  | long f => f.message
  | tooDeep => "maximum recursion depth exceeded while getting the repr of an object"

def DescriptionFault.told : Except DescriptionFault String → String
  | .ok text => text
  | .error f => f.message

mutual

/-- A value as messages show it, with so many levels of the stack left. Each value takes one while it is described. -/
def describe (levels : Nat) (j : Json) : Except DescriptionFault String :=
  if levels = 0 then .error .tooDeep
  else
    match j with
    | null => .ok "None"
    | bool true => .ok "True"
    | bool false => .ok "False"
    | int n => (Text.writeInteger n).mapError .long
    | decimal d => .ok d.text
    | string s => .ok (Text.quoted s)
    | array items => (describeItems (levels - 1) items).map fun texts => "[" ++ ", ".intercalate texts ++ "]"
    | object fields => (describeFields (levels - 1) fields).map fun texts => "\x7b" ++ ", ".intercalate texts ++ "\x7d"

def describeItems (levels : Nat) : List Json → Except DescriptionFault (List String)
  | [] => .ok []
  | j :: r => describe levels j >>= fun text => (describeItems levels r).map (text :: ·)

def describeFields (levels : Nat) : List (String × Json) → Except DescriptionFault (List String)
  | [] => .ok []
  | (name, j) :: r =>
    describe levels j >>= fun text => (describeFields levels r).map ((Text.quoted name ++ ": " ++ text) :: ·)

end

/-- What is left of the stack where a value is read or written. -/
def usualLevels : Nat := 994

def units (c : Char) : List Nat :=
  if c.toNat < 0x10000 then [c.toNat]
  else [0xD800 + (c.toNat - 0x10000) / 0x400, 0xDC00 + (c.toNat - 0x10000) % 0x400]

/-- Short escapes where there are any; what lies outside ASCII's printable characters goes by its units. -/
def writtenChar (c : Char) : List Char :=
  if c = '\x22' ∨ c = '\\' then ['\\', c]
  else if c = '\n' then ['\\', 'n']
  else if c = '\r' then ['\\', 'r']
  else if c = '\t' then ['\\', 't']
  else if c = '\x08' then ['\\', 'b']
  else if c = '\x0c' then ['\\', 'f']
  else if 0x20 ≤ c.toNat ∧ c.toNat < 0x7F then [c]
  else (units c).flatMap fun n => '\\' :: 'u' :: Text.hexDigits 4 n

def writtenString (s : String) : String := String.ofList ('\x22' :: s.toList.flatMap writtenChar ++ ['\x22'])

mutual

def compact : Json → String
  | null => "null"
  | bool true => "true"
  | bool false => "false"
  | int n => n.repr
  | decimal d => d.text
  | string s => writtenString s
  | array items => "[" ++ ", ".intercalate (compactItems items) ++ "]"
  | object fields => "\x7b" ++ ", ".intercalate (compactFields fields) ++ "\x7d"

def compactItems : List Json → List String
  | [] => []
  | j :: r => j.compact :: compactItems r

def compactFields : List (String × Json) → List String
  | [] => []
  | (name, j) :: r => (writtenString name ++ ": " ++ j.compact) :: compactFields r

end

def lineAt (level : Nat) : String := String.ofList ('\n' :: List.replicate (2 * level) ' ')

def block (opening closing : String) (level : Nat) (items : List String) : String :=
  if items = [] then opening ++ closing
  else opening ++ lineAt (level + 1) ++ ("," ++ lineAt (level + 1)).intercalate items ++ lineAt level ++ closing

mutual

def indented (level : Nat) : Json → String
  | null => "null"
  | bool true => "true"
  | bool false => "false"
  | int n => n.repr
  | decimal d => d.text
  | string s => writtenString s
  | array items => block "[" "]" level (indentedItems (level + 1) items)
  | object fields => block "\x7b" "\x7d" level (indentedFields (level + 1) fields)

def indentedItems (level : Nat) : List Json → List String
  | [] => []
  | j :: r => j.indented level :: indentedItems level r

def indentedFields (level : Nat) : List (String × Json) → List String
  | [] => []
  | (name, j) :: r => (writtenString name ++ ": " ++ j.indented level) :: indentedFields level r

end

end Json

end LetterArithmetic
