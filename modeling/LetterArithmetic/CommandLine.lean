import LetterArithmetic.Session
import LetterArithmetic.Text.Ranges

/-!
The command line: switches anywhere, at most one expression, and a separator after which nothing is a switch. A
long switch may be cut short as long as one only is meant.
-/

set_option autoImplicit false

namespace LetterArithmetic

namespace CommandLine

inductive Switch where
  | help | interactive | printTokens | printAst | printGrouping | json | vizAst | vizFormat
  deriving DecidableEq, Repr

namespace Switch

def spellings : List (String × Switch) :=
  [("-h", help), ("--help", help), ("--interactive", interactive), ("-i", interactive),
   ("--print-tokens", printTokens), ("--print-ast", printAst), ("--print-grouping", printGrouping),
   ("--json", json), ("--viz-ast", vizAst), ("--viz-format", vizFormat)]

def takesValue : Switch → Bool
  | vizAst | vizFormat => true
  | _ => false

end Switch

inductive Word where
  | plain (text : String)
  | separator
  | switch (s : Switch) (value : Option String)
  | unknown (text : String)
  deriving DecidableEq, Repr

inductive Rejection where
  | unrecognized (text : String)
  | ambiguous (text : String)
  | valueMissing (s : Switch)
  | valueUnwanted (s : Switch)
  | conflict
  | noExpression
  deriving DecidableEq, Repr

def withoutLineEnd (s : List Char) : List Char := if s.getLast? = some '\n' then s.dropLast else s

/-- Digits of any script behind a minus sign, with a point before some of them if need be. One line end may
follow. -/
def isNegativeNumber (s : List Char) : Bool :=
  match withoutLineEnd s with
  | '-' :: r =>
    match r.takeWhile Text.isDecimalDigit, r.dropWhile Text.isDecimalDigit with
    | _ :: _, [] => true
    | _, '.' :: d :: t => (d :: t).all Text.isDecimalDigit
    | _, _ => false
  | _ => false

def splitValue (s : List Char) : List Char × Option (List Char) :=
  match s.dropWhile (· != '=') with
  | [] => (s, none)
  | _ :: r => (s.takeWhile (· != '='), some r)

def short? (c : Char) : Option Switch := Switch.spellings.lookup (String.ofList ['-', c])

/-- Short switches written together behind one minus sign. If one of the characters after the first is no switch,
they are a value of the first. -/
def cluster (s : Switch) (r : List Char) : List Word :=
  match r.mapM short? with
  | some ss => (s :: ss).map fun s => .switch s none
  | none => [.switch s (some (String.ofList r))]

def classifyOther (a : String) : Except Rejection (List Word) :=
  let (name, value) := splitValue a.toList
  match Switch.spellings.lookup (String.ofList name), value with
  | some s, some v =>
    .ok (if name.length = 2 && v ≠ [] then cluster s v else [.switch s (some (String.ofList v))])
  | _, _ =>
    let meant := Switch.spellings.filter fun p => ['-', '-'].isPrefixOf name && name.isPrefixOf p.1.toList
    match meant, a.toList with
    | [(_, s)], _ => .ok [.switch s (value.map String.ofList)]
    | _ :: _ :: _, _ => .error (.ambiguous a)
    | [], '-' :: c :: r =>
      match short? c with
      | some s => .ok (cluster s r)
      | none => .ok [if isNegativeNumber a.toList || a.toList.contains ' ' then .plain a else .unknown a]
    | [], _ => .ok [.plain a]

def classify (a : String) : Except Rejection (List Word) :=
  match Switch.spellings.lookup a with
  | some s => .ok [.switch s none]
  | none => if a.toList.head? = some '-' then classifyOther a else .ok [.plain a]

def words : List String → Except Rejection (List Word)
  | [] => .ok []
  | a :: r =>
    if a = "--" then .ok (.separator :: r.map .plain)
    else
      match classify a, words r with
      | .ok ws, .ok vs => .ok (ws ++ vs)
      | .error e, _ | _, .error e => .error e

/-- What has been understood so far. `placed` says that the place of the expression is taken, if by nothing, and
`surplus` is the first word that found no place. -/
structure Settings where
  help : Bool := false
  interactive : Bool := false
  expression : Option String := none
  placed : Bool := false
  surplus : Option String := none
  display : Display := {}
  deriving DecidableEq, Repr

namespace Settings

def checked (st : Settings) : Except Rejection Settings :=
  if st.interactive && st.expression.isSome then .error .conflict else .ok st

def turnOn (st : Settings) : Switch → Settings
  | .help => { st with help := true }
  | .interactive => { st with interactive := true }
  | .printTokens => { st with display.tokens := true }
  | .printAst => { st with display.outline := true }
  | .printGrouping => { st with display.grouping := true }
  | .json => { st with display.json := true }
  | .vizAst | .vizFormat => st

/-- The separator, given as a value, leaves the switch without one. -/
def assign (st : Settings) (value : String) : Switch → Settings
  | .vizAst => { st with display.picture := if value = "--" then none else some value }
  | .vizFormat => { st with display.format := if value = "--" then none else some value }
  | _ => st

def leftOver (st : Settings) (text : String) : Settings := { st with surplus := st.surplus.or (some text) }

def place (st : Settings) (expression : Option String) (text : String) : Settings :=
  if st.placed then st.leftOver text else { st with expression, placed := true }

/-- Take in the words in order. The expression may have the separator on either side. A request for help ends the
reading at once. -/
def read (st : Settings) : List Word → Except Rejection Settings
  | [] => .ok st
  | .unknown text :: r => (st.leftOver text).read r
  | .switch s (some v) :: r => if s.takesValue then (st.assign v s).read r else .error (.valueUnwanted s)
  | .switch s none :: .plain v :: r =>
    if s.takesValue then (st.assign v s).read r
    else if s = .help then .ok (st.turnOn s)
    else
      match (st.turnOn s).checked with
      | .ok st => st.read (.plain v :: r)
      | .error e => .error e
  | .switch s none :: r =>
    if s.takesValue then .error (.valueMissing s)
    else if s = .help then .ok (st.turnOn s)
    else
      match (st.turnOn s).checked with
      | .ok st => st.read r
      | .error e => .error e
  | .plain t :: .separator :: r | .separator :: .plain t :: r | .plain t :: r =>
    match (st.place (some t) t).checked with
    | .ok st => st.read r
    | .error e => .error e
  | .separator :: r => (st.place none "--").read r

end Settings

inductive Command where
  | help
  | session (display : Display)
  | single (display : Display) (expression : String)
  deriving DecidableEq, Repr

def Settings.command (st : Settings) : Except Rejection Command :=
  if st.help then .ok .help
  else
    match st.surplus, st.expression with
    | some text, _ => .error (.unrecognized text)
    | none, some e => .ok (.single st.display e)
    | none, none => if st.interactive then .ok (.session st.display) else .error .noExpression

def command (args : List String) : Except Rejection Command :=
  match words args with
  | .error e => .error e
  | .ok ws =>
    match Settings.read {} ws with
    | .error e => .error e
    | .ok st => st.command

def outcome (device : Device) (args : List String) (input : String) : Answer :=
  match command args with
  | .error _ => ⟨2, "", []⟩
  | .ok .help => ⟨0, device.help, []⟩
  | .ok (.session d) => ⟨0, Session.transcript device d input, []⟩
  | .ok (.single d e) => answer device d e

end CommandLine

end LetterArithmetic
