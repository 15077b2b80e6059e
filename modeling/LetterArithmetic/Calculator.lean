import LetterArithmetic.Report
import LetterArithmetic.Text.Lowercase
import LetterArithmetic.Tree.Drawing
import LetterArithmetic.Tree.Walk

/-!
One expression, answered in full: the sections that were asked for, then the value or the fault. A section that
cannot be written or printed is a fault of the answer, except for a picture that is not made and an object that nests
too deep.
-/

set_option autoImplicit false

namespace LetterArithmetic

def calculate (text : String) : Except Fault Int :=
  match scan text with
  | .error f => .error (.scan f)
  | .ok ts =>
    match Tree.ofTokens {} ts with
    | .error f => .error (.read f)
    | .ok t => t.evaluate.mapError .evaluation

structure Picture where
  path : String
  format : Option String
  statements : List Drawing.Statement
  deriving DecidableEq, Repr

/-- What lies outside a calculation: making a picture, which may fail with a text; how many levels of a tree can be
written as nested objects; and the help text, which is laid out for the terminal. -/
structure Device where
  render : Picture → Option String
  levels : Nat := 900
  help : String := ""

/-- What can be printed, and the text of the error where something else is to be. Nothing of that is printed. -/
structure Output where
  encodes : Char → Bool
  refusal : String → String

namespace Output

def takes (out : Output) (s : String) : Bool := s.toList.all out.encodes

def unlimited : Output where
  encodes _ := true
  refusal _ := ""

end Output

structure Display where
  tokens : Bool := false
  outline : Bool := false
  grouping : Bool := false
  json : Bool := false
  picture : Option String := none
  format : Option String := some "svg"
  deriving DecidableEq, Repr

structure Answer where
  exit : Nat
  output : String
  pictures : List Picture := []
  deriving DecidableEq, Repr

/-- What is printed at one time in front of the last line of an answer, with the picture made for it. -/
structure Section where
  text : String
  pictures : List Picture := []
  deriving DecidableEq, Repr

inductive AnswerFault where
  | calculation (f : Fault)
  | token (f : LongNumber)
  | outline (f : OutlineFault)
  | grouping (f : WalkFault)
  | object (f : EncodingFault)
  | unprintable (message : String)

def AnswerFault.line : AnswerFault → String
  | calculation f => f.line
  | token f => "Unexpected error: " ++ f.message
  | outline f => "Unexpected error: " ++ f.message
  | grouping f => "Unexpected error: " ++ f.message
  | object f => "Unexpected error: " ++ f.message
  | unprintable message => "Unexpected error: " ++ message

namespace Section

def place (n : Nat) : String :=
  String.ofList (List.replicate (3 - n.repr.length) ' ') ++ n.repr

def tokenLine (i : Nat) (t : Token) : Except AnswerFault Section :=
  match t.text with
  | .ok s => .ok { text := "  " ++ place i ++ ": " ++ s ++ "\n" }
  | .error f => .error (.token f)

def tokens (ts : List Token) : List (Except AnswerFault Section) :=
  .ok { text := "Tokens (" ++ ts.length.repr ++ "):\n" } :: ((ts.take 50).mapIdx tokenLine ++
    if 50 < ts.length then [.ok { text := "  ... and " ++ (ts.length - 50).repr ++ " more\n" }] else [])

def outline (t : Tree) : List (Except AnswerFault Section) :=
  [.ok { text := "\nAST:\n" },
    match t.outline 0 "" with
    | .ok s => .ok { text := s ++ "\n" }
    | .error f => .error (.outline f)]

def grouping (t : Tree) : Except AnswerFault Section :=
  match t.grouping with
  | .ok s => .ok { text := "\nGrouping: " ++ s ++ "\n" }
  | .error f => .error (.grouping f)

def json (device : Device) (t : Tree) : Except AnswerFault Section :=
  match t.encode with
  | .ok j =>
    .ok { text :=
      if device.levels < t.height + 1 then "Failed to print AST as JSON: tree is too deep\n" else j.indented 0 ++ "\n" }
  | .error f => .error (.object f)

def noPicture (path fault : String) : Section where
  text := "Failed to render AST visualization to " ++ path ++ ": " ++ fault ++ "\n"

/-- The line about a picture, and the picture if it was made. A line that cannot be printed is a failure as well. -/
def picture (out : Output) (device : Device) (path : String) (format : Option String) (title : String) (t : Tree) :
    Section :=
  match t.drawing title with
  | .error f => noPicture path f.message
  | .ok statements =>
    let p : Picture := ⟨path, format, statements⟩
    match device.render p with
    | some fault => noPicture path fault
    | none =>
      let line := "Wrote AST visualization to " ++ path ++ "." ++ format.getD "[]" ++ "\n"
      { if out.takes line then ⟨line, []⟩ else noPicture path (out.refusal line) with pictures := [p] }

def ofTree (out : Output) (device : Device) (display : Display) (title : String) (t : Tree) :
    List (Except AnswerFault Section) :=
  (if display.outline then outline t else []) ++ (if display.grouping then [grouping t] else []) ++
    (if display.json then [json device t] else []) ++
    match display.picture with
    | some path => if path = "" then [] else [.ok (picture out device path display.format title t)]
    | none => []

end Section

namespace Answer

/-- A last line that cannot be printed leaves the program with the same exit status. -/
def ofFault (out : Output) (f : AnswerFault) : Answer :=
  let line := f.line ++ "\n"
  ⟨1, if out.takes line then line else "", []⟩

def ofValue (out : Output) : Except Fault Int → Answer
  | .ok v =>
    let line := "Result: " ++ v.repr ++ "\n"
    if out.takes line then ⟨0, line, []⟩ else ofFault out (.unprintable (out.refusal line))
  | .error f => ofFault out (.calculation f)

/-- An answer behind sections. The first section that cannot be written or printed ends the answer there. -/
def behind (out : Output) (a : Answer) : List (Except AnswerFault Section) → Answer
  | [] => a
  | .error f :: _ => ofFault out f
  | .ok s :: r =>
    if out.takes s.text then
      let rest := a.behind out r
      ⟨rest.exit, s.text ++ rest.output, s.pictures ++ rest.pictures⟩
    else { ofFault out (.unprintable (out.refusal s.text)) with pictures := s.pictures }

end Answer

def answerOn (out : Output) (device : Device) (display : Display) (text : String) : Answer :=
  match scan text with
  | .error f => .ofFault out (.calculation (.scan f))
  | .ok ts =>
    let listed := if display.tokens then Section.tokens ts else []
    match Tree.ofTokens {} ts with
    | .error f => (Answer.ofFault out (.calculation (.read f))).behind out listed
    | .ok t =>
      let title := String.ofList (Text.trim text.toList)
      let sections := listed ++ Section.ofTree out device display title t
      (Answer.ofValue out (t.evaluate.mapError .evaluation)).behind out sections

def answer (device : Device) (display : Display) (text : String) : Answer := answerOn .unlimited device display text

end LetterArithmetic
