import LetterArithmetic.Calculator

/-!
A session answers line after line until a line says to quit or the lines end. Each answer depends on its own line
alone.
-/

set_option autoImplicit false

namespace LetterArithmetic

namespace Session

def banner : String :=
  "\nInteractive Calculator Mode (type 'quit' to exit)\n" ++
    "  a = +   b = -   c = *   d = /   e = (   f = )\n" ++ String.ofList (List.replicate 80 '=') ++ "\n"

def prompt : String := "\nEnter expression: "

def ending : String := "\n\nExiting...\n"

inductive Reply where
  | more (text : String)
  | last (text : String)
  deriving DecidableEq, Repr

def display (d : Display) : Display := { d with json := false, picture := none }

/-- A blank line is passed over; the words that quit may be in capitals. -/
def reply (device : Device) (d : Display) (line : String) : Reply :=
  let text := String.ofList (Text.trim line.toList)
  if ["quit", "exit", "q"].contains (Text.lowercase text) then .last "Goodbye!\n"
  else if text = "" then .more ""
  else .more (answer device (display d) text).output

def exchange (device : Device) (d : Display) : List String → String
  | [] => prompt ++ ending
  | line :: r =>
    match reply device d line with
    | .last text => prompt ++ text
    | .more text => prompt ++ text ++ exchange device d r

/-- Lines end at a line feed; characters after the last one are a line too. -/
def linesFrom (line : List Char) : List Char → List String
  | [] => if line = [] then [] else [String.ofList line.reverse]
  | '\n' :: r => String.ofList line.reverse :: linesFrom [] r
  | c :: r => linesFrom (c :: line) r

def lines (input : String) : List String := linesFrom [] input.toList

def transcript (device : Device) (d : Display) (input : String) : String :=
  banner ++ exchange device d (lines input)

end Session

end LetterArithmetic
