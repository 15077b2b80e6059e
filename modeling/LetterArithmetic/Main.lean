import LetterArithmetic.CommandLine

/-!
The program: prints what the command line answers, and keeps a session with the user.
-/

set_option autoImplicit false

namespace LetterArithmetic

/-- No drawing program is at hand, so no picture is made. -/
def noPictures : Device where
  render _ := some "no drawing program is available"

partial def converse (input output : IO.FS.Stream) (d : Display) : IO Unit := do
  output.putStr Session.prompt
  output.flush
  let line ← input.getLine
  if line = "" then output.putStr Session.ending
  else
    match Session.reply noPictures d line with
    | .last text => output.putStr text
    | .more text =>
      output.putStr text
      converse input output d

end LetterArithmetic

open LetterArithmetic in
def main (args : List String) : IO UInt32 := do
  let output ← IO.getStdout
  match CommandLine.command args with
  | .error e =>
    IO.eprintln (repr e)
    return 2
  | .ok (.session d) =>
    output.putStr Session.banner
    converse (← IO.getStdin) output d
    return 0
  | .ok _ =>
    let a := CommandLine.outcome noPictures args ""
    output.putStr a.output
    return a.exit.toUInt32
