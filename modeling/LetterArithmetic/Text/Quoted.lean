import LetterArithmetic.Text.Unseen

/-!
Quoted text, as messages show a value that was not expected. Apostrophes enclose the text, unless it holds an
apostrophe and no quotation mark. The enclosing mark and the backslash are escaped inside, and what cannot be
seen is written as a code.
-/

set_option autoImplicit false

namespace LetterArithmetic.Text

def hexDigits (width n : Nat) : List Char :=
  (List.range width).reverse.map fun i => Nat.digitChar (n >>> (4 * i) % 16)

def hexCode (n : Nat) : List Char :=
  if n < 0x100 then '\\' :: 'x' :: hexDigits 2 n
  else if n < 0x10000 then '\\' :: 'u' :: hexDigits 4 n
  else '\\' :: 'U' :: hexDigits 8 n

def quotedChar (mark c : Char) : List Char :=
  if c = mark ∨ c = '\\' then ['\\', c]
  else if c = '\n' then ['\\', 'n']
  else if c = '\r' then ['\\', 'r']
  else if c = '\t' then ['\\', 't']
  else if isUnseen c then hexCode c.toNat
  else [c]

def quoteMark (s : List Char) : Char :=
  if '\x27' ∈ s ∧ '\x22' ∉ s then '\x22' else '\x27'

def quoted (s : String) : String :=
  let mark := quoteMark s.toList
  String.ofList (mark :: s.toList.flatMap (quotedChar mark) ++ [mark])

example : quoted "it's\n" = "\"it's\\n\"" := by decide +kernel

end LetterArithmetic.Text
