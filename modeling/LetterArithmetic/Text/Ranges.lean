/-!
Sets of code points as lists of closed ranges, with the two that scanning and the command line ask about: blank
characters, which are trimmed at the ends of a text, and the decimal digits of all scripts. These tables and those
beside this module state version 14.0 of the Unicode standard.
-/

set_option autoImplicit false

namespace LetterArithmetic.Text

abbrev Ranges := List (Nat × Nat)

namespace Ranges

/-- Is `n` in one of the ranges? The first range that starts above `n` ends the search. -/
def has : Ranges → Nat → Bool
  | [], _ => false
  | (first, last) :: r, n => first ≤ n && (n ≤ last || has r n)

def ascending : Ranges → Bool
  | [] => true
  | [p] => p.1 ≤ p.2
  | p :: q :: r => p.1 ≤ p.2 && p.2 < q.1 && ascending (q :: r)

def size (rs : Ranges) : Nat := rs.foldr (fun (first, last) n => last + 1 - first + n) 0

end Ranges

/-- The white space of Unicode together with the four information separators that end the control characters. -/
def blankRanges : Ranges :=
  [(0x09, 0x0D), (0x1C, 0x20), (0x85, 0x85), (0xA0, 0xA0), (0x1680, 0x1680), (0x2000, 0x200A),
   (0x2028, 0x2029), (0x202F, 0x202F), (0x205F, 0x205F), (0x3000, 0x3000)]

def isBlank (c : Char) : Bool := blankRanges.has c.toNat

example : blankRanges.ascending = true ∧ blankRanges.size = 29 := by decide

def trim (s : List Char) : List Char := ((s.dropWhile isBlank).reverse.dropWhile isBlank).reverse

example : trim "\t 3a 4\n".toList = "3a 4".toList := by decide

/-- Where the digit zero stands in each script that has digits. The other nine follow it. -/
def zeroDigits : List Nat :=
  [0x30, 0x660, 0x6F0, 0x7C0, 0x966, 0x9E6, 0xA66, 0xAE6, 0xB66, 0xBE6, 0xC66, 0xCE6, 0xD66, 0xDE6, 0xE50, 0xED0,
   0xF20, 0x1040, 0x1090, 0x17E0, 0x1810, 0x1946, 0x19D0, 0x1A80, 0x1A90, 0x1B50, 0x1BB0, 0x1C40, 0x1C50, 0xA620,
   0xA8D0, 0xA900, 0xA9D0, 0xA9F0, 0xAA50, 0xABF0, 0xFF10, 0x104A0, 0x10D30, 0x11066, 0x110F0, 0x11136, 0x111D0,
   0x112F0, 0x11450, 0x114D0, 0x11650, 0x116C0, 0x11730, 0x118E0, 0x11950, 0x11C50, 0x11D50, 0x11DA0, 0x16A60,
   0x16AC0, 0x16B50, 0x1D7CE, 0x1D7D8, 0x1D7E2, 0x1D7EC, 0x1D7F6, 0x1E140, 0x1E2F0, 0x1E950, 0x1FBF0]

def isDecimalDigit (c : Char) : Bool := zeroDigits.any fun z => z ≤ c.toNat && c.toNat ≤ z + 9

example : isDecimalDigit '٣' = true ∧ isDecimalDigit '²' = false := by decide

end LetterArithmetic.Text
