/-!
The shortest text of a decimal number, once it is rounded to binary64. Of the grids of powers of ten, the
coarsest that has a point which rounds to the same binary value gives the digits; of two such points the nearer
one is taken, and of two equally near the even one.
-/

set_option autoImplicit false

namespace LetterArithmetic

structure Decimal where
  negative : Bool
  digits : Nat
  exponent : Int
  deriving DecidableEq, Repr

namespace Decimal

/-- The value `m * 2 ^ q`; `narrow` says that the value below is half as far away as the value above. -/
structure Binary where
  m : Nat
  q : Int
  narrow : Bool

def Binary.ofBits (b : UInt64) : Binary :=
  let e := (b >>> 52 &&& 0x7FF).toNat
  let f := (b &&& 0xFFFFFFFFFFFFF).toNat
  if e = 0 then ⟨f, -1074, false⟩ else ⟨0x10000000000000 + f, e - 1075, f = 0 && 1 < e⟩

def compareScaled (a : Nat) (i : Int) (n : Nat) (j : Int) : Ordering :=
  compare ((a * Nat.pow 10 i.toNat) <<< (-j).toNat) ((n <<< j.toNat) * Nat.pow 10 (-i).toNat)

/-- Does `a * 10 ^ i` round to the value? The reals that do reach halfway to either neighbour, and take in both
ends where `m` is even. -/
def Binary.covers (x : Binary) (i : Int) (a : Nat) : Bool :=
  let low := compareScaled a i (4 * x.m - if x.narrow then 1 else 2) (x.q - 2)
  let high := compareScaled a i (4 * x.m + 2) (x.q - 2)
  let ends := x.m % 2 = 0
  (low = .gt || ends && low = .eq) && (high = .lt || ends && high = .eq)

def Binary.below (x : Binary) (i : Int) : Nat :=
  (x.m <<< x.q.toNat) * Nat.pow 10 (-i).toNat / (Nat.pow 10 i.toNat <<< (-x.q).toNat)

def Binary.point? (x : Binary) (i : Int) : Option Nat :=
  let a := x.below i
  match 0 < a && x.covers i a, x.covers i (a + 1) with
  | true, true =>
    match compareScaled (2 * a + 1) i x.m (x.q + 1) with
    | .lt => some (a + 1)
    | .gt => some a
    | .eq => some (if a % 2 = 0 then a else a + 1)
  | true, false => some a
  | false, true => some (a + 1)
  | false, false => none

/-- Digits and exponent on the coarsest grid; every finite value lies on the finest one tried. -/
def Binary.shortest (x : Binary) : Nat × Int :=
  let grids := (List.range 1400).map fun i : Nat => (310 : Int) - i
  (grids.findSome? fun i => (x.point? i).map fun a => (a, i)).getD (0, 0)

def zeros (n : Int) : List Char := List.replicate n.toNat '0'

def layout (digits : List Char) (exponent : Int) : List Char :=
  let point := digits.length + exponent
  if -4 < point ∧ point ≤ 16 then
    if point ≤ 0 then "0.".toList ++ zeros (-point) ++ digits
    else if 0 ≤ exponent then digits ++ zeros exponent ++ ".0".toList
    else digits.take point.toNat ++ '.' :: digits.drop point.toNat
  else
    let power := Nat.toDigits 10 (point - 1).natAbs
    digits.take 1 ++ (if digits.length = 1 then [] else '.' :: digits.drop 1) ++
      'e' :: (if point < 1 then '-' else '+') :: zeros (2 - power.length) ++ power

def text (d : Decimal) : String :=
  let value := Float.ofScientific d.digits (d.exponent < 0) d.exponent.natAbs
  let body :=
    if value.isInf then "inf".toList
    else if value.toBits = 0 then "0.0".toList
    else
      let (digits, exponent) := (Binary.ofBits value.toBits).shortest
      layout (Nat.toDigits 10 digits) exponent
  String.ofList (if d.negative then '-' :: body else body)

end Decimal

end LetterArithmetic
