/-!
# Floating-point numbers as text

A number is written with the fewest significant digits that read back to it; of two such decimals the
nearer one is taken. The search goes over the decimal grids from coarse to fine and tests the two
neighbours of the number on each. Seventeen digits always suffice.
-/

namespace TagTemplate.Number

/-- A decimal: some digits, and the power of ten of the last of them. -/
structure Decimal where
  digits : Nat
  exponent : Int
deriving DecidableEq, Repr

/-- The floating-point number that a decimal is read as: too large ones are infinite, and too small ones
zero, which is decided by the number of digits before any power of ten is built. -/
def Decimal.toFloat (d : Decimal) : Float :=
  let size := (Nat.toDigits 10 d.digits).length + d.exponent
  if d.digits = 0 ∨ size < -400 then 0
  else if 400 < size then 1 / 0
  else Float.ofScientific d.digits (d.exponent < 0) d.exponent.natAbs

/-- A finite number without its sign, as a quotient. -/
def magnitude (x : Float) : Nat × Nat :=
  let bits := x.toBits
  let exponent := ((bits >>> 52) &&& 0x7FF).toNat
  let fraction := (bits &&& 0xFFFFFFFFFFFFF).toNat
  if exponent = 0 then (fraction, Nat.pow 2 1074)
  else if exponent < 1075 then (Nat.pow 2 52 + fraction, Nat.pow 2 (1075 - exponent))
  else ((Nat.pow 2 52 + fraction) * Nat.pow 2 (exponent - 1075), 1)

/-- The least power of ten, from `j` on and among so many, that lifts a quotient to one or more. -/
def liftingPower (num den : Nat) : (count j : Nat) → Nat
  | 0, j => j
  | count + 1, j => if den ≤ num * Nat.pow 10 j then j else liftingPower num den count (j + 1)

def leadingPower (num den : Nat) : Int :=
  if den ≤ num then ((Nat.toDigits 10 (num / den)).length : Int) - 1
  else -(liftingPower num den 400 1 : Int)

/-- The neighbours of a quotient among the multiples of a power of ten, the nearer one first; if both are
as near, the even one. -/
def neighbours (num den : Nat) (exponent : Int) : List Decimal :=
  let num := num * Nat.pow 10 (-exponent).toNat
  let den := den * Nat.pow 10 exponent.toNat
  let below := num / den
  let rest := num % den
  if rest = 0 then [⟨below, exponent⟩]
  else if 2 * rest < den ∨ 2 * rest = den ∧ below % 2 = 0 then
    [⟨below, exponent⟩, ⟨below + 1, exponent⟩]
  else [⟨below + 1, exponent⟩, ⟨below, exponent⟩]

def firstReadingBack (x : Float) (num den : Nat) (leading : Int) :
    (attempts : Nat) → (digits : Nat) → Option Decimal
  | 0, _ => none
  | attempts + 1, digits =>
      match (neighbours num den (leading - (digits : Int) + 1)).find? fun d => d.toFloat.toBits == x.abs.toBits with
      | some d => some d
      | none => firstReadingBack x num den leading attempts (digits + 1)

def shortest? (x : Float) : Option Decimal :=
  match magnitude x with
  | (num, den) => if num = 0 then none else firstReadingBack x num den (leadingPower num den) 17 1

def positional (digits : List Char) (whole : Int) : List Char :=
  if whole ≤ 0 then '0' :: '.' :: (List.replicate (-whole).toNat '0' ++ digits)
  else
    let count := whole.toNat
    let front := digits.take count ++ List.replicate (count - digits.length) '0'
    let back := digits.drop count
    front ++ '.' :: (if back.isEmpty then ['0'] else back)

/-- Digits with a point behind the first of them, and the power of ten of that digit, in two digits at
least. -/
def scientific (digits : List Char) (power : Int) : List Char :=
  let mantissa :=
    match digits with
    | first :: second :: rest => first :: '.' :: second :: rest
    | digits => digits
  let exponent := Nat.toDigits 10 power.natAbs
  mantissa ++ 'e' :: (if power < 0 then '-' else '+') ::
    (List.replicate (2 - exponent.length) '0' ++ exponent)

def trimZeros (digits : List Char) : List Char :=
  (digits.reverse.dropWhile (· == '0')).reverse

/-- A positive decimal as text: with a point from 10⁻⁴ up to below 10¹⁶, with a power of ten elsewhere. -/
def Decimal.text (d : Decimal) : List Char :=
  let all := Nat.toDigits 10 d.digits
  let whole := (all.length : Int) + d.exponent
  let digits := trimZeros all
  if -4 < whole ∧ whole ≤ 16 then positional digits whole else scientific digits (whole - 1)

def floatText (x : Float) : String :=
  if x.isNaN then "nan"
  else
    let sign := if x.toBits >>> 63 = 1 then "-" else ""
    if x.isInf then sign ++ "inf"
    else
      match shortest? x with
      | some d => sign ++ String.ofList d.text
      | none => sign ++ "0.0"

def integerOfFloat? (x : Float) : Option Int :=
  if x.isNaN || x.isInf then none
  else
    match magnitude x with
    | (num, den) =>
        if num % den = 0 then some (if x < 0 then -((num / den : Nat) : Int) else (num / den : Nat)) else none

end TagTemplate.Number
