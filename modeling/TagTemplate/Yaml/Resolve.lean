import TagTemplate.Config.Value
import TagTemplate.Yaml.Fault
import TagTemplate.Yaml.Input

/-!
# What plain scalars mean

The rules by which YAML 1.2 tells nothing, truth values, integers and floating-point numbers from text.
Integers may be written with the bases 2, 8, 10 and 16, and underscores between digits do not count.
-/

namespace TagTemplate.Yaml

open Config (Value)

/-- Whether a text consists of digits of a base and underscores, one at least. -/
def isRow (base : Nat) (s : List Char) : Bool :=
  !s.isEmpty && s.all fun c => (digit? base c).isSome || c == '_'

def rowValue (base : Nat) (s : List Char) : Nat :=
  (s.filterMap (digit? base)).foldl (fun n digit => base * n + digit) 0

/-- The integer of a row in some base, which needs a digit at least; in base 10 there may be too many. -/
def readRow (base : Nat) (s : List Char) : Except Fault Nat :=
  let digits := s.countP (· != '_')
  if digits = 0 then .error (.integer (.malformed base ""))
  else if base = 10 ∧ Number.maxDigits < digits then .error (.integer (.tooLong digits))
  else .ok (rowValue base s)

def row? (base : Nat) (s : List Char) : Option (Except Fault Nat) :=
  if isRow base s then some (readRow base s) else none

def natural? (s : List Char) : Option (Except Fault Nat) :=
  match s with
  | '0' :: 'b' :: row => row? 2 row
  | '0' :: 'o' :: row => row? 8 row
  | '0' :: 'x' :: row => row? 16 row
  | _ => row? 10 s

def signOf : List Char → Bool × List Char
  | '-' :: s => (true, s)
  | '+' :: s => (false, s)
  | s => (false, s)

def startsInteger (c : Char) : Bool := c == '-' || c == '+' || c.isDigit

def integer? (s : List Char) : Option (Except Fault Int) :=
  if s.head?.any startsInteger then
    match signOf s with
    | (negative, row) =>
        (natural? row).map fun value => value.map fun n => if negative then -(n : Int) else n
  else none

/-- The exponent of a floating-point number, which may have to have a sign. -/
def exponent? (signRequired : Bool) : List Char → Option Int
  | [] => some 0
  | c :: s =>
      let (negative, digits) := signOf s
      let signed := digits.length < s.length
      if (c == 'e' || c == 'E') && (signed || !signRequired) && !digits.isEmpty &&
          digits.all Char.isDigit then
        let n : Int := rowValue 10 digits
        some (if negative then -n else n)
      else none

def inRow (c : Char) : Bool := c.isDigit || c == '_'

/-- The unsigned number of some digits before the point and some behind it, times a power of ten. -/
def decimalOf (whole fraction : List Char) (exponent : Int) : Float :=
  let decimal : Number.Decimal :=
    ⟨rowValue 10 (whole ++ fraction), exponent - (fraction.countP Char.isDigit : Nat)⟩
  decimal.toFloat

def fraction? (s : List Char) : Option (Except Fault Float) :=
  if s == ['.', 'i', 'n', 'f'] || s == ['.', 'I', 'n', 'f'] || s == ['.', 'I', 'N', 'F'] then
    some (.ok (1.0 / 0.0))
  else
    match s with
    | '.' :: rest =>
        let row := rest.takeWhile inRow
        if row.isEmpty then none
        else
          (exponent? true (rest.dropWhile inRow)).map fun exponent =>
            if row.any Char.isDigit then .ok (decimalOf [] row exponent)
            else .error (.float (String.ofList ('.' :: (rest.dropWhile inRow).map Char.toLower)))
    | c :: _ =>
        if c.isDigit then
          let whole := s.takeWhile inRow
          match s.dropWhile inRow with
          | '.' :: rest =>
              (exponent? false (rest.dropWhile inRow)).map fun exponent =>
                .ok (decimalOf whole (rest.takeWhile inRow) exponent)
          | [] => none
          | rest => (exponent? false rest).map fun exponent => .ok (decimalOf whole [] exponent)
        else none
    | [] => none

def float? (s : List Char) : Option (Except Fault Float) :=
  if s == ['.', 'n', 'a', 'n'] || s == ['.', 'N', 'a', 'N'] || s == ['.', 'N', 'A', 'N'] then
    some (.ok (0.0 / 0.0))
  else
    match signOf s with
    | (negative, s) => (fraction? s).map fun value => value.map fun x => if negative then -x else x

def nullTexts : List String := ["", "~", "null", "Null", "NULL"]

def boolTexts : List (String × Bool) :=
  [("true", true), ("True", true), ("TRUE", true), ("false", false), ("False", false), ("FALSE", false)]

/-- The key that asks to take over other mappings. It has no value of its own. -/
def mergeText : String := "<<"

/-- The key of a mapping's main value. It has no value of its own either. -/
def valueText : String := "="

def resolve (text : String) : Except Fault Value :=
  if nullTexts.contains text then .ok .null
  else if text == mergeText || text == valueText then .error .malformed
  else
    match boolTexts.lookup text with
    | some value => .ok (.bool value)
    | none =>
        match float? text.toList with
        | some value => value.map .float
        | none =>
            match integer? text.toList with
            | some value => value.map .int
            | none => .ok (.text text)

end TagTemplate.Yaml
