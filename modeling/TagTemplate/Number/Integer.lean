import TagTemplate.Text.Blank
import TagTemplate.Text.Digit
import TagTemplate.Text.Quoted

/-!
# Integers as they are written

An integer may have blanks around it, a sign, digits of any script, and single underscores between its
digits. More than 4300 digits are refused, whatever their value, and not written either.
-/

namespace TagTemplate

/-- Why a text is not read as an integer, or an integer not written as a text. -/
inductive IntegerError where
  | malformed (base : Nat) (text : String)
  | tooLong (digits : Nat)
  | unwritable
deriving DecidableEq, Repr

namespace IntegerError

/-- The words for it. A long text is cut after 200 characters of its quoted form. -/
def message : IntegerError → String
  | malformed base text =>
      "invalid literal for int() with base " ++ toString base ++ ": " ++
        String.ofList ((Text.quotedChars text.toList).take 200)
  | tooLong digits =>
      "Exceeds the limit (4300 digits) for integer string conversion: value has " ++ toString digits ++
        " digits; use sys.set_int_max_str_digits() to increase the limit"
  | unwritable =>
      "Exceeds the limit (4300 digits) for integer string conversion; " ++
        "use sys.set_int_max_str_digits() to increase the limit"

end IntegerError

namespace Number

def maxDigits : Nat := 4300

/-- A blank that may stand around an integer: any but the four information separators. -/
def isMargin (c : Char) : Bool :=
  Text.isBlank c && !(0x1C ≤ c.toNat && c.toNat ≤ 0x1F)

/-- Digits, at least one, with single underscores between them. -/
def isGrouped : List Char → Bool
  | [] => false
  | [c] => Text.isDigit c
  | c :: '_' :: s => Text.isDigit c && isGrouped s
  | c :: s => Text.isDigit c && isGrouped s

/-- The number that a row of digits stands for; other characters count for nothing. -/
def ofDigits (s : List Char) : Nat :=
  (s.filterMap Text.digitValue?).foldl (fun n digit => 10 * n + digit) 0

def splitSign : List Char → Bool × List Char
  | '-' :: s => (true, s)
  | '+' :: s => (false, s)
  | s => (false, s)

/-- Reads an integer. A badly grouped row of digits is noticed before its length, and its length before
anything that stands behind it. -/
def readInteger (text : String) : Except IntegerError Int :=
  let (negative, body) := splitSign (text.toList.dropWhile isMargin)
  let row := body.takeWhile fun c => Text.isDigit c || c == '_'
  let rest := body.dropWhile fun c => Text.isDigit c || c == '_'
  let digits := row.countP Text.isDigit
  if !isGrouped row then .error (.malformed 10 text)
  else if maxDigits < digits then .error (.tooLong digits)
  else if !rest.all isMargin then .error (.malformed 10 text)
  else .ok (if negative then -(ofDigits row : Int) else ofDigits row)

def isWritable (n : Int) : Bool := n.natAbs < Nat.pow 10 maxDigits

def integerText (n : Int) : Except IntegerError String :=
  if isWritable n then .ok (toString n) else .error .unwritable

end Number

end TagTemplate
