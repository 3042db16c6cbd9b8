import TagTemplate.Text.Quoted

/-!
# UTF-8

Bytes are read one at a time. The first byte of a character says how many more there are and what the
next of them may be, so that a text is refused at the first byte that cannot be right, and what is to
blame are the bytes of the character that was begun.
-/

namespace TagTemplate.Text

inductive Utf8Error.Cause where
  | invalidStart
  | invalidContinuation
  | unexpectedEnd
deriving DecidableEq, Repr

/-- Bytes that are no text: the number of bytes before the ones to blame, and those. -/
structure Utf8Error where
  cause : Utf8Error.Cause
  start : Nat
  bytes : List UInt8
deriving DecidableEq, Repr

namespace Utf8Error

def Cause.text : Cause → String
  | invalidStart => "invalid start byte"
  | invalidContinuation => "invalid continuation byte"
  | unexpectedEnd => "unexpected end of data"

def subject (error : Utf8Error) : String :=
  match error.bytes with
  | [byte] =>
      "byte 0x" ++ String.ofList (hexDigits 2 byte.toNat) ++ " in position " ++ toString error.start
  | bytes =>
      "bytes in position " ++ toString error.start ++ "-" ++ toString (error.start + bytes.length - 1)

def message (error : Utf8Error) : String :=
  "'utf-8' codec can't decode " ++ error.subject ++ ": " ++ error.cause.text

/-- The same error, as it is seen by a reader who gets the text piece by piece: of a character that is cut
off, only that is left. -/
def piecewise (error : Utf8Error) : Utf8Error :=
  if error.cause = .unexpectedEnd then { error with start := 0 } else error

end Utf8Error

/-- A character that was begun: its bytes so far, in reverse, the bits from them, the number of bytes that
are missing, and the range of the next. -/
structure Utf8Open where
  bytes : List UInt8
  code : Nat
  missing : Nat
  low : UInt8
  high : UInt8

def utf8Start (byte : UInt8) : Option Utf8Open :=
  let begun (missing : Nat) (low high : UInt8) : Option Utf8Open :=
    some ⟨[byte], byte.toNat % Nat.pow 2 (6 - missing), missing, low, high⟩
  if byte < 0xC2 then none
  else if byte < 0xE0 then begun 1 0x80 0xBF
  else if byte = 0xE0 then begun 2 0xA0 0xBF
  else if byte = 0xED then begun 2 0x80 0x9F
  else if byte < 0xF0 then begun 2 0x80 0xBF
  else if byte = 0xF0 then begun 3 0x90 0xBF
  else if byte < 0xF4 then begun 3 0x80 0xBF
  else if byte = 0xF4 then begun 3 0x80 0x8F
  else none

/-- Reads the bytes from `position` on, after the characters in `text`, which are in reverse. -/
def decodeFrom : (begun : Option Utf8Open) → (position : Nat) → (text : List Char) → List UInt8 →
    Except Utf8Error (List Char)
  | none, _, text, [] => .ok text.reverse
  | some begun, position, _, [] =>
      .error ⟨.unexpectedEnd, position - begun.bytes.length, begun.bytes.reverse⟩
  | none, position, text, byte :: bytes =>
      if byte < 0x80 then decodeFrom none (position + 1) (Char.ofNat byte.toNat :: text) bytes
      else
        match utf8Start byte with
        | none => .error ⟨.invalidStart, position, [byte]⟩
        | some begun => decodeFrom (some begun) (position + 1) text bytes
  | some begun, position, text, byte :: bytes =>
      if begun.low ≤ byte ∧ byte ≤ begun.high then
        let code := begun.code * 64 + byte.toNat % 64
        if begun.missing ≤ 1 then decodeFrom none (position + 1) (Char.ofNat code :: text) bytes
        else
          decodeFrom (some ⟨byte :: begun.bytes, code, begun.missing - 1, 0x80, 0xBF⟩) (position + 1)
            text bytes
      else .error ⟨.invalidContinuation, position - begun.bytes.length, begun.bytes.reverse⟩

def decode (bytes : List UInt8) : Except Utf8Error (List Char) :=
  decodeFrom none 0 [] bytes

/-- A text in which every line ends with a line feed. A carriage return ends a line as well, alone or
together with the line feed behind it. -/
def unifyLineEnds : List Char → List Char
  | [] => []
  | ['\r'] => ['\n']
  | '\r' :: '\n' :: s => '\n' :: unifyLineEnds s
  | '\r' :: s => '\n' :: unifyLineEnds s
  | c :: s => c :: unifyLineEnds s

end TagTemplate.Text
