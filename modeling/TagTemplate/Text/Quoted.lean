import TagTemplate.Text.Printable
import TagTemplate.Text.Surrogate

/-!
# Quoted text

How a text is shown inside a message: between single quotes, or between double quotes when it holds
single quotes and no double ones. The quote in use and the backslash are escaped, the tab and the two
line breaks have letters of their own, and any other unprintable character is written by its code
point in the shortest of the forms `\x41`, `\u0041` and `\U00000041` that can hold it.
-/

namespace TagTemplate.Text

def hexDigit (n : Nat) : Char :=
  if n < 10 then Char.ofNat (0x30 + n) else Char.ofNat (0x61 + (n - 10))

/-- The last `width` digits of `n` in base 16. -/
def hexDigits : Nat → Nat → List Char
  | 0, _ => []
  | width + 1, n => hexDigits width (n / 16) ++ [hexDigit (n % 16)]

def quoteFor (s : List Char) : Char :=
  if s.contains '\'' && !s.contains '"' then '"' else '\''

def escapeCode (code : Nat) : List Char :=
  if code < 0x100 then '\\' :: 'x' :: hexDigits 2 code
  else if code < 0x10000 then '\\' :: 'u' :: hexDigits 4 code
  else '\\' :: 'U' :: hexDigits 8 code

def escapeChar (quote c : Char) : List Char :=
  if c == quote || c == '\\' then ['\\', c]
  else if c == '\t' then ['\\', 't']
  else if c == '\n' then ['\\', 'n']
  else if c == '\r' then ['\\', 'r']
  else if isPrintable c then [c]
  else escapeCode c.toNat

def quotedChars (s : List Char) : List Char :=
  let quote := quoteFor s
  quote :: (s.flatMap (escapeChar quote) ++ [quote])

/-- A text as a message shows it. -/
def quoted (s : String) : String :=
  String.ofList (quotedChars s.toList)

/-- One code point between the given quotes. A surrogate is not printable either. -/
def escapePoint (quote : Char) (code : Nat) : List Char :=
  if isSurrogate code then escapeCode code else escapeChar quote (Char.ofNat code)

def quotedCodes (codes : List Nat) : String :=
  let quote := quoteFor (codes.map Char.ofNat)
  String.ofList (quote :: (codes.flatMap (escapePoint quote) ++ [quote]))

end TagTemplate.Text
