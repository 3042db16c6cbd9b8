/-!
# Blanks

The characters that may stand between the lexemes of a tag. They are the white space of Unicode
together with the four information separators U+001C to U+001F.
-/

namespace TagTemplate.Text

/-- The white space of ASCII text proper: tab, the line breaks of a typewriter, and the space. -/
def isAsciiBlank (c : Char) : Bool :=
  (0x09 ≤ c.toNat && c.toNat ≤ 0x0D) || c.toNat == 0x20

/-- A blank: white space in the sense of Unicode, or one of the information separators. -/
def isBlank (c : Char) : Bool :=
  isAsciiBlank c || (0x1C ≤ c.toNat && c.toNat ≤ 0x1F) || c.toNat == 0x85 || c.toNat == 0xA0 ||
    c.toNat == 0x1680 || (0x2000 ≤ c.toNat && c.toNat ≤ 0x200A) || c.toNat == 0x2028 ||
    c.toNat == 0x2029 || c.toNat == 0x202F || c.toNat == 0x205F || c.toNat == 0x3000

end TagTemplate.Text
