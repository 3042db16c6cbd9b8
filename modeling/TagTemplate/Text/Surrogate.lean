/-!
# Surrogates

The code points that are no characters. A text that is spelled out by code points can hold them.
-/

namespace TagTemplate.Text

def isSurrogate (code : Nat) : Bool := 0xD800 ≤ code && code < 0xE000

theorem isSurrogate_toNat (c : Char) : isSurrogate c.toNat = false := by
  have valid : c.toNat < 0xD800 ∨ 0xDFFF < c.toNat ∧ c.toNat < 0x110000 := c.valid
  simp only [isSurrogate, Bool.and_eq_false_iff, decide_eq_false_iff_not]
  omega

end TagTemplate.Text
