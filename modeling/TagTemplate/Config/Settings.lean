import TagTemplate.CodeText
import TagTemplate.Config

/-!
# Settings

What a configuration document says, with the texts as they stand there, and what it means to a compiler. A template that
was read from a file has characters only, so a delimiter with a surrogate stands nowhere in it. Neither does a text that
is longer than the template, which takes the place of such a delimiter.
-/

namespace TagTemplate.Config

structure CodeDelimiters where
  blockStart : CodeText
  blockEnd : CodeText
  commentStart : CodeText
  commentEnd : CodeText
  blockStart_ne : blockStart ≠ .chars ""
  blockEnd_ne : blockEnd ≠ .chars ""
  commentStart_ne : commentStart ≠ .chars ""
  commentEnd_ne : commentEnd ≠ .chars ""
  starts_ne : blockStart ≠ commentStart
deriving DecidableEq

def CodeDelimiters.ofDelimiters (d : Delimiters) : CodeDelimiters where
  blockStart := d.blockStart
  blockEnd := d.blockEnd
  commentStart := d.commentStart
  commentEnd := d.commentEnd
  blockStart_ne h := d.blockStart_ne (CodeText.chars.inj h)
  blockEnd_ne h := d.blockEnd_ne (CodeText.chars.inj h)
  commentStart_ne h := d.commentStart_ne (CodeText.chars.inj h)
  commentEnd_ne h := d.commentEnd_ne (CodeText.chars.inj h)
  starts_ne h := d.starts_ne (CodeText.chars.inj h)

structure Settings where
  delimiters : CodeDelimiters := .ofDelimiters .standard
  disabled : List CodeText := []
  seed : Option Int := none
deriving DecidableEq

/-! ### What stands in for a delimiter -/

/-- The characters of a text. If it has a surrogate, so many blanks stand in for it. -/
def standIn (length : Nat) : CodeText → String
  | .chars text => text
  | .codes .. => String.ofList (List.replicate length ' ')

variable {length length' : Nat} {text other : CodeText}

theorem standIn_ne_empty (hlength : 0 < length) (h : text ≠ .chars "") : standIn length text ≠ "" := by
  cases text with
  | chars text => exact fun hempty => h (congrArg CodeText.chars hempty)
  | codes points hpoints =>
      intro hempty
      have hblanks := congrArg String.toList hempty
      simp only [standIn, String.toList_ofList, String.toList_empty, List.replicate_eq_nil_iff] at hblanks
      omega

theorem length_standIn_chars (text : String) :
    (standIn length (.chars text)).toList.length = (CodeText.chars text).points.length := by
  simp [standIn, CodeText.points]

theorem length_standIn_codes {points : List Nat} (h : points.any Text.isSurrogate = true) :
    (standIn length (.codes points h)).toList.length = length := by
  simp [standIn]

/-- What stands in for different texts differs, if both lengths are beyond those of the texts and not the same. -/
theorem standIn_ne (h : text ≠ other) (htext : text.points.length < length') (hother : other.points.length < length)
    (hlength : length ≠ length') : standIn length text ≠ standIn length' other := by
  intro heq
  have hlengths := congrArg (fun s : String => s.toList.length) heq
  cases text <;> cases other <;> simp only [length_standIn_chars, length_standIn_codes] at hlengths
  case chars.chars text other => exact h (congrArg CodeText.chars heq)
  all_goals omega

namespace CodeDelimiters

/-- A length that neither a template nor any of the delimiters has. -/
def lengthBeyond (d : CodeDelimiters) (template : String) : Nat :=
  template.toList.length + d.blockStart.points.length + d.blockEnd.points.length + d.commentStart.points.length +
    d.commentEnd.points.length + 1

def on (d : CodeDelimiters) (template : String) : Delimiters where
  blockStart := standIn (d.lengthBeyond template) d.blockStart
  blockEnd := standIn (d.lengthBeyond template) d.blockEnd
  commentStart := standIn (d.lengthBeyond template + 1) d.commentStart
  commentEnd := standIn (d.lengthBeyond template) d.commentEnd
  blockStart_ne := standIn_ne_empty (Nat.succ_pos _) d.blockStart_ne
  blockEnd_ne := standIn_ne_empty (Nat.succ_pos _) d.blockEnd_ne
  commentStart_ne := standIn_ne_empty (Nat.succ_pos _) d.commentStart_ne
  commentEnd_ne := standIn_ne_empty (Nat.succ_pos _) d.commentEnd_ne
  starts_ne := standIn_ne d.starts_ne (by unfold lengthBeyond; omega) (by unfold lengthBeyond; omega) (by omega)

/-- What stands in for a delimiter with a surrogate is no part of the template. -/
theorem not_isInfix_standIn (d : CodeDelimiters) (template : String) {points : List Nat}
    (h : points.any Text.isSurrogate = true) (hlength : d.lengthBeyond template ≤ length) :
    ¬(standIn length (.codes points h)).toList <:+: template.toList := by
  intro hinfix
  have hle := hinfix.length_le
  rw [length_standIn_codes] at hle
  unfold lengthBeyond at hlength
  omega

end CodeDelimiters

/-- The configuration that a template is compiled with. A name with a surrogate disables nothing, as no tag has it. -/
def Settings.config (settings : Settings) (template : String) : Config where
  delimiters := settings.delimiters.on template
  disabled := settings.disabled.filterMap CodeText.chars?
  seed := settings.seed

end TagTemplate.Config
