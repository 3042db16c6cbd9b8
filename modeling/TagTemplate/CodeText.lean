import TagTemplate.Text.Quoted

/-!
# Texts by their code points

A configuration can spell out code points that are no characters. A text with such a surrogate in it is kept by its
code points and any other by its characters; the main statement is that texts with the same code points are the same.
-/

namespace TagTemplate

/-- A text: of characters, or of code points with a surrogate among them. -/
inductive CodeText where
  | chars (text : String)
  | codes (points : List Nat) (h : points.any Text.isSurrogate = true)
deriving DecidableEq, Repr

namespace CodeText

instance : Coe String CodeText := ⟨chars⟩

def points : CodeText → List Nat
  | chars text => text.toList.map Char.toNat
  | codes points _ => points

def ofPoints (points : List Nat) : CodeText :=
  if h : points.any Text.isSurrogate = true then codes points h
  else chars (String.ofList (points.map Char.ofNat))

def chars? : CodeText → Option String
  | chars text => some text
  | codes .. => none

/-- The alphabetical order of texts, which goes by code points. -/
def precedes (text other : CodeText) : Bool := !other.points.lex text.points Nat.blt

/-- A text as it gets into the error output, where a surrogate is replaced by its code. -/
def written : CodeText → String
  | chars text => text
  | codes points _ =>
      String.ofList <| points.flatMap fun code =>
        if Text.isSurrogate code then Text.escapeCode code else [Char.ofNat code]

def quoted : CodeText → String
  | chars text => Text.quoted text
  | codes points _ => Text.quotedCodes points

theorem any_isSurrogate_points_chars (text : String) : (chars text).points.any Text.isSurrogate = false := by
  simp [points, Text.isSurrogate_toNat]

theorem points_chars_ne (text : String) {points : List Nat} (h : points.any Text.isSurrogate = true) :
    (chars text).points ≠ points := by
  rintro rfl
  exact absurd (h.symm.trans (any_isSurrogate_points_chars text)) (by decide)

theorem eq_of_points_eq {text other : CodeText} (h : text.points = other.points) : text = other := by
  cases text with
  | chars text =>
      cases other with
      | chars other =>
          have hchars := congrArg (List.map Char.ofNat) h
          simp only [points, List.map_map, Function.comp_def, Char.ofNat_toNat, List.map_id'] at hchars
          rw [String.toList_inj.1 hchars]
      | codes points hpoints => exact absurd h (points_chars_ne text hpoints)
  | codes points hpoints =>
      cases other with
      | chars other => exact absurd h.symm (points_chars_ne other hpoints)
      | codes other => cases h; rfl

end CodeText

end TagTemplate
