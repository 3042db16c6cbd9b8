/-!
# Splitting a text

A text is split before the first place that fits a description of what follows it. Nothing is lost, and
the part behind is shorter unless the text fits at once.
-/

namespace TagTemplate.Text

/-- Splits a text before the first place from where on `found` holds of it. -/
def splitBefore (found : List Char → Bool) : List Char → List Char × List Char
  | [] => ([], [])
  | c :: s =>
      if found (c :: s) then ([], c :: s)
      else (c :: (splitBefore found s).1, (splitBefore found s).2)

theorem splitBefore_append (found : List Char → Bool) (s : List Char) :
    (splitBefore found s).1 ++ (splitBefore found s).2 = s := by
  induction s with
  | nil => rfl
  | cons c s ih =>
      simp only [splitBefore]
      split <;> simp [ih]

theorem length_splitBefore_lt {found : List Char → Bool} {s : List Char} (hs : s ≠ [])
    (h : found s = false) : (splitBefore found s).2.length < s.length := by
  cases s with
  | nil => exact absurd rfl hs
  | cons c s =>
      have := congrArg List.length (splitBefore_append found s)
      simp only [splitBefore, h, Bool.false_eq_true, if_false, List.length_append,
        List.length_cons] at this ⊢
      omega

end TagTemplate.Text
