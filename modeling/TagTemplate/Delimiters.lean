/-!
# Delimiters

The four strings that set tags and short comments apart from the text around them. None of them is
empty and the two opening ones differ; nothing else is asked, so one may be a part of another, or hold
blanks, letters or line feeds.
-/

namespace TagTemplate

/-- The delimiters of tags and short comments. -/
structure Delimiters where
  blockStart : String
  blockEnd : String
  commentStart : String
  commentEnd : String
  blockStart_ne : blockStart ≠ ""
  blockEnd_ne : blockEnd ≠ ""
  commentStart_ne : commentStart ≠ ""
  commentEnd_ne : commentEnd ≠ ""
  starts_ne : blockStart ≠ commentStart
deriving DecidableEq

namespace Delimiters

def standard : Delimiters where
  blockStart := "\x7b%"
  blockEnd := "%\x7d"
  commentStart := "\x7b#"
  commentEnd := "#\x7d"
  blockStart_ne := by decide
  blockEnd_ne := by decide
  commentStart_ne := by decide
  commentEnd_ne := by decide
  starts_ne := by decide

instance : Inhabited Delimiters := ⟨standard⟩

theorem length_pos_of_ne {s : String} (h : s ≠ "") : 0 < s.toList.length := by
  apply List.length_pos_iff.2
  intro hs
  exact h (String.toList_eq_nil_iff.1 hs)

end Delimiters

end TagTemplate
