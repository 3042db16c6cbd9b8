import TagTemplate.Proofs.Part

/-!
# Constructs that cannot be completed

A text falls into parts up to its end, or up to an opening delimiter behind which something is missing: nothing closes
the comment, the text ends inside of the tag, or a character in the tag belongs to no lexeme. Which of these it is
depends on the text alone.
-/

namespace TagTemplate

open Text (IsRun isBlank isRun_takeWhile Clear splitBefore_eq_iff)

namespace Lexeme

theorem read?_eq_none_iff {s : List Char} : read? s = none ↔ ∀ kind ∈ patterns, Misses kind s := by
  have hname := eq_none_iff_misses @name?_eq_some_iff (s := s)
  have hfloat := eq_none_iff_misses @float?_eq_some_iff (s := s)
  have hinteger := eq_none_iff_misses @integer?_eq_some_iff (s := s)
  have hstring := eq_none_iff_misses @string?_eq_some_iff (s := s)
  have hsymbol := eq_none_iff_misses @symbol?_eq_some_iff (s := s)
  simp only [read?, Option.or_eq_none_iff, Option.map_eq_none_iff, hname, hfloat, hinteger, hstring, hsymbol,
    patterns, List.forall_mem_cons, List.not_mem_nil, false_imp_iff, implies_true, and_true]

end Lexeme

theorem Text.clear_nil_iff {pattern s : List Char} (hne : pattern ≠ []) :
    Clear (pattern <+: ·) s [] ↔ ¬pattern <:+: s := by
  constructor
  · rintro hclear ⟨before, after, rfl⟩
    refine hclear before (pattern ++ after) (by simp) (List.append_ne_nil_of_left_ne_nil hne after) ?_
    exact ⟨after, by simp⟩
  · rintro h before after rfl - hbegins
    rw [List.append_nil] at hbegins
    exact h (hbegins.isInfix.trans (List.suffix_append before after).isInfix)

namespace Delimiters

/-- What stands at a place opens a tag or a short comment that cannot be completed, for a reason and with a place to
blame. A tag is read lexeme by lexeme, each behind as many blanks as there are; it breaks off where the text ends, or
at a character with which neither a lexeme nor the delimiter that closes the tag begins. -/
inductive Unfinished (d : Delimiters) (here : Location) : List Char → ScanError → Prop
  | comment {rest : List Char} :
      Wins d.commentStart d.blockStart (d.commentStart.toList ++ rest) → ¬d.commentEnd.toList <:+: rest →
      d.Unfinished here (d.commentStart.toList ++ rest) ⟨.unclosedComment d.commentEnd, here⟩
  | tag {lexemes : List Piece} {gap : List Char} :
      Wins d.blockStart d.commentStart (d.blockStart.toList ++ (Piece.sources lexemes ++ gap)) →
      d.Holds lexemes gap → (∀ c ∈ gap, isBlank c = true) →
      d.Unfinished here (d.blockStart.toList ++ (Piece.sources lexemes ++ gap)) ⟨.unclosedTag d.blockEnd, here⟩
  | character {lexemes : List Piece} {gap : List Char} {c : Char} {rest : List Char} :
      Wins d.blockStart d.commentStart (d.blockStart.toList ++ (Piece.sources lexemes ++ (gap ++ c :: rest))) →
      d.Holds lexemes (gap ++ c :: rest) → IsRun isBlank gap (c :: rest) → ¬d.blockEnd.toList <+: c :: rest →
      (∀ kind ∈ Lexeme.patterns, Lexeme.Misses kind (c :: rest)) →
      d.Unfinished here (d.blockStart.toList ++ (Piece.sources lexemes ++ (gap ++ c :: rest)))
        ⟨.unexpectedCharacter c, here.after (d.blockStart.toList ++ (Piece.sources lexemes ++ gap))⟩

variable {d : Delimiters}

/-- A tag holds lexemes up to its end, or up to where none stands. -/
theorem exists_holds (d : Delimiters) (s : List Char) :
    ∃ lexemes gap rest, s = Piece.sources lexemes ++ (gap ++ rest) ∧ d.Holds lexemes (gap ++ rest) ∧
      IsRun isBlank gap rest ∧ (d.blockEnd.toList <+: rest ∨ ∀ kind ∈ Lexeme.patterns, Lexeme.Misses kind rest) := by
  induction hlength : s.length using Nat.strong_induction_on generalizing s with
  | _ n ih =>
      obtain ⟨gap, s', rfl, hgap⟩ : ∃ gap s', s = gap ++ s' ∧ IsRun isBlank gap s' :=
        ⟨_, _, List.takeWhile_append_dropWhile.symm, isRun_takeWhile isBlank s⟩
      by_cases hend : d.blockEnd.toList <+: s'
      · exact ⟨[], gap, s', rfl, trivial, hgap, .inl hend⟩
      cases hread : Lexeme.read? s' with
      | none => exact ⟨[], gap, s', rfl, trivial, hgap, .inr (Lexeme.read?_eq_none_iff.1 hread)⟩
      | some found =>
          obtain ⟨kind, value, rest⟩ := found
          obtain ⟨rfl, hleads⟩ := Lexeme.read?_eq_some_iff.1 hread
          -- A lexeme has a character, so what is behind it is shorter.
          have hpos := List.length_pos_iff.2 hleads.fits.value_ne_nil
          have hshorter : rest.length < n := by
            simp only [List.length_append] at hlength
            omega
          obtain ⟨lexemes, gap', rest', rfl, hholds, hgap', hstop⟩ := ih rest.length hshorter rest rfl
          refine ⟨⟨gap, kind, value⟩ :: lexemes, gap', rest', ?_, ⟨⟨hgap, hend, hleads⟩, hholds⟩, hgap', hstop⟩
          simp [Piece.source]

theorem tag_stands_or_unfinished (here : Location) {s : List Char} (h : Wins d.blockStart d.commentStart s) :
    (∃ (part : Part) (rest : List Char), s = part.source d ++ rest ∧ part.Stands d rest) ∨
      ∃ error, d.Unfinished here s error := by
  obtain ⟨s', rfl⟩ := h.1
  obtain ⟨lexemes, gap, rest, rfl, hholds, hgap, hstop⟩ := exists_holds d s'
  by_cases hend : d.blockEnd.toList <+: rest
  · obtain ⟨rest, rfl⟩ := hend
    have hsource : d.blockStart.toList ++ (Piece.sources lexemes ++ (gap ++ (d.blockEnd.toList ++ rest))) =
        (Part.tag lexemes gap).source d ++ rest := by
      simp [Part.source_tag]
    rw [hsource] at h ⊢
    exact .inl ⟨.tag lexemes gap, rest, rfl, h, hholds, hgap⟩
  have hmisses := hstop.resolve_left hend
  cases rest with
  | nil =>
      rw [List.append_nil] at h hholds ⊢
      exact .inr ⟨_, .tag h hholds hgap.all⟩
  | cons c rest => exact .inr ⟨_, .character h hholds hgap hend hmisses⟩

theorem comment_stands_or_unfinished (here : Location) {s : List Char} (h : Wins d.commentStart d.blockStart s) :
    (∃ (part : Part) (rest : List Char), s = part.source d ++ rest ∧ part.Stands d rest) ∨
      ∃ error, d.Unfinished here s error := by
  obtain ⟨s', rfl⟩ := h.1
  obtain ⟨body, rest, hsplit⟩ : ∃ body rest, Text.splitBefore d.commentEnd.toList.isPrefixOf s' = (body, rest) :=
    ⟨_, _, rfl⟩
  obtain ⟨rfl, hclear, hend⟩ := splitBefore_eq_iff.1 hsplit
  simp only [List.isPrefixOf_iff_prefix] at hclear hend
  by_cases hbegins : d.commentEnd.toList <+: rest
  · obtain ⟨rest, rfl⟩ := hbegins
    have hsource : d.commentStart.toList ++ (body ++ (d.commentEnd.toList ++ rest)) =
        (Part.comment body).source d ++ rest := by
      simp [Part.source_comment]
    rw [hsource] at h ⊢
    exact .inl ⟨.comment body, rest, rfl, h, hclear⟩
  · obtain rfl := hend.resolve_right hbegins
    have hne := mt String.toList_eq_nil_iff.1 d.commentEnd_ne
    rw [List.append_nil] at h ⊢
    exact .inr ⟨_, .comment h ((Text.clear_nil_iff hne).1 hclear)⟩

/-- Plain text reaches up to an opening delimiter or to the end. -/
theorem text_stands {s : List Char} (hne : s ≠ []) (h : ¬d.Opens s) :
    ∃ (part : Part) (rest : List Char), s = part.source d ++ rest ∧ part.Stands d rest := by
  obtain ⟨value, rest, hsplit⟩ : ∃ value rest, Text.splitBefore d.opens s = (value, rest) := ⟨_, _, rfl⟩
  obtain ⟨rfl, hclear, hend⟩ := splitBefore_eq_iff.1 hsplit
  simp only [opens_iff] at hclear hend
  refine ⟨.text value, rest, by rw [Part.source_text], ?_, hclear, hend⟩
  rintro rfl
  exact hend.elim hne h

theorem stands_or_unfinished (here : Location) {s : List Char} (hne : s ≠ []) :
    (∃ (part : Part) (rest : List Char), s = part.source d ++ rest ∧ part.Stands d rest) ∨
      ∃ error, d.Unfinished here s error := by
  by_cases hblock : Wins d.blockStart d.commentStart s
  · exact tag_stands_or_unfinished here hblock
  by_cases hcomment : Wins d.commentStart d.blockStart s
  · exact comment_stands_or_unfinished here hcomment
  refine .inl (text_stands hne ?_)
  rw [← opens_iff, opens, Bool.or_eq_true, opensTag_iff, opensComment_iff]
  exact not_or.2 ⟨hblock, hcomment⟩

/-- Every text falls into parts up to its end, or up to something that cannot be completed. -/
theorem reads_or_unfinished (d : Delimiters) (start : Location) (s : List Char) :
    ∃ parts rest, d.Reads parts s rest ∧
      (rest = [] ∨ ∃ error, d.Unfinished (start.after (Part.sources d parts)) rest error) := by
  induction hlength : s.length using Nat.strong_induction_on generalizing s start with
  | _ n ih =>
      by_cases hne : s = []
      · exact ⟨[], s, .done, .inl hne⟩
      rcases stands_or_unfinished (d := d) start hne with ⟨part, rest, rfl, hstands⟩ | hunfinished
      · have hpos := List.length_pos_iff.2 (Part.source_ne_nil d hstands)
        have hshorter : rest.length < n := by
          rw [List.length_append] at hlength
          omega
        obtain ⟨parts, rest', hreads, hrest⟩ := ih rest.length hshorter (start.after (part.source d)) rest rfl
        refine ⟨part :: parts, rest', .part hstands hreads, ?_⟩
        rwa [Part.sources_cons, Location.after_append]
      · exact ⟨[], s, .done, .inr hunfinished⟩

end Delimiters

end TagTemplate
