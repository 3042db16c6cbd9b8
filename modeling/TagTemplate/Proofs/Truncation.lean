import Mathlib
import TagTemplate.Proofs.Seam
import TagTemplate.Proofs.Shape

/-!
# Texts that are cut short

Between two parts a text can be cut, and what stands before the cut falls into the same parts: whatever keeps a
delimiter or a lexeme from being read differently is still missing when there is less text behind it. So the text in
front of a construct that cannot be completed can be read on its own.
-/

namespace TagTemplate

open Text (IsRun isBlank Clear)

theorem Text.IsRun.of_append {p : Char → Bool} {run rest more : List Char} (h : IsRun p run (rest ++ more)) :
    IsRun p run rest where
  all := h.all
  stop c hc := h.stop c (by rw [List.head?_append, Option.mem_def.1 hc]; rfl)

theorem Text.Clear.of_append {found : List Char → Prop} {stretch rest more : List Char}
    (h : Clear found stretch (rest ++ more)) (hfound : ∀ s, found s → found (s ++ more)) :
    Clear found stretch rest := by
  intro before after heq hne hbegins
  refine h before after heq hne ?_
  rw [← List.append_assoc]
  exact hfound _ hbegins

/-! ### Lexemes -/

namespace Lexeme

variable {kind : TokenKind} {value rest s more : List Char}

theorem Fits.of_append (h : Fits kind value (rest ++ more)) : Fits kind value rest := by
  cases h with
  | name hc hrun => exact .name hc hrun.of_append
  | float hwhole hdigits hfraction hrun => exact .float hwhole hdigits hfraction hrun.of_append
  | integer hdigits hrun => exact .integer hdigits hrun.of_append
  | string hquote hbody => exact .string hquote hbody
  | longSymbol hmem => exact .longSymbol hmem
  | shortSymbol hmem hlong =>
      refine .shortSymbol hmem fun value hvalue hbegins => hlong value hvalue ?_
      exact hbegins.trans (List.prefix_append _ more)

/-- A pattern that fits nothing in a text fits nothing in the start of it. -/
theorem Misses.of_append (h : Misses kind (s ++ more)) : Misses kind s := by
  rintro value rest rfl hfits
  rw [List.append_assoc] at h
  cases hfits with
  | name hc => simp [not_isNameStart_of_misses h] at hc
  | @float whole fraction _ hne hdigits hfraction hrun =>
      obtain ⟨c, fraction, rfl⟩ := List.exists_cons_of_ne_nil hfraction
      have hc := hrun.all c (by simp)
      rw [List.append_assoc, List.cons_append, List.cons_append] at h
      simp [not_isDigit_of_misses_float hne hdigits h] at hc
  | integer hne hrun =>
      obtain ⟨c, digits, rfl⟩ := List.exists_cons_of_ne_nil hne
      have hc := hrun.all c (by simp)
      simp [not_isDigit_of_misses h] at hc
  | string hquote hbody => exact h _ _ rfl (.string hquote hbody)
  | longSymbol hmem => exact h _ _ rfl (.longSymbol hmem)
  | @shortSymbol c _ hmem hlong =>
      -- With more behind it the character may have become the first one of a long symbol.
      by_cases hlonger : ∃ value ∈ longSymbols, value <+: c :: (rest ++ more)
      · obtain ⟨value, hvalue, rest', heq⟩ := hlonger
        exact h value rest' heq.symm (.longSymbol hvalue)
      · exact h [c] _ rfl (.shortSymbol hmem fun value hvalue hbegins => hlonger ⟨value, hvalue, hbegins⟩)

theorem Leads.of_append (h : Leads kind value (rest ++ more)) : Leads kind value rest where
  fits := h.fits.of_append
  first earlier hearlier := by
    have hfirst := h.first earlier hearlier
    rw [← List.append_assoc] at hfirst
    exact hfirst.of_append

end Lexeme

/-! ### Parts -/

namespace Delimiters

variable {d : Delimiters} {s rest more : List Char}

theorem Wins.of_append {opening other : String} (h : Wins opening other (s ++ more)) (hopening : opening.toList <+: s) :
    Wins opening other s :=
  ⟨hopening, fun hother => h.2 (hother.trans (List.prefix_append s more))⟩

theorem Holds.of_append {lexemes : List Piece} (h : d.Holds lexemes (rest ++ more)) : d.Holds lexemes rest := by
  induction lexemes with
  | nil => trivial
  | cons lexeme lexemes ih =>
      obtain ⟨⟨hgap, hend, hleads⟩, hholds⟩ := h
      rw [← List.append_assoc (Piece.sources lexemes)] at hgap hend hleads
      rw [← List.append_assoc] at hgap hend
      exact ⟨⟨hgap.of_append, fun hbegins => hend (hbegins.trans (List.prefix_append _ more)), hleads.of_append⟩,
        ih hholds⟩

end Delimiters

namespace Part

variable {d : Delimiters} {part : Part} {parts : List Part} {s rest more : List Char}

/-- A part stays what it is when the text behind it is cut, but plain text may not be cut off from the delimiter
behind it. -/
theorem Stands.of_append (h : part.Stands d (rest ++ more)) (htext : part.isText = true → rest = [] ∨ d.Opens rest) :
    part.Stands d rest := by
  cases part with
  | text value =>
      obtain ⟨hne, hclear, -⟩ := h
      exact ⟨hne, hclear.of_append fun _ hopens => hopens.append more, htext rfl⟩
  | comment body =>
      obtain ⟨hwins, hclear⟩ := h
      rw [← List.append_assoc] at hwins hclear
      refine ⟨hwins.of_append ?_, hclear.of_append fun _ hbegins => hbegins.trans (List.prefix_append _ more)⟩
      rw [source_comment, List.append_assoc]
      exact List.prefix_append _ _
  | tag lexemes gap =>
      obtain ⟨hwins, hholds, hgap⟩ := h
      rw [← List.append_assoc] at hwins hgap
      rw [← List.append_assoc d.blockEnd.toList, ← List.append_assoc gap] at hholds
      refine ⟨hwins.of_append ?_, hholds.of_append, hgap.of_append⟩
      rw [source_tag, List.append_assoc]
      exact List.prefix_append _ _

end Part

namespace Delimiters.Reads

variable {d : Delimiters} {parts : List Part} {s rest : List Char}

/-- The parts of a text can be read on their own, without the text behind them. -/
theorem truncate (h : d.Reads parts s rest) : d.Reads parts (Part.sources d parts) [] := by
  induction h with
  | done => exact .done
  | @part part parts s rest hstands hreads ih =>
      rw [Part.sources_cons]
      refine .part ?_ ih
      have hs := hreads.eq_append
      rw [hs] at hstands
      refine hstands.of_append fun htext => ?_
      cases hreads with
      | done => exact .inl rfl
      | @part part' parts' s' _ hstands' hreads' =>
          obtain ⟨value, rfl⟩ : ∃ value, part = .text value := by
            cases part <;> simp_all [Part.isText]
          rw [← hs] at hstands
          have hpart := hstands.isText_eq_false hstands'
          have hstands'' := (reads_nil_iff.1 ih).2 [] part' parts' rfl
          rw [Part.sources_cons]
          exact .inr (hstands''.opens hpart)

end Delimiters.Reads

/-! ### What keeps a text from being read -/

namespace Delimiters

variable {d : Delimiters} {parts : List Part} {text : String} {rest : List Char} {error : ScanError}

theorem Reads.outcome_scan_sources (h : d.Reads parts text.toList rest) :
    (d.scan (String.ofList (Part.sources d parts))).outcome =
      .ok (Piece.tokens Location.start (Part.allPieces d parts) ++
        [⟨.eof, "", Location.start.after (Part.sources d parts)⟩]) := by
  rw [Delimiters.scan, String.toList_ofList, Mode.scan_of_reads h.truncate, Mode.scan_finished]
  rfl

theorem Reads.scan_eq_of_unfinished (h : d.Reads parts text.toList rest)
    (hunfinished : d.Unfinished (Location.start.after (Part.sources d parts)) rest error) :
    ∃ opening inside stop,
      d.scan text = ⟨Piece.tokens Location.start (Part.allPieces d parts) ++ opening :: inside, stop, some error⟩ ∧
      opening.place = Location.start.after (Part.sources d parts) ∧
      (opening.kind = .blockBegin ∨ opening.kind = .commentBegin) := by
  obtain ⟨opening, inside, stop, hscan, hopening⟩ := Mode.scan_of_unfinished hunfinished
  refine ⟨opening, inside, stop, ?_, hopening⟩
  rw [Delimiters.scan, Mode.scan_of_reads h, hscan]
  rfl

theorem scan_eq_error_iff : (d.scan text).outcome = .error error ↔
    ∃ parts rest, d.Reads parts text.toList rest ∧
      d.Unfinished (Location.start.after (Part.sources d parts)) rest error := by
  constructor
  · intro herror
    obtain ⟨parts, rest, hreads, rfl | ⟨error', hunfinished⟩⟩ := d.reads_or_unfinished Location.start text.toList
    · rw [Delimiters.scan, Mode.outcome_eq_ok_iff.2 ⟨parts, hreads, rfl⟩] at herror
      cases herror
    · obtain ⟨opening, inside, stop, hscan, -⟩ := hreads.scan_eq_of_unfinished hunfinished
      rw [hscan] at herror
      obtain rfl := Except.error.inj herror
      exact ⟨parts, rest, hreads, hunfinished⟩
  · rintro ⟨parts, rest, hreads, hunfinished⟩
    obtain ⟨opening, inside, stop, hscan, -⟩ := hreads.scan_eq_of_unfinished hunfinished
    rw [hscan]
    rfl

theorem Unfinished.message_eq {here : Location} {s : List Char} (h : d.Unfinished here s error) :
    error.message =
      (match error.cause with
        | .unclosedComment _ => "Unclosed comment, expected '" ++ d.commentEnd ++ "'"
        | .unclosedTag _ => "Unclosed tag, expected '" ++ d.blockEnd ++ "'"
        | .unexpectedCharacter c => "Unexpected character in tag: " ++ Text.quoted (String.singleton c)) ++
      " at " ++ error.place.text := by
  cases h <;> rfl

/-- A text cannot be read exactly if it falls into parts up to a construct that cannot be completed, and that construct
decides what is wrong, where, and in which words. The text before it can be read on its own, with the tokens that were
collected before its opening delimiter and the end. If there is no such construct the text can be read. -/
theorem scan_eq_error_iff_unfinished (d : Delimiters) (text : String) :
    (∀ error, (d.scan text).outcome = .error error ↔
      ∃ parts rest, d.Reads parts text.toList rest ∧
        d.Unfinished (Location.start.after (Part.sources d parts)) rest error) ∧
    (∀ parts rest error, d.Reads parts text.toList rest →
      d.Unfinished (Location.start.after (Part.sources d parts)) rest error →
      error.message =
        (match error.cause with
          | .unclosedComment _ => "Unclosed comment, expected '" ++ d.commentEnd ++ "'"
          | .unclosedTag _ => "Unclosed tag, expected '" ++ d.blockEnd ++ "'"
          | .unexpectedCharacter c => "Unexpected character in tag: " ++ Text.quoted (String.singleton c)) ++
        " at " ++ error.place.text ∧
      ∃ collected opening inside, (d.scan text).tokens = collected ++ opening :: inside ∧
        opening.place = Location.start.after (Part.sources d parts) ∧
        (opening.kind = .blockBegin ∨ opening.kind = .commentBegin) ∧
        (d.scan (String.ofList (Part.sources d parts))).outcome = .ok (collected ++ [⟨.eof, "", opening.place⟩])) ∧
    ((∀ parts rest error, d.Reads parts text.toList rest →
        ¬d.Unfinished (Location.start.after (Part.sources d parts)) rest error) →
      ∃ tokens, (d.scan text).outcome = .ok tokens) := by
  refine ⟨fun error => scan_eq_error_iff, fun parts rest error hreads hunfinished => ?_, fun hnone => ?_⟩
  · obtain ⟨opening, inside, stop, hscan, hplace, hkind⟩ := hreads.scan_eq_of_unfinished hunfinished
    refine ⟨hunfinished.message_eq, _, opening, inside, by rw [hscan], hplace, hkind, ?_⟩
    rw [hplace]
    exact hreads.outcome_scan_sources
  · cases houtcome : (d.scan text).outcome with
    | ok tokens => exact ⟨tokens, rfl⟩
    | error error =>
        obtain ⟨parts, rest, hreads, hunfinished⟩ := scan_eq_error_iff.1 houtcome
        exact absurd hunfinished (hnone parts rest error hreads)

/-- Behind plain text a string that hides the end of its tag and is not closed itself, a tag that ends with the first
character of its closing delimiter, and a comment with a tag in it. -/
theorem scan_eq_error_iff_unfinished_hidden_ends :
    (∃ error parts rest, (standard.scan "a\x7b% x '%\x7d %\x7d").outcome = .error error ∧
      standard.Reads parts "a\x7b% x '%\x7d %\x7d".toList rest ∧
      standard.Unfinished (Location.start.after (Part.sources standard parts)) rest error ∧
      error.message = "Unexpected character in tag: \"'\" at 1:7") ∧
    (∃ error parts rest, (standard.scan "a\n\x7b% '%\x7d' %").outcome = .error error ∧
      standard.Reads parts "a\n\x7b% '%\x7d' %".toList rest ∧
      standard.Unfinished (Location.start.after (Part.sources standard parts)) rest error ∧
      error.message = "Unclosed tag, expected '%\x7d' at 2:1") ∧
    ∃ error parts rest, (standard.scan "a\x7b# \x7b% %\x7d").outcome = .error error ∧
      standard.Reads parts "a\x7b# \x7b% %\x7d".toList rest ∧
      standard.Unfinished (Location.start.after (Part.sources standard parts)) rest error ∧
      error.message = "Unclosed comment, expected '#\x7d' at 1:2" := by
  have hexists : ∀ (text : String) (error : ScanError), (standard.scan text).outcome = .error error →
      ∃ error' parts rest, (standard.scan text).outcome = .error error' ∧ standard.Reads parts text.toList rest ∧
        standard.Unfinished (Location.start.after (Part.sources standard parts)) rest error' ∧
        error'.message = error.message := by
    intro text error herror
    obtain ⟨parts, rest, hreads, hunfinished⟩ := ((scan_eq_error_iff_unfinished standard text).1 error).1 herror
    exact ⟨error, parts, rest, herror, hreads, hunfinished, rfl⟩
  refine ⟨?_, ?_, ?_⟩
  · exact hexists _ ⟨.unexpectedCharacter '\'', ⟨6, 1, 7⟩⟩ (by cbv)
  · exact hexists _ ⟨.unclosedTag "%\x7d", ⟨2, 2, 1⟩⟩ (by cbv)
  · exact hexists _ ⟨.unclosedComment "#\x7d", ⟨1, 1, 2⟩⟩ (by cbv)

end Delimiters

end TagTemplate
