import TagTemplate.Proofs.Unfinished

/-!
# Reading a text part by part

What reading does with a part that stands at the start of a text: it takes the part's pieces and goes on
behind them. A text that no part stands at the start of is not read without an error, so a text is read
without one exactly if it falls into parts, and then the tokens are those of the parts.
-/

namespace TagTemplate

open Text (IsRun isBlank isRun_takeWhile Clear splitBefore_eq_iff)

theorem exists_cons_append {delimiter : String} (hne : delimiter ≠ "") (rest : List Char) :
    ∃ c s, delimiter.toList ++ rest = c :: s := by
  apply List.exists_cons_of_ne_nil
  exact List.append_ne_nil_of_left_ne_nil (mt String.toList_eq_nil_iff.1 hne) rest

/-! ### One piece -/

namespace Scan

/-- The same reading with tokens before it. -/
def behind (scan : Scan) (tokens : List Token) : Scan :=
  { scan with tokens := tokens ++ scan.tokens }

@[simp] theorem behind_nil (scan : Scan) : scan.behind [] = scan := rfl

theorem behind_behind (scan : Scan) (tokens tokens' : List Token) :
    (scan.behind tokens').behind tokens = scan.behind (tokens ++ tokens') := by
  simp [behind]

@[simp] theorem error_behind (scan : Scan) (tokens : List Token) :
    (scan.behind tokens).error = scan.error := rfl

end Scan

namespace Mode

variable {d : Delimiters}

theorem scan_piece {mode next : Mode} {start : Location} {gap value rest : List Char} {kind : TokenKind}
    (hgap : mode.gap (gap ++ (value ++ rest)) = gap)
    (hstep : mode.step d (start.after gap) (value ++ rest) = .token kind value rest next) :
    mode.scan d start (gap ++ (value ++ rest)) =
      (next.scan d (start.after (gap ++ value)) rest).behind (Piece.tokens start [⟨gap, kind, value⟩]) := by
  have hdrop : (gap ++ (value ++ rest)).drop gap.length = value ++ rest := List.drop_left
  rw [scan]
  split
  all_goals
    rename_i h
    rw [hgap, hdrop, hstep] at h
  · simp at h
  · simp at h
  · simp only [Step.token.injEq] at h
    obtain ⟨rfl, rfl, rfl, rfl⟩ := h
    rw [hgap, Location.after_append]
    rfl

theorem step_text_block {here : Location} {rest : List Char}
    (h : Delimiters.Wins d.blockStart d.commentStart (d.blockStart.toList ++ rest)) :
    Mode.text.step d here (d.blockStart.toList ++ rest) =
      .token .blockBegin d.blockStart.toList rest (.tag here) := by
  obtain ⟨c, s, hs⟩ := exists_cons_append d.blockStart_ne rest
  rw [hs] at h ⊢
  rw [step, if_pos (Delimiters.opensTag_iff.2 h), Step.delimiter, ← hs, List.drop_left]
  simp

theorem step_text_comment {here : Location} {rest : List Char}
    (h : Delimiters.Wins d.commentStart d.blockStart (d.commentStart.toList ++ rest)) :
    Mode.text.step d here (d.commentStart.toList ++ rest) =
      .token .commentBegin d.commentStart.toList rest (.comment here) := by
  obtain ⟨c, s, hs⟩ := exists_cons_append d.commentStart_ne rest
  have hopens := Delimiters.opensComment_iff.2 h
  have htag : ¬d.opensTag (d.commentStart.toList ++ rest) = true := by
    rw [Delimiters.opensComment, Bool.and_eq_true, Bool.not_eq_true'] at hopens
    simp [hopens.2]
  rw [hs] at hopens htag ⊢
  rw [step, if_neg htag, if_pos hopens, Step.delimiter, ← hs, List.drop_left]
  simp

theorem step_text_data {here : Location} {value rest : List Char} (hne : value ≠ [])
    (hclear : Clear d.Opens value rest) (hend : rest = [] ∨ d.Opens rest) :
    Mode.text.step d here (value ++ rest) = .token .data value rest .text := by
  obtain ⟨c, s, rfl⟩ := List.exists_cons_of_ne_nil hne
  have hopens : ¬d.Opens (c :: s ++ rest) := hclear [] (c :: s) rfl (by simp)
  have hsplit : Text.splitBefore d.opens (c :: s ++ rest) = (c :: s, rest) := by
    refine splitBefore_eq_iff.2 ⟨rfl, ?_, ?_⟩
    · exact hclear.mono fun _ => Delimiters.opens_iff.1
    · exact hend.imp id Delimiters.opens_iff.2
  rw [← Delimiters.opens_iff, Delimiters.opens, Bool.or_eq_true, not_or] at hopens
  rw [List.cons_append] at hsplit hopens ⊢
  rw [step, if_neg hopens.1, if_neg hopens.2, hsplit]
  simp

theorem step_tag_block {opened here : Location} {rest : List Char} :
    (Mode.tag opened).step d here (d.blockEnd.toList ++ rest) =
      .token .blockEnd d.blockEnd.toList rest .text := by
  obtain ⟨c, s, hs⟩ := exists_cons_append d.blockEnd_ne rest
  have hbegins : d.blockEnd.toList.isPrefixOf (d.blockEnd.toList ++ rest) = true :=
    List.isPrefixOf_iff_prefix.2 (List.prefix_append _ _)
  rw [hs] at hbegins ⊢
  rw [step, if_pos hbegins, Step.delimiter, ← hs, List.drop_left]

theorem step_tag_lexeme {opened here : Location} {kind : TokenKind} {value rest : List Char}
    (hend : ¬d.blockEnd.toList <+: value ++ rest) (hleads : Lexeme.Leads kind value rest) :
    (Mode.tag opened).step d here (value ++ rest) = .token kind value rest (.tag opened) := by
  have hread : Lexeme.read? (value ++ rest) = some (kind, value, rest) :=
    Lexeme.read?_eq_some_iff.2 ⟨rfl, hleads⟩
  obtain ⟨c, s, hs⟩ := List.exists_cons_of_ne_nil
    (List.append_ne_nil_of_left_ne_nil hleads.fits.value_ne_nil rest)
  rw [← List.isPrefixOf_iff_prefix, hs] at hend
  rw [hs] at hread ⊢
  rw [step, if_neg hend, hread]

theorem step_comment_body {opened here : Location} {body rest : List Char} (hne : body ≠ [])
    (hclear : Clear (d.commentEnd.toList <+: ·) body (d.commentEnd.toList ++ rest)) :
    (Mode.comment opened).step d here (body ++ (d.commentEnd.toList ++ rest)) =
      .token .data body (d.commentEnd.toList ++ rest) (.comment opened) := by
  have hend : ¬d.commentEnd.toList.isPrefixOf (body ++ (d.commentEnd.toList ++ rest)) = true := by
    rw [List.isPrefixOf_iff_prefix]
    exact hclear [] body rfl hne
  have hsplit : Text.splitBefore d.commentEnd.toList.isPrefixOf
      (body ++ (d.commentEnd.toList ++ rest)) = (body, d.commentEnd.toList ++ rest) := by
    refine splitBefore_eq_iff.2 ⟨rfl, ?_, .inr ?_⟩
    · exact hclear.mono fun _ => List.isPrefixOf_iff_prefix.1
    · exact List.isPrefixOf_iff_prefix.2 (List.prefix_append _ _)
  obtain ⟨c, s, hs⟩ := exists_cons_append d.commentEnd_ne rest
  rw [step, if_neg hend, hsplit, hs]

theorem step_comment_end {opened here : Location} {rest : List Char} :
    (Mode.comment opened).step d here (d.commentEnd.toList ++ rest) =
      .token .commentEnd d.commentEnd.toList rest .text := by
  have hbegins : d.commentEnd.toList.isPrefixOf (d.commentEnd.toList ++ rest) = true :=
    List.isPrefixOf_iff_prefix.2 (List.prefix_append _ _)
  rw [step, if_pos hbegins, Step.delimiter, List.drop_left]

/-! ### One part -/

theorem scan_finished {start : Location} :
    Mode.text.scan d start [] = ⟨[⟨.eof, "", start⟩], start, none⟩ := by
  rw [scan]
  rfl

theorem scan_failed {mode : Mode} {start place : Location} {gap rest : List Char}
    {cause : ScanError.Cause} (hgap : mode.gap (gap ++ rest) = gap)
    (hstep : mode.step d (start.after gap) rest = .failed cause place) :
    mode.scan d start (gap ++ rest) = ⟨[], start.after gap, some ⟨cause, place⟩⟩ := by
  have hdrop : (gap ++ rest).drop gap.length = rest := List.drop_left
  rw [scan]
  split
  all_goals
    rename_i h
    rw [hgap, hdrop, hstep] at h
  · simp at h
  · simp only [Step.failed.injEq] at h
    obtain ⟨rfl, rfl⟩ := h
    rw [hgap]
  · simp at h

theorem scan_lexemes {opened start : Location} {lexemes : List Piece} {rest : List Char}
    (h : d.Holds lexemes rest) :
    (Mode.tag opened).scan d start (Piece.sources lexemes ++ rest) =
      ((Mode.tag opened).scan d (start.after (Piece.sources lexemes)) rest).behind
        (Piece.tokens start lexemes) := by
  induction lexemes generalizing start with
  | nil => simp
  | cons lexeme lexemes ih =>
      obtain ⟨⟨hgap, hend, hleads⟩, hrest⟩ := h
      have hpiece := @scan_piece d (.tag opened) _ start _ _ _ _ hgap.takeWhile_append
        (step_tag_lexeme hend hleads)
      rw [Piece.sources_cons, Piece.source, List.append_assoc, List.append_assoc, hpiece, ih hrest,
        Scan.behind_behind, Location.after_append _ (lexeme.gap ++ lexeme.value)]
      rfl

theorem scan_part {start : Location} {part : Part} {rest : List Char} (h : part.Stands d rest) :
    Mode.text.scan d start (part.source d ++ rest) =
      (Mode.text.scan d (start.after (part.source d)) rest).behind
        (Piece.tokens start (part.pieces d)) := by
  cases part with
  | text value =>
      obtain ⟨hne, hclear, hend⟩ := h
      have hpiece := @scan_piece d .text _ start [] _ _ _ rfl (step_text_data hne hclear hend)
      rw [Part.source_text]
      exact hpiece
  | comment body =>
      obtain ⟨hwins, hclear⟩ := h
      rw [Part.source_comment, List.append_assoc, List.append_assoc] at hwins ⊢
      have hopen := @scan_piece d .text (.comment start) start [] _ _ _ rfl (step_text_comment hwins)
      have hclose := @scan_piece d (.comment start) _
        (start.after (d.commentStart.toList ++ body)) [] _ rest _ rfl step_comment_end
      simp only [List.nil_append, ← Location.after_append] at hopen hclose
      rw [hopen]
      cases body with
      | nil =>
          rw [List.append_nil] at hclose
          rw [List.nil_append, hclose, Scan.behind_behind, List.nil_append]
          simp [Part.pieces, Part.body, Piece.tokens, Piece.source]
      | cons c body =>
          have hbody := @scan_piece d (.comment start) _ (start.after d.commentStart.toList) [] _ _ _
            rfl (step_comment_body (by simp) hclear)
          simp only [List.nil_append, ← Location.after_append] at hbody
          rw [hbody, hclose, Scan.behind_behind, Scan.behind_behind]
          simp [Part.pieces, Part.body, Piece.tokens, Piece.source]
  | tag lexemes gap =>
      obtain ⟨hwins, hholds, hgap⟩ := h
      rw [Part.source_tag] at hwins ⊢
      simp only [List.append_assoc] at hwins ⊢
      have hopen := @scan_piece d .text (.tag start) start [] _ _ _ rfl (step_text_block hwins)
      have hclose := @scan_piece d (.tag start) _
        (start.after (d.blockStart.toList ++ Piece.sources lexemes)) gap _ rest _
        hgap.takeWhile_append step_tag_block
      simp only [List.nil_append, ← Location.after_append] at hopen hclose
      rw [hopen, scan_lexemes hholds, ← Location.after_append, hclose, Scan.behind_behind,
        Scan.behind_behind]
      simp [Part.pieces, Piece.tokens, Piece.tokens_append, Piece.source]

/-- Reading takes the parts of a text one after the other. -/
theorem scan_of_reads {start : Location} {parts : List Part} {s rest : List Char}
    (h : d.Reads parts s rest) :
    Mode.text.scan d start s =
      (Mode.text.scan d (start.after (Part.sources d parts)) rest).behind
        (Piece.tokens start (Part.allPieces d parts)) := by
  induction h generalizing start with
  | done => rfl
  | @part part parts s rest hstands hreads ih =>
      rw [scan_part hstands, ih, Scan.behind_behind, Part.sources_cons, Location.after_append,
        Part.allPieces_cons, Piece.tokens_append]
      rfl

/-! ### Constructs that cannot be completed -/

theorem scan_opened {here : Location} {lexemes : List Piece} {rest : List Char}
    (hwins : Delimiters.Wins d.blockStart d.commentStart (d.blockStart.toList ++ (Piece.sources lexemes ++ rest)))
    (hholds : d.Holds lexemes rest) :
    Mode.text.scan d here (d.blockStart.toList ++ (Piece.sources lexemes ++ rest)) =
      ((Mode.tag here).scan d (here.after (d.blockStart.toList ++ Piece.sources lexemes)) rest).behind
        (⟨.blockBegin, d.blockStart, here⟩ :: Piece.tokens (here.after d.blockStart.toList) lexemes) := by
  have hopen := @scan_piece d .text (.tag here) here [] _ _ _ rfl (step_text_block hwins)
  simp only [List.nil_append] at hopen
  rw [hopen, scan_lexemes hholds, Scan.behind_behind, Location.after_append]
  simp [Piece.tokens]

theorem scan_unclosedComment {here : Location} {rest : List Char}
    (hwins : Delimiters.Wins d.commentStart d.blockStart (d.commentStart.toList ++ rest))
    (hnone : ¬d.commentEnd.toList <:+: rest) :
    Mode.text.scan d here (d.commentStart.toList ++ rest) =
      ⟨[⟨.commentBegin, d.commentStart, here⟩], here.after d.commentStart.toList,
        some ⟨.unclosedComment d.commentEnd, here⟩⟩ := by
  have hclear := (Text.clear_nil_iff (mt String.toList_eq_nil_iff.1 d.commentEnd_ne)).2 hnone
  have hsplit : Text.splitBefore d.commentEnd.toList.isPrefixOf rest = (rest, []) := by
    refine splitBefore_eq_iff.2 ⟨(List.append_nil rest).symm, ?_, .inl rfl⟩
    exact hclear.mono fun _ => List.isPrefixOf_iff_prefix.1
  have hstep : (Mode.comment here).step d (here.after d.commentStart.toList) rest =
      .failed (.unclosedComment d.commentEnd) here := by
    have hnot : ¬d.commentEnd.toList.isPrefixOf rest = true :=
      fun hbegins => hnone (List.isPrefixOf_iff_prefix.1 hbegins).isInfix
    rw [step, if_neg hnot, hsplit]
  have hopen := @scan_piece d .text (.comment here) here [] _ _ _ rfl (step_text_comment hwins)
  have hfailed := @scan_failed d (.comment here) (here.after d.commentStart.toList) here [] rest _ rfl hstep
  simp only [List.nil_append] at hopen hfailed
  rw [hopen, hfailed]
  simp [Piece.tokens, Scan.behind]

theorem scan_unclosedTag {here : Location} {lexemes : List Piece} {gap : List Char}
    (hwins : Delimiters.Wins d.blockStart d.commentStart (d.blockStart.toList ++ (Piece.sources lexemes ++ gap)))
    (hholds : d.Holds lexemes gap) (hgap : ∀ c ∈ gap, isBlank c = true) :
    Mode.text.scan d here (d.blockStart.toList ++ (Piece.sources lexemes ++ gap)) =
      ⟨⟨.blockBegin, d.blockStart, here⟩ :: Piece.tokens (here.after d.blockStart.toList) lexemes,
        here.after (d.blockStart.toList ++ (Piece.sources lexemes ++ gap)),
        some ⟨.unclosedTag d.blockEnd, here⟩⟩ := by
  have hrun : IsRun isBlank gap [] := ⟨hgap, by simp⟩
  have hfailed := @scan_failed d (.tag here) (here.after (d.blockStart.toList ++ Piece.sources lexemes)) here gap [] _
    hrun.takeWhile_append rfl
  rw [List.append_nil] at hfailed
  rw [scan_opened hwins hholds, hfailed]
  simp [Scan.behind]

theorem scan_unexpectedCharacter {here : Location} {lexemes : List Piece} {gap : List Char} {c : Char}
    {rest : List Char}
    (hwins : Delimiters.Wins d.blockStart d.commentStart
      (d.blockStart.toList ++ (Piece.sources lexemes ++ (gap ++ c :: rest))))
    (hholds : d.Holds lexemes (gap ++ c :: rest)) (hgap : IsRun isBlank gap (c :: rest))
    (hend : ¬d.blockEnd.toList <+: c :: rest) (hmisses : ∀ kind ∈ Lexeme.patterns, Lexeme.Misses kind (c :: rest)) :
    Mode.text.scan d here (d.blockStart.toList ++ (Piece.sources lexemes ++ (gap ++ c :: rest))) =
      ⟨⟨.blockBegin, d.blockStart, here⟩ :: Piece.tokens (here.after d.blockStart.toList) lexemes,
        here.after (d.blockStart.toList ++ (Piece.sources lexemes ++ gap)),
        some ⟨.unexpectedCharacter c, here.after (d.blockStart.toList ++ (Piece.sources lexemes ++ gap))⟩⟩ := by
  have hstep : ∀ start, (Mode.tag here).step d start (c :: rest) = .failed (.unexpectedCharacter c) start := by
    intro start
    rw [step, if_neg (by rwa [List.isPrefixOf_iff_prefix]), Lexeme.read?_eq_none_iff.2 hmisses]
  have hfailed := @scan_failed d (.tag here) (here.after (d.blockStart.toList ++ Piece.sources lexemes)) _ gap _ _
    hgap.takeWhile_append (hstep _)
  rw [scan_opened hwins hholds, hfailed]
  simp [Scan.behind]

/-- Reading takes the delimiter of a construct that cannot be completed and goes no further than its end. -/
theorem scan_of_unfinished {here : Location} {s : List Char} {error : ScanError} (h : d.Unfinished here s error) :
    ∃ opening inside stop, Mode.text.scan d here s = ⟨opening :: inside, stop, some error⟩ ∧ opening.place = here ∧
      (opening.kind = .blockBegin ∨ opening.kind = .commentBegin) := by
  cases h with
  | comment hwins hnone => exact ⟨_, _, _, scan_unclosedComment hwins hnone, rfl, .inr rfl⟩
  | tag hwins hholds hgap => exact ⟨_, _, _, scan_unclosedTag hwins hholds hgap, rfl, .inl rfl⟩
  | character hwins hholds hgap hend hmisses =>
      exact ⟨_, _, _, scan_unexpectedCharacter hwins hholds hgap hend hmisses, rfl, .inl rfl⟩

/-! ### Texts that are read without an error -/

theorem reads_of_error_eq_none {start : Location} {s : List Char}
    (herror : (Mode.text.scan d start s).error = none) : ∃ parts, d.Reads parts s [] := by
  obtain ⟨parts, rest, hreads, rfl | ⟨error, hunfinished⟩⟩ := d.reads_or_unfinished start s
  · exact ⟨parts, hreads⟩
  · obtain ⟨opening, inside, stop, hscan, -⟩ := scan_of_unfinished hunfinished
    rw [scan_of_reads hreads, hscan] at herror
    cases herror

theorem outcome_eq_ok_iff {start : Location} {s : List Char} {tokens : List Token} :
    (Mode.text.scan d start s).outcome = .ok tokens ↔
      ∃ parts, d.Reads parts s [] ∧
        tokens = Piece.tokens start (Part.allPieces d parts ++ [Piece.final]) := by
  have houtcome {parts : List Part} (hreads : d.Reads parts s []) :
      (Mode.text.scan d start s).outcome =
        .ok (Piece.tokens start (Part.allPieces d parts ++ [Piece.final])) := by
    rw [scan_of_reads hreads, scan_finished, Piece.tokens_append]
    rfl
  constructor
  · intro h
    have herror : (Mode.text.scan d start s).error = none := by
      rw [Scan.outcome] at h
      split at h
      · assumption
      · simp at h
    obtain ⟨parts, hreads⟩ := reads_of_error_eq_none herror
    rw [houtcome hreads, Except.ok.injEq] at h
    exact ⟨parts, hreads, h.symm⟩
  · rintro ⟨parts, hreads, rfl⟩
    exact houtcome hreads

end Mode

end TagTemplate
