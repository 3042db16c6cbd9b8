import TagTemplate.Proofs.Scan

/-!
# Delimiters with which tags can be written

Blanks in a tag are skipped before its end is looked for, so that a delimiter which starts with a blank never closes
one. Whatever the other three delimiters are, this is the only way to make tags impossible: two blanks are enough to
find one that keeps a short comment from opening in the place of a tag.
-/

namespace TagTemplate.Delimiters

open Text (IsRun isBlank)

variable {d : Delimiters} {parts : List Part} {s rest : List Char} {blank : Char}

/-- The delimiter that closes a tag does not start with a blank. -/
def Closable (d : Delimiters) : Prop := ∀ c ∈ d.blockEnd.toList.head?, isBlank c = false

theorem closable_of_isRun {gap : List Char} (h : IsRun isBlank gap (d.blockEnd.toList ++ rest)) : d.Closable := by
  intro c hc
  apply h.stop
  obtain ⟨s, hs⟩ := List.head?_eq_some_iff.1 hc
  rw [hs]
  rfl

theorem Closable.isRun (h : d.Closable) (hblank : isBlank blank = true) :
    IsRun isBlank [blank] (d.blockEnd.toList ++ rest) where
  all := List.forall_mem_singleton.2 hblank
  stop := by
    intro c hc
    apply h
    rwa [List.head?_append_of_ne_nil _ (mt String.toList_eq_nil_iff.1 d.blockEnd_ne)] at hc

/-! ### The shortest tag -/

/-- Of two blanks there is one that does not continue the delimiter of tags to that of short comments. -/
theorem exists_blank (d : Delimiters) :
    ∃ blank, isBlank blank = true ∧ ¬d.blockStart.toList ++ [blank] <+: d.commentStart.toList := by
  by_cases hspace : d.blockStart.toList ++ [' '] <+: d.commentStart.toList
  · refine ⟨'\t', by decide, fun htab => ?_⟩
    have hprefix := List.prefix_of_prefix_length_le hspace htab (by simp)
    have hsame := hprefix.eq_of_length (by simp)
    exact absurd (List.append_cancel_left hsame) (by decide)
  · exact ⟨' ', by decide, hspace⟩

theorem wins_blockStart (hblank : ¬d.blockStart.toList ++ [blank] <+: d.commentStart.toList) :
    Wins d.blockStart d.commentStart (d.blockStart.toList ++ blank :: rest) := by
  apply wins_of_length_le d.starts_ne (List.prefix_append _ _)
  intro hcomment
  by_contra hlength
  -- A longer delimiter of short comments would go on with the blank.
  apply hblank
  have hlonger : d.blockStart.toList ++ [blank] <+: d.blockStart.toList ++ blank :: rest :=
    ⟨rest, List.append_assoc _ _ _⟩
  apply List.prefix_of_prefix_length_le hlonger hcomment
  rw [List.length_append, List.length_singleton, String.length_toList, String.length_toList]
  omega

theorem stands_blank (h : d.Closable) (hisBlank : isBlank blank = true)
    (hblank : ¬d.blockStart.toList ++ [blank] <+: d.commentStart.toList) : (Part.tag [] [blank]).Stands d [] := by
  refine ⟨?_, trivial, h.isRun hisBlank⟩
  rw [Part.source_tag, List.append_nil]
  exact wins_blockStart hblank

/-- Nothing but a blank between the two delimiters is a tag. -/
theorem scan_blank (h : d.Closable) (hisBlank : isBlank blank = true)
    (hblank : ¬d.blockStart.toList ++ [blank] <+: d.commentStart.toList) :
    (d.scan (String.ofList (d.blockStart.toList ++ blank :: d.blockEnd.toList))).outcome =
      .ok [⟨.blockBegin, d.blockStart, Location.start⟩,
        ⟨.blockEnd, d.blockEnd, (Location.start.after d.blockStart.toList).after [blank]⟩,
        ⟨.eof, "", (Location.start.after d.blockStart.toList).after (blank :: d.blockEnd.toList)⟩] := by
  have hreads : d.Reads [.tag [] [blank]] (d.blockStart.toList ++ blank :: d.blockEnd.toList) [] := by
    have htag := Reads.part (stands_blank h hisBlank hblank) .done
    rwa [Part.source_tag, List.append_nil] at htag
  rw [scan, String.toList_ofList, Mode.outcome_eq_ok_iff]
  refine ⟨_, hreads, ?_⟩
  simp [Part.pieces, Piece.tokens, Piece.source, Piece.final]

/-! ### Texts with tags -/

theorem Reads.closable (h : d.Reads parts s rest) {piece : Piece} (hmem : piece ∈ Part.allPieces d parts)
    (hkind : piece.kind = .blockBegin ∨ piece.kind = .blockEnd) : d.Closable := by
  induction h with
  | done => exact absurd hmem List.not_mem_nil
  | @part part parts s rest hstands _ ih =>
      rcases List.mem_append.1 hmem with hmem | hmem
      · cases part with
        | tag lexemes gap => exact closable_of_isRun hstands.2.2
        | text value =>
            obtain rfl := List.mem_singleton.1 hmem
            simp at hkind
        | comment content =>
            have hkinds : piece.kind ∈ [TokenKind.commentBegin, .data, .commentEnd] := by
              cases content <;> grind [Part.pieces, Part.body]
            grind
      · exact ih hmem

theorem closable_of_mem {text : String} {tokens : List Token} {token : Token} (h : (d.scan text).outcome = .ok tokens)
    (hmem : token ∈ tokens) (hkind : token.kind = .blockBegin ∨ token.kind = .blockEnd) : d.Closable := by
  obtain ⟨parts, hreads, rfl⟩ := Mode.outcome_eq_ok_iff.1 h
  obtain ⟨front, piece, back, hpieces, rfl⟩ := Piece.exists_of_mem_tokens hmem
  have hpiece : piece ∈ Part.allPieces d parts ++ [Piece.final] := by
    rw [hpieces]
    exact List.mem_append_right _ List.mem_cons_self
  rcases List.mem_append.1 hpiece with hpiece | hpiece
  · exact hreads.closable hpiece hkind
  · obtain rfl := List.mem_singleton.1 hpiece
    simp [Piece.final] at hkind

/-- There is a text that starts with a tag exactly if the delimiter that closes tags does not start with a blank, and
otherwise there is not even a tag anywhere in a text that can be read. -/
theorem exists_tag_iff_closable (d : Delimiters) :
    ((∃ text opening rest, (d.scan text).outcome = .ok (opening :: rest) ∧ opening.kind = .blockBegin ∧
        ∃ closing ∈ rest, closing.kind = .blockEnd) ↔ d.Closable) ∧
      ((∃ text tokens, (d.scan text).outcome = .ok tokens ∧
        ∃ token ∈ tokens, token.kind = .blockBegin ∨ token.kind = .blockEnd) ↔ d.Closable) := by
  have hmem : (∃ text tokens, (d.scan text).outcome = .ok tokens ∧
      ∃ token ∈ tokens, token.kind = .blockBegin ∨ token.kind = .blockEnd) → d.Closable := by
    rintro ⟨text, tokens, hscan, token, htoken, hkind⟩
    exact closable_of_mem hscan htoken hkind
  have hexists : d.Closable → ∃ text opening rest, (d.scan text).outcome = .ok (opening :: rest) ∧
      opening.kind = .blockBegin ∧ ∃ closing ∈ rest, closing.kind = .blockEnd := by
    intro hclosable
    obtain ⟨blank, hisBlank, hblank⟩ := exists_blank d
    exact ⟨_, _, _, scan_blank hclosable hisBlank hblank, rfl, _, List.mem_cons_self, rfl⟩
  refine ⟨⟨?_, hexists⟩, hmem, fun hclosable => ?_⟩
  · rintro ⟨text, opening, rest, hscan, hopening, -⟩
    exact hmem ⟨text, _, hscan, opening, List.mem_cons_self, .inl hopening⟩
  · obtain ⟨text, opening, rest, hscan, hopening, -⟩ := hexists hclosable
    exact ⟨text, _, hscan, opening, List.mem_cons_self, .inl hopening⟩

-- A space closes no tag, although it is accepted as a delimiter.
example : ¬({ standard with blockEnd := " ", blockEnd_ne := by decide } : Delimiters).Closable :=
  fun h => absurd (h ' ' rfl) (by decide)

end TagTemplate.Delimiters
