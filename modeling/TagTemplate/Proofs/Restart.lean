import TagTemplate.Proofs.Location

/-!
# Starting afresh

Behind a tag or a short comment a text is read as if it started there. No delimiter, string or number in front of
that place reaches beyond it, as long as neither opening delimiter is hidden in the other and the delimiter that
ends a tag has two characters.
-/

namespace TagTemplate

variable {d : Delimiters} {parts : List Part}

theorem Scan.outcome_behind_shift (scan : Scan) (origin : Location) (tokens : List Token) :
    ((scan.shift origin).behind tokens).outcome =
      match scan.outcome with
      | .ok tokens' => .ok (tokens ++ tokens'.map (Token.shift origin))
      | .error error => .error (error.shift origin) := by
  rw [outcome, outcome, error_behind]
  cases herror : scan.error <;> simp [shift, behind, herror]

namespace Delimiters.Reads

/-- Behind parts of a text the rest is read as it is on its own, but for its place. -/
theorem scan_append {a b : String} (h : d.Reads parts (a ++ b).toList b.toList) :
    d.scan (a ++ b) =
      ((d.scan b).shift (Location.start.after a.toList)).behind (Part.tokens d Location.start parts) := by
  have hsource : Part.sources d parts = a.toList := by
    have heq := h.eq_append
    rw [String.toList_append] at heq
    exact (List.append_cancel_right heq).symm
  have hrest : Mode.text.scan d (Location.start.after a.toList) b.toList =
      (d.scan b).shift (Location.start.after a.toList) := by
    have hshift := @Mode.scan_shift d (Location.start.after a.toList) .text Location.start (by decide) b.toList
    rwa [Location.start_shift] at hshift
  rw [Delimiters.scan, Mode.scan_of_reads h, hsource, hrest]
  rfl

/-- A text whose last token closes a tag or a short comment falls into the same parts whatever follows it. -/
theorem extend_of_closed (hd : d.Settled) {s : List Char} (h : d.Reads parts s []) {start : Location}
    {front : List Token} {last : Token} (htokens : Part.tokens d start parts = front ++ [last])
    (hlast : last.kind = .blockEnd ∨ last.kind = .commentEnd) (more : List Char) :
    d.Reads parts (s ++ more) more := by
  refine h.extend_of_settled hd fun _ value hvalue => ?_
  exfalso
  obtain ⟨others, rfl⟩ := List.getLast?_eq_some_iff.1 hvalue
  have hdata : last.kind = .data := by
    rw [Part.tokens_append] at htokens
    obtain ⟨-, hlast⟩ := List.append_inj' htokens rfl
    rw [← List.singleton_inj.1 hlast]
  rcases hlast with hlast | hlast <;> simp [hdata] at hlast

end Delimiters.Reads

/-- A text that is read and whose last token closes a tag or a short comment, with any text behind it. The tokens
are those of the one, without the end, and then those of the other, moved behind it. If the other cannot be read,
the whole cannot be for the same reason, which has moved as well. -/
theorem scan_append_of_closed (d : Delimiters) (hd : d.Settled) (a b : String) (front : List Token)
    (last final : Token) (ha : (d.scan a).outcome = .ok (front ++ [last, final]))
    (hlast : last.kind = .blockEnd ∨ last.kind = .commentEnd) :
    final.kind = .eof ∧ final.place.offset = a.length ∧ final.place.Exact a.toList ∧
      (d.scan (a ++ b)).outcome =
        match (d.scan b).outcome with
        | .ok tokens => .ok (front ++ last :: tokens.map (Token.shift final.place))
        | .error error => .error (error.shift final.place) := by
  obtain ⟨parts, hreads, htokens⟩ := Mode.outcome_eq_ok_iff.1 ha
  have hsource : Part.sources d parts = a.toList := by
    rw [hreads.eq_append, List.append_nil]
  have hall : front ++ [last] ++ [final] =
      Part.tokens d Location.start parts ++ [⟨.eof, "", Location.start.after a.toList⟩] := by
    rw [List.append_assoc, ← hsource]
    exact htokens.trans (Piece.tokens_append _ _ _)
  obtain ⟨hfront, hfinal⟩ := List.append_inj' hall rfl
  obtain rfl := List.singleton_inj.1 hfinal
  have hextend : d.Reads parts (a ++ b).toList b.toList := by
    rw [String.toList_append]
    exact hreads.extend_of_closed hd hfront.symm hlast b.toList
  refine ⟨rfl, ?_, Location.exact_start_after (List.prefix_refl _), ?_⟩
  · rw [Location.offset_start_after, String.length_toList]
  · rw [hextend.scan_append, Scan.outcome_behind_shift, ← hfront]
    simp only [List.append_assoc, List.singleton_append]

/-- Behind a tag that ends with a point after a number, a text that starts with a digit. -/
theorem scan_append_of_closed_point :
    ∃ d : Delimiters, d.Settled ∧ d.blockEnd = ".>" ∧
      (d.scan ("\n<* 1.>" ++ "5*\n<")).outcome = .ok [⟨.data, "\n", ⟨0, 1, 1⟩⟩, ⟨.blockBegin, "<*", ⟨1, 2, 1⟩⟩,
        ⟨.integer, "1", ⟨4, 2, 4⟩⟩, ⟨.blockEnd, ".>", ⟨5, 2, 5⟩⟩, ⟨.data, "5*\n<", ⟨7, 2, 7⟩⟩, ⟨.eof, "", ⟨11, 3, 2⟩⟩] ∧
      (d.scan ("\n<* 1.>" ++ "5*<\n")).outcome = .error ⟨.unclosedComment ">*", ⟨8, 2, 8⟩⟩ := by
  refine ⟨⟨"<*", ".>", "*<", ">*", by decide, by decide, by decide, by decide, by decide⟩,
    ⟨by decide, by decide, by decide⟩, rfl, ?_, ?_⟩
  all_goals
    refine (scan_append_of_closed _ ⟨by decide, by decide, by decide⟩ "\n<* 1.>" _ [⟨.data, "\n", ⟨0, 1, 1⟩⟩,
      ⟨.blockBegin, "<*", ⟨1, 2, 1⟩⟩, ⟨.integer, "1", ⟨4, 2, 4⟩⟩] ⟨.blockEnd, ".>", ⟨5, 2, 5⟩⟩
      ⟨.eof, "", ⟨7, 2, 7⟩⟩ ?_ (.inl rfl)).2.2.2.trans ?_
    all_goals cbv

end TagTemplate
