import Mathlib
import TagTemplate.Proofs.Stray

/-!
# Regions are lists of their own

A cursor over a region of a list reads it as if the list held nothing else. With the built-in tags the same comes of a
region and of a list of just its tokens. All that is ever seen of the tokens around a region is the one at its bound,
which is to blame if the region ends within a construct.
-/

namespace TagTemplate

open Grammar

namespace Cursor

variable {cursor cursor' : Cursor}

/-- The tokens from the cursor to the bound, ends of the text among them. -/
def remaining (cursor : Cursor) : List Token :=
  (cursor.tokens.toList.take cursor.bound.toNat).drop cursor.position.toNat

/-- The token at the bound, or the end of the text if there is none. -/
def boundary (cursor : Cursor) : Token :=
  cursor.tokens[cursor.bound.toNat]?.getD (endToken cursor.tokens)

theorem ahead_eq_takeWhile (cursor : Cursor) :
    cursor.ahead = cursor.remaining.takeWhile (·.kind != .eof) := rfl

theorem here_skip (h : cursor.Placed) (n : Nat) :
    (cursor.skip n).here = cursor.remaining[n]?.getD cursor.boundary := by
  have hposition := h.position_nonneg
  have hindex : (cursor.position + n).toNat = cursor.position.toNat + n := by omega
  rw [remaining, List.getElem?_drop, List.getElem?_take, ← hindex]
  change cursor.tokens[(min (cursor.position + n) cursor.bound).toNat]?.getD (endToken cursor.tokens) = _
  by_cases hbound : cursor.position + n < cursor.bound
  · rw [Int.min_eq_left (Int.le_of_lt hbound), if_pos (by omega), Array.getElem?_toList]
    cases htoken : cursor.tokens[(cursor.position + n).toNat]? with
    | some token => rfl
    | none =>
        have hsize : cursor.tokens.size ≤ (cursor.position + n).toNat := Array.getElem?_eq_none_iff.1 htoken
        rw [boundary, Array.getElem?_eq_none (by omega)]
        rfl
  · rw [Int.min_eq_right (by omega), if_neg (by omega)]
    rfl

theorem final_eq (h : cursor.Placed) :
    cursor.final = cursor.remaining[cursor.ahead.length]?.getD cursor.boundary :=
  here_skip h _

/-- Two cursors that have the same tokens to read come to the same with the built-in tags, unless these end within a
construct. Then each has the token at its own bound to blame. -/
theorem outcome_recognise_of_remaining_eq (disabled : List String) (h : cursor.Placed) (h' : cursor'.Placed)
    (hremaining : cursor.remaining = cursor'.remaining) :
    (cursor.recognise (Tag.builtinReaders disabled)).outcome =
        (cursor'.recognise (Tag.builtinReaders disabled)).outcome ∨
      ∃ complaint,
        (cursor.recognise (Tag.builtinReaders disabled)).outcome =
          .error (.grammar .general complaint cursor.boundary) ∧
        (cursor'.recognise (Tag.builtinReaders disabled)).outcome =
          .error (.grammar .general complaint cursor'.boundary) ∧
        (cursor.recognise (Tag.builtinReaders disabled)).cursor = cursor.skip cursor.remaining.length ∧
        (cursor'.recognise (Tag.builtinReaders disabled)).cursor = cursor'.skip cursor'.remaining.length := by
  have hahead : cursor.ahead = cursor'.ahead := by rw [ahead_eq_takeWhile, ahead_eq_takeWhile, hremaining]
  obtain ⟨before, rest, nodes, hsplit, hbefore, rfl | ⟨fault, hstray⟩ | ⟨complaint, hbroken⟩⟩ :=
    derives_or_stray_or_broken disabled cursor.ahead
  · left
    rw [List.append_nil] at hsplit
    rw [(outcome_recognise_eq_ok_iff h).2 (hsplit ▸ hbefore),
      (outcome_recognise_eq_ok_iff h').2 (hahead ▸ hsplit ▸ hbefore)]
  · left
    rw [outcome_recognise_of_stray h hsplit hbefore hstray,
      outcome_recognise_of_stray h' (hahead ▸ hsplit) hbefore hstray]
  · obtain ⟨hfault, hcursor⟩ := recognise_of_broken h hsplit hbefore hbroken
    obtain ⟨hfault', hcursor'⟩ := recognise_of_broken h' (hahead ▸ hsplit) hbefore hbroken
    rw [final_eq h] at hfault
    rw [final_eq h', ← hremaining, ← hahead] at hfault'
    cases htoken : cursor.remaining[cursor.ahead.length]? with
    | some token =>
        left
        rw [hfault, hfault', htoken]
        rfl
    | none =>
        -- No end of the text comes before the bound, so that the cursor stops there.
        right
        have hlength : cursor.ahead.length = cursor.remaining.length :=
          (List.takeWhile_prefix _).length_le.antisymm (List.getElem?_eq_none_iff.1 htoken)
        rw [htoken] at hfault hfault'
        rw [← hremaining, ← hlength]
        exact ⟨complaint, hfault, hfault', hcursor, hahead ▸ hcursor'⟩

theorem placed_region (tokens : Array Token) (start stop : Nat) : (region tokens start stop).Placed :=
  ⟨Int.natCast_nonneg start, Int.natCast_nonneg stop⟩

theorem remaining_region (tokens : Array Token) (start stop : Nat) :
    (region tokens start stop).remaining = (tokens.extract start stop).toList := by
  simp [remaining, region, List.extract_eq_take_drop, List.drop_take]

theorem remaining_whole (tokens : Array Token) : (whole tokens).remaining = tokens.toList := by
  simp [remaining, whole, region]

theorem boundary_whole (tokens : Array Token) : (whole tokens).boundary = endToken tokens := by
  simp [boundary, whole, region]

end Cursor

/-- With the built-in tags the same comes of a region and of a list of its tokens alone, except that a region which ends
within a construct blames the token at its bound, and the list its end. Nothing outside of a region has any
influence on the nodes that are recognised in it. -/
theorem recognise_sub (disabled : List String) (cursor : Cursor) (start stop : Nat) (hstart : start ≤ stop)
    (hstop : stop ≤ cursor.tokens.size) :
    (((cursor.sub start stop).recognise (Tag.builtinReaders disabled)).outcome =
        ((Cursor.whole (cursor.tokens.extract start stop)).recognise (Tag.builtinReaders disabled)).outcome ∨
      ∃ complaint,
        ((cursor.sub start stop).recognise (Tag.builtinReaders disabled)).outcome =
          .error (.grammar .general complaint (cursor.tokens[stop]?.getD (Cursor.endToken cursor.tokens))) ∧
        ((Cursor.whole (cursor.tokens.extract start stop)).recognise (Tag.builtinReaders disabled)).outcome =
          .error (.grammar .general complaint (Cursor.endToken (cursor.tokens.extract start stop))) ∧
        ((cursor.sub start stop).recognise (Tag.builtinReaders disabled)).cursor.position = stop ∧
        ((Cursor.whole (cursor.tokens.extract start stop)).recognise
          (Tag.builtinReaders disabled)).cursor.position = stop - start) ∧
    ∀ (other : Cursor) (start' stop' : Nat), other.tokens.extract start' stop' = cursor.tokens.extract start stop →
      ∀ nodes, ((other.sub start' stop').recognise (Tag.builtinReaders disabled)).outcome = .ok nodes ↔
        ((cursor.sub start stop).recognise (Tag.builtinReaders disabled)).outcome = .ok nodes := by
  have hplaced := Cursor.placed_region cursor.tokens start stop
  have hremaining := Cursor.remaining_region cursor.tokens start stop
  constructor
  · have hsame := hremaining.trans (Cursor.remaining_whole (cursor.tokens.extract start stop)).symm
    rcases Cursor.outcome_recognise_of_remaining_eq disabled hplaced (Cursor.placed_whole _) hsame with
      heq | ⟨complaint, hfault, hfault', hcursor, hcursor'⟩
    · exact .inl heq
    · have hlength : (cursor.tokens.extract start stop).size = stop - start := by
        rw [Array.size_extract, Nat.min_eq_left hstop]
      rw [Cursor.boundary_whole] at hfault'
      refine .inr ⟨complaint, hfault, hfault', ?_, ?_⟩
      · rw [Cursor.sub, hcursor, hremaining, Array.length_toList, hlength]
        simp only [Cursor.skip, Cursor.region]
        omega
      · rw [hcursor', Cursor.remaining_whole, Array.length_toList, hlength]
        simp only [Cursor.skip, Cursor.whole, Cursor.region]
        omega
  · intro other start' stop' hextract nodes
    have hremaining' := Cursor.remaining_region other.tokens start' stop'
    rw [hextract, ← hremaining] at hremaining'
    rcases Cursor.outcome_recognise_of_remaining_eq disabled (Cursor.placed_region other.tokens start' stop')
      hplaced hremaining' with heq | ⟨complaint, hfault, hfault', -⟩
    · rw [Cursor.sub, Cursor.sub, heq]
    · rw [Cursor.sub, Cursor.sub, hfault, hfault']
      simp

/-- A region that ends behind the name of the tag which ends a block comment, right in front of that tag's delimiter. -/
theorem recognise_sub_end_of_comment :
    ∃ cursor : Cursor, 0 ≤ 5 ∧ 5 ≤ cursor.tokens.size ∧ ∃ complaint,
      ((cursor.sub (0 : Nat) (5 : Nat)).recognise (Tag.builtinReaders [])).outcome =
        .error (.grammar .general complaint (cursor.tokens[5]?.getD (Cursor.endToken cursor.tokens))) ∧
      ((Cursor.whole (cursor.tokens.extract 0 5)).recognise (Tag.builtinReaders [])).outcome =
        .error (.grammar .general complaint (Cursor.endToken (cursor.tokens.extract 0 5))) ∧
      ((cursor.sub (0 : Nat) (5 : Nat)).recognise (Tag.builtinReaders [])).cursor.position = (5 : Nat) ∧
      ((Cursor.whole (cursor.tokens.extract 0 5)).recognise (Tag.builtinReaders [])).cursor.position =
        (5 : Nat) - (0 : Nat) := by
  obtain ⟨cursor, hsize, hview, hlist⟩ : ∃ cursor : Cursor, 5 ≤ cursor.tokens.size ∧
      ((cursor.sub (0 : Nat) (5 : Nat)).recognise (Tag.builtinReaders [])).outcome =
        .error (.grammar .general (.expectedEndOfTag "comment") ⟨.blockEnd, ">", ⟨20, 1, 21⟩⟩) ∧
      ((Cursor.whole (cursor.tokens.extract 0 5)).recognise (Tag.builtinReaders [])).outcome =
        .error (.grammar .general (.expectedEndOfTag "comment") ⟨.eof, "", ⟨20, 1, 11⟩⟩) := by
    refine ⟨Cursor.whole #[⟨.blockBegin, "<", ⟨0, 1, 1⟩⟩, ⟨.name, "comment", ⟨1, 1, 2⟩⟩,
      ⟨.blockEnd, ">", ⟨8, 1, 9⟩⟩, ⟨.blockBegin, "<", ⟨9, 1, 10⟩⟩, ⟨.name, "endcomment", ⟨10, 1, 11⟩⟩,
      ⟨.blockEnd, ">", ⟨20, 1, 21⟩⟩], by decide, ?_, ?_⟩
    all_goals cbv
  refine ⟨cursor, by decide, hsize, (recognise_sub [] cursor 0 5 (by decide) hsize).1.resolve_left ?_⟩
  rw [hview, hlist]
  simp [Fault.grammar]

end TagTemplate
