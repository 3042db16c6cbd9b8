import Mathlib.Order.Bounds.Basic
import TagTemplate.Proofs.Cursor

/-!
# The first end marker

Skipping ends at an index of the token list that can be found without skipping: the least one at which a tag with
one of the names opens, as long as neither the bound nor the end of the text comes before its name.
-/

namespace TagTemplate

namespace Cursor

variable {tokens : Array Token} {names : List String} {cursor : Cursor} {token : Token}

/-- A tag with one of the names opens at an index of a region, and the text does not end between `position` and that
name. -/
structure IsMarker (tokens : Array Token) (names : List String) (position bound index : Nat) : Prop where
  position_le : position ≤ index
  lt_bound : index + 1 < bound
  opening : ∃ opening ∈ tokens[index]?, opening.kind = .blockBegin
  name : ∃ name ∈ tokens[index + 1]?, name.kind = .name ∧ name.value ∈ names
  goes_on : ∀ i ≤ index + 1, position ≤ i → ∀ token ∈ tokens[i]?, token.kind ≠ .eof

instance (tokens : Array Token) (names : List String) (position bound index : Nat) :
    Decidable (IsMarker tokens names position bound index) :=
  decidable_of_iff (position ≤ index ∧ index + 1 < bound ∧ (∃ opening ∈ tokens[index]?, opening.kind = .blockBegin) ∧
      (∃ name ∈ tokens[index + 1]?, name.kind = .name ∧ name.value ∈ names) ∧
      ∀ i ≤ index + 1, position ≤ i → ∀ token ∈ tokens[i]?, token.kind ≠ .eof)
    ⟨fun ⟨hle, hlt, hopening, hname, hgoes⟩ => ⟨hle, hlt, hopening, hname, hgoes⟩,
      fun ⟨hle, hlt, hopening, hname, hgoes⟩ => ⟨hle, hlt, hopening, hname, hgoes⟩⟩

/-- The text ends at an index of a region, or the region does, and neither does so between `position` and that index. -/
structure IsEnd (tokens : Array Token) (position bound index : Nat) : Prop where
  position_le : position ≤ index
  le_bound : index ≤ bound
  ends : index = bound ∨ ∃ token ∈ tokens[index]?, token.kind = .eof
  goes_on : ∀ i < index, position ≤ i → ∀ token ∈ tokens[i]?, token.kind ≠ .eof

/-! ### Markers among the tokens ahead -/

/-- The places in a list of tokens at which a tag with one of the names opens. -/
def markers (names : List String) (tokens : List Token) : Set Nat :=
  {n | ∃ opening ∈ tokens[n]?, ∃ name ∈ tokens[n + 1]?, Marks names opening name}

theorem zero_mem_markers_iff {opening name : Token} {tokens : List Token} :
    0 ∈ markers names (opening :: name :: tokens) ↔ Marks names opening name := by
  simp [markers]

theorem succ_mem_markers_iff {tokens : List Token} {n : Nat} :
    n + 1 ∈ markers names (token :: tokens) ↔ n ∈ markers names tokens := Iff.rfl

theorem isLeast_of_firstMarker? {tokens : List Token} {count : Nat} (h : firstMarker? names tokens = some count) :
    IsLeast (markers names tokens) count := by
  fun_induction firstMarker? names tokens generalizing count with
  | case1 opening name tokens hmarks =>
      obtain rfl := Option.some.inj h
      exact ⟨zero_mem_markers_iff.2 hmarks, fun _ _ => Nat.zero_le _⟩
  | case2 opening name tokens hmarks ih =>
      obtain ⟨count, hcount, rfl⟩ := Option.map_eq_some_iff.1 h
      obtain ⟨hmem, hleast⟩ := ih hcount
      refine ⟨succ_mem_markers_iff.2 hmem, fun n hn => ?_⟩
      cases n with
      | zero => exact absurd (zero_mem_markers_iff.1 hn) hmarks
      | succ n => exact Nat.succ_le_succ (hleast (succ_mem_markers_iff.1 hn))
  | case3 => cases h

theorem markers_eq_empty_of_firstMarker? {tokens : List Token} (h : firstMarker? names tokens = none) :
    markers names tokens = ∅ := by
  fun_induction firstMarker? names tokens with
  | case1 => cases h
  | case2 opening name tokens hmarks ih =>
      have hempty := ih (Option.map_eq_none_iff.1 h)
      refine Set.eq_empty_of_forall_notMem fun n hn => ?_
      cases n with
      | zero => exact hmarks (zero_mem_markers_iff.1 hn)
      | succ n => exact Set.notMem_empty n (hempty ▸ succ_mem_markers_iff.1 hn)
  | case3 tokens hshort =>
      refine Set.eq_empty_of_forall_notMem ?_
      rintro n ⟨opening, -, name, hname, -⟩
      match tokens with
      | [] | [_] => simp at hname
      | opening :: name :: tokens => exact hshort opening name tokens rfl

/-! ### What lies ahead in a region -/

theorem getElem?_takeWhile_eq_some_iff {α : Type} {p : α → Bool} {l : List α} {n : Nat} {a : α} :
    (l.takeWhile p)[n]? = some a ↔ l[n]? = some a ∧ ∀ m ≤ n, ∀ b ∈ l[m]?, p b = true := by
  induction l generalizing n with
  | nil => simp
  | cons c l ih =>
      by_cases hc : p c = true
      · rw [List.takeWhile_cons_of_pos hc]
        cases n with
        | zero => simp [hc]
        | succ n =>
            rw [List.getElem?_cons_succ, List.getElem?_cons_succ, ih]
            refine and_congr_right fun _ => ⟨fun h m hm => ?_, fun h m hm => h (m + 1) (Nat.succ_le_succ hm)⟩
            cases m with
            | zero => simpa using hc
            | succ m => exact h m (Nat.le_of_succ_le_succ hm)
      · rw [List.takeWhile_cons_of_neg hc]
        exact iff_of_false (by simp) fun h => hc (h.2 0 (Nat.zero_le n) c rfl)

section Region

variable {start : Int} {position bound : Nat}

theorem getElem?_ahead_eq_some_iff {n : Nat} :
    (Cursor.mk tokens start position bound).ahead[n]? = some token ↔
      position + n < bound ∧ tokens[position + n]? = some token ∧
        ∀ m ≤ n, ∀ token' ∈ tokens[position + m]?, token'.kind ≠ .eof := by
  have hget : ∀ m, ((tokens.toList.take bound).drop position)[m]? =
      if position + m < bound then tokens[position + m]? else none := by
    intro m
    rw [List.getElem?_drop, List.getElem?_take, Array.getElem?_toList]
  simp only [ahead, Int.toNat_natCast, getElem?_takeWhile_eq_some_iff, hget, bne_iff_ne]
  by_cases hn : position + n < bound
  · have hm : ∀ m ≤ n, position + m < bound := fun m hm => by omega
    simp only [hn, if_true, true_and]
    refine and_congr_right fun _ => forall_congr' fun m => forall_congr' fun hle => ?_
    rw [if_pos (hm m hle)]
  · simp [hn]

theorem mem_markers_ahead_iff {n : Nat} :
    n ∈ markers names (Cursor.mk tokens start position bound).ahead ↔
      IsMarker tokens names position bound (position + n) := by
  constructor
  · rintro ⟨opening, hopening, name, hname, hkind, hmarks⟩
    obtain ⟨-, hopening, -⟩ := getElem?_ahead_eq_some_iff.1 hopening
    obtain ⟨hbound, hname, hgoes⟩ := getElem?_ahead_eq_some_iff.1 hname
    refine ⟨Nat.le_add_right _ _, hbound, ⟨opening, hopening, hkind⟩, ⟨name, hname, hmarks⟩, fun i hlt hle => ?_⟩
    obtain ⟨m, rfl⟩ := Nat.exists_eq_add_of_le hle
    exact hgoes m (by omega)
  · rintro ⟨-, hbound, ⟨opening, hopening, hkind⟩, ⟨name, hname, hmarks⟩, hgoes⟩
    have hahead : ∀ m ≤ n + 1, ∀ token ∈ tokens[position + m]?, token.kind ≠ .eof :=
      fun m hm => hgoes (position + m) (by omega) (Nat.le_add_right _ _)
    refine ⟨opening, ?_, name, ?_, hkind, hmarks⟩
    · exact getElem?_ahead_eq_some_iff.2 ⟨by omega, hopening, fun m hm => hahead m (by omega)⟩
    · exact getElem?_ahead_eq_some_iff.2 ⟨hbound, hname, hahead⟩

theorem placed_mk (tokens : Array Token) (start : Int) (position bound : Nat) :
    (Cursor.mk tokens start position bound).Placed :=
  ⟨Int.natCast_nonneg _, Int.natCast_nonneg _⟩

/-- Behind everything that can be taken the text or the region ends. -/
theorem isEnd_add_length_ahead (hposition : position ≤ bound) (hbound : bound ≤ tokens.size) :
    IsEnd tokens position bound (position + (Cursor.mk tokens start position bound).ahead.length) := by
  have hplaced := placed_mk tokens start position bound
  have hroom := @length_ahead_le_room (Cursor.mk tokens start position bound)
  have hskip := ahead_skip hplaced (List.append_nil _).symm
  generalize hcount : (Cursor.mk tokens start position bound).ahead.length = count at hroom hskip ⊢
  simp only [room] at hroom
  refine ⟨Nat.le_add_right _ _, by omega, ?_, fun i hlt hle token htoken => ?_⟩
  · rcases (ahead_eq_nil_iff (hplaced.skip count)).1 hskip with hend | hend
    · simp only [skip] at hend
      exact .inl (by omega)
    · refine or_iff_not_imp_left.2 fun hne => ?_
      have hlt : position + count < tokens.size := by omega
      refine ⟨tokens[position + count], Array.getElem?_eq_getElem hlt, ?_⟩
      have hindex : (min ((position : Int) + count) bound).toNat = position + count := by omega
      simpa only [here, skip, hindex, Array.getElem?_eq_getElem hlt, Option.getD_some] using hend
  · obtain ⟨m, rfl⟩ := Nat.exists_eq_add_of_le hle
    obtain ⟨token', htoken'⟩ : ∃ token', (Cursor.mk tokens start position bound).ahead[m]? = some token' :=
      ⟨_, List.getElem?_eq_getElem (by omega)⟩
    exact (getElem?_ahead_eq_some_iff.1 htoken').2.2 m (Nat.le_refl m) token htoken

theorem seek_of_room_le {rounds : Nat} (h : cursor.Placed) (hrounds : cursor.room ≤ rounds) :
    seek names rounds cursor = seek names cursor.room cursor := by
  rw [seek_apply h (length_ahead_le_room.trans hrounds), seek_apply h length_ahead_le_room]

/-- Skipping in a region. If a tag with one of the names opens at or behind the cursor before the text ends, its name
included, then skipping stops right behind the name of the first such tag. If not, the block is not terminated: the
token at which skipping started is to blame, the message lists the names in their order, and the cursor is left where
the text or the region ends. Looking further than to the bound changes nothing. -/
theorem skipUntil_first_marker (tokens : Array Token) (names : List String) (start : Int) {position bound : Nat}
    (hposition : position ≤ bound) (hbound : bound ≤ tokens.size) :
    let cursor : Cursor := ⟨tokens, start, position, bound⟩
    ((∃ index, IsMarker tokens names position bound index) →
      ∃ index, IsLeast {i | IsMarker tokens names position bound i} index ∧
        skipUntil names cursor = .ok () ⟨tokens, start, index + 2, bound⟩) ∧
    ((¬∃ index, IsMarker tokens names position bound index) →
      ∃ (error : SyntaxError) (stop : Nat), IsEnd tokens position bound stop ∧
        skipUntil names cursor = .error (.user (.grammar error)) ⟨tokens, start, stop, bound⟩ ∧
        error.kind = .unterminatedBlock ∧ current cursor = .ok error.token cursor ∧
        (∀ token ∈ tokens[position]?, error.token = token) ∧
        error.message = "Unexpected end of template, expected one of: " ++ ", ".intercalate names ++ " at " ++
          error.token.place.text) ∧
    ∀ rounds, bound - position ≤ rounds → seek names rounds cursor = seek names (bound - position) cursor := by
  intro cursor
  have hplaced : cursor.Placed := placed_mk tokens start position bound
  have hskip := skipUntil_apply hplaced names
  have hroom : cursor.room = bound - position := by
    simp only [room, cursor]
    omega
  refine ⟨?_, ?_, fun rounds hrounds => hroom ▸ seek_of_room_le hplaced (hroom ▸ hrounds)⟩
  · rintro ⟨index, hindex⟩
    obtain ⟨n, rfl⟩ := Nat.exists_eq_add_of_le hindex.position_le
    cases hcount : firstMarker? names cursor.ahead with
    | none =>
        have hn : n ∈ markers names cursor.ahead := mem_markers_ahead_iff.2 hindex
        exact absurd (markers_eq_empty_of_firstMarker? hcount ▸ hn) (Set.notMem_empty n)
    | some count =>
        obtain ⟨hmem, hleast⟩ := isLeast_of_firstMarker? hcount
        refine ⟨position + count, ⟨mem_markers_ahead_iff.1 hmem, fun i hi => ?_⟩, ?_⟩
        · obtain ⟨m, rfl⟩ := Nat.exists_eq_add_of_le hi.position_le
          exact Nat.add_le_add_left (hleast (mem_markers_ahead_iff.2 hi)) position
        · rw [hskip, hcount]
          simp [cursor, skip, Int.add_assoc]
  · intro hnone
    have hcount : firstMarker? names cursor.ahead = none := by
      refine Option.eq_none_iff_forall_ne_some.2 fun count hcount => hnone ?_
      exact ⟨_, mem_markers_ahead_iff.1 (isLeast_of_firstMarker? hcount).1⟩
    refine ⟨⟨.unterminatedBlock, .unexpectedEnd names, cursor.here⟩, position + cursor.ahead.length,
      isEnd_add_length_ahead hposition hbound, ?_, rfl, current_apply hplaced, fun token htoken => ?_, rfl⟩
    · rw [hskip, hcount]
      rfl
    · have hindex : (min (position : Int) bound).toNat = position := by omega
      simp only [here, cursor, hindex, Option.mem_def.1 htoken, Option.getD_some]

/-- A name without a delimiter before it, delimiters without a name behind them, and then a delimiter between another
one and a name. The region that ends in front of that name has no marker. -/
theorem skipUntil_first_marker_loose_delimiters :
    let tokens : Array Token := #[⟨.name, "end", ⟨0, 1, 1⟩⟩, ⟨.blockBegin, "<", ⟨3, 1, 4⟩⟩, ⟨.integer, "1", ⟨4, 1, 5⟩⟩,
      ⟨.blockBegin, "<", ⟨5, 1, 6⟩⟩, ⟨.blockBegin, "<", ⟨6, 1, 7⟩⟩, ⟨.name, "end", ⟨7, 1, 8⟩⟩, ⟨.eof, "", ⟨10, 1, 11⟩⟩]
    6 ≤ tokens.size ∧ IsMarker tokens ["stop", "end"] 0 6 4 ∧ (¬∃ index, IsMarker tokens ["stop", "end"] 0 5 index) ∧
      skipUntil ["stop", "end"] ⟨tokens, 0, 0, 6⟩ = .ok () ⟨tokens, 0, 6, 6⟩ ∧
      ∃ error, skipUntil ["stop", "end"] ⟨tokens, 0, 0, 5⟩ = .error (.user (.grammar error)) ⟨tokens, 0, 5, 5⟩ ∧
        error.message = "Unexpected end of template, expected one of: stop, end at 1:1" := by
  intro tokens
  have hmarker : IsMarker tokens ["stop", "end"] 0 6 4 := by decide
  have hfirst : ∀ index < 4, ¬IsMarker tokens ["stop", "end"] 0 6 index := by decide
  have hnone : ¬∃ index, IsMarker tokens ["stop", "end"] 0 5 index := by
    have hall : ∀ index < 5, ¬IsMarker tokens ["stop", "end"] 0 5 index := by decide
    rintro ⟨index, hindex⟩
    exact hall index (by have := hindex.lt_bound; omega) hindex
  refine ⟨by decide, hmarker, hnone, ?_, ?_⟩
  · obtain ⟨index, ⟨hindex, hleast⟩, hskip⟩ :=
      (skipUntil_first_marker tokens ["stop", "end"] 0 (by decide) (by decide)).1 ⟨4, hmarker⟩
    obtain rfl : index = 4 :=
      le_antisymm (hleast hmarker) (not_lt.1 fun hlt => hfirst index hlt hindex)
    exact hskip
  · obtain ⟨error, stop, hend, hskip, -, -, htoken, hmessage⟩ :=
      (skipUntil_first_marker tokens ["stop", "end"] 0 (by decide) (by decide)).2.1 hnone
    have hstop : stop = 5 := by
      have hgoes : ∀ i < 5, ∀ token ∈ tokens[i]?, token.kind ≠ .eof := by decide
      refine hend.ends.elim id ?_
      rintro ⟨token, htoken, heof⟩
      have hle := hend.le_bound
      by_contra hne
      exact hgoes stop (by omega) token htoken heof
    subst hstop
    refine ⟨error, hskip, ?_⟩
    rw [hmessage, htoken ⟨.name, "end", ⟨0, 1, 1⟩⟩ rfl]
    cbv

end Region

end Cursor

end TagTemplate
