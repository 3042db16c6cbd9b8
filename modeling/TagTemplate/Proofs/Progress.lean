import TagTemplate.Proofs.Confined
import TagTemplate.Proofs.Recognition

/-!
# Recognition always gets on

The reader of a tag may leave the outer cursor anywhere: where it was, before the tag, or far beyond it. Recognition
goes on behind a delimiter that closes a tag, and not before the one that closes the reader's own, so that every step
leaves fewer tokens to recognise.
-/

namespace TagTemplate

namespace Cursor

variable {cursor : Cursor} {token : Token}

def kindAt (cursor : Cursor) (index : Int) : Option TokenKind :=
  cursor.tokens[index.toNat]?.map Token.kind

/-- The delimiter at an index closes the tag that opens at the cursor: it is the first one behind the tag's name, and
no other tag opens before it, nor does the text end. -/
structure ClosesAt (cursor : Cursor) (close : Int) : Prop where
  opening : cursor.kindAt cursor.position = some .blockBegin
  name : cursor.kindAt (cursor.position + 1) = some .name
  closing : cursor.kindAt close = some .blockEnd
  behind : cursor.position + 2 ≤ close
  inside : ∀ index, cursor.position + 2 ≤ index → index < close →
    ∃ kind, cursor.kindAt index = some kind ∧ kind ≠ .blockBegin ∧ kind ≠ .blockEnd ∧ kind ≠ .eof

theorem kindAt_of_ahead (h : cursor.Placed) {n : Nat} (hahead : cursor.ahead[n]? = some token) :
    cursor.kindAt (cursor.position + n) = some token.kind := by
  rw [kindAt, (getElem?_tokens_of_ahead h hahead).2.1]
  rfl

theorem closesAt_of_ahead (h : cursor.Placed) {opening name closing : Token} {arguments rest : List Token}
    (hahead : cursor.ahead = opening :: name :: (arguments ++ closing :: rest)) (hopening : opening.kind = .blockBegin)
    (hname : name.kind = .name) (hclosing : closing.kind = .blockEnd) (hinner : Inner arguments) :
    cursor.ClosesAt (cursor.position + 2 + arguments.length) where
  opening := by
    have hkind := kindAt_of_ahead h (n := 0) (by rw [hahead]; rfl)
    simpa [hopening] using hkind
  name := by
    have hkind := kindAt_of_ahead h (n := 1) (by rw [hahead]; rfl)
    simpa [hname] using hkind
  closing := by
    have hindex : cursor.position + 2 + arguments.length = cursor.position + (arguments.length + 2 : Nat) := by omega
    rw [hindex, kindAt_of_ahead h (by simp [hahead]; rfl), hclosing]
  behind := by omega
  inside := by
    intro index hbehind hbefore
    obtain ⟨i, rfl⟩ := Int.le.dest hbehind
    have hi : i < arguments.length := by omega
    have hindex : cursor.position + 2 + i = cursor.position + (i + 2 : Nat) := by omega
    have htoken : cursor.ahead[i + 2]? = some arguments[i] := by
      rw [hahead, List.getElem?_cons_succ, List.getElem?_cons_succ, List.getElem?_append_left hi,
        List.getElem?_eq_getElem hi]
    obtain ⟨hend, hbegin⟩ := hinner _ (List.getElem_mem hi)
    refine ⟨_, hindex ▸ kindAt_of_ahead h htoken, hbegin, hend, ?_⟩
    exact (getElem?_tokens_of_ahead h htoken).2.2

end Cursor

variable {registry : Registry Tag.Reader} {nested : Tag.Nested} {cursor cursor' : Cursor} {node : Node}

theorem position_of_recogniseBlock (h : cursor.Placed) (hok : recogniseBlock registry nested cursor = .ok node cursor') :
    ∃ close, cursor.ClosesAt close ∧ close < cursor'.position ∧ cursor'.position ≤ cursor.bound ∧
      cursor.kindAt (cursor'.position - 1) = some .blockEnd ∧
      cursor' = { cursor with position := cursor'.position } := by
  obtain ⟨opening, name, arguments, closing, rest, reader, statement, reached, ending, hahead, hopening, hname, hclosing,
    hinner, -, hread, hending, -⟩ := (recogniseBlock_eq_ok_iff h).1 hok
  obtain ⟨scope, -, rfl⟩ := readTag_eq_ok_iff.1 hread
  -- The cursor is put where it sees the delimiter at `close` or further on, wherever the reader left it.
  obtain ⟨reached, hreached, hclose⟩ : ∃ reached, reached = max scope.outer.position
      (cursor.position + 2 + arguments.length) ∧ cursor.position + 2 + arguments.length ≤ reached :=
    ⟨_, rfl, Int.le_max_right _ _⟩
  have hposition := h.position_nonneg
  have hplaced : { cursor with position := reached }.Placed := ⟨by simp only; omega, h.bound_nonneg⟩
  rw [show (cursor.skip 2).position = cursor.position + 2 from rfl, ← hreached] at hending
  obtain ⟨rest', hahead', hkind, rfl⟩ := (Cursor.expect_eq_ok_iff hplaced).1 hending
  obtain ⟨hbound, htoken, -⟩ : reached < cursor.bound ∧ cursor.tokens[reached.toNat]? = some ending ∧ ending.kind ≠ .eof :=
    (Cursor.head?_ahead_eq_some_iff hplaced).1 (List.head?_eq_some_iff.2 ⟨rest', hahead'⟩)
  refine ⟨_, Cursor.closesAt_of_ahead h hahead hopening hname hclosing hinner, ?_, ?_, ?_, rfl⟩
  · exact Int.lt_add_one_of_le hclose
  · exact Int.add_one_le_of_lt hbound
  · simp only [Cursor.skip, Cursor.kindAt, Int.natCast_one, Int.add_sub_cancel]
    rw [htoken, Option.map_some, hkind]

/-- The cursor was moved, further on and not beyond its bound. -/
structure Cursor.Advances (cursor cursor' : Cursor) : Prop where
  position_lt : cursor.position < cursor'.position
  le_bound : cursor'.position ≤ cursor.bound
  eq : cursor' = { cursor with position := cursor'.position }

theorem Cursor.Advances.placed (h : cursor.Placed) (hadvances : cursor.Advances cursor') : cursor'.Placed := by
  have hposition : 0 ≤ cursor'.position := Int.le_trans h.position_nonneg (Int.le_of_lt hadvances.position_lt)
  rw [hadvances.eq]
  exact ⟨hposition, h.bound_nonneg⟩

theorem Cursor.Advances.room_lt (hadvances : cursor.Advances cursor') : cursor'.room < cursor.room := by
  have hbound : cursor'.bound = cursor.bound := by rw [hadvances.eq]
  have hless := hadvances.position_lt
  have hle := hadvances.le_bound
  rw [Cursor.room, Cursor.room, hbound]
  omega

theorem Cursor.advances_skip {count : Nat} (hpos : 0 < count) (hcount : count ≤ cursor.ahead.length) :
    cursor.Advances (cursor.skip count) := by
  have hroom : cursor.ahead.length ≤ (cursor.bound - cursor.position).toNat := Cursor.length_ahead_le_room
  exact ⟨by simp only [Cursor.skip]; omega, by simp only [Cursor.skip]; omega, rfl⟩

theorem advances_of_recogniseNext (h : cursor.Placed) (hahead : cursor.ahead ≠ []) {node? : Option Node}
    (hok : recogniseNext registry nested cursor = .ok node? cursor') : cursor.Advances cursor' := by
  obtain ⟨token, tokens, hcons⟩ := List.exists_cons_of_ne_nil hahead
  rw [recogniseNext, bind_of_ok (Cursor.current_apply h), Cursor.here_of_ahead h hcons] at hok
  cases hkind : token.kind with
  | data =>
      simp only [hkind, bind_of_ok (Cursor.advance_apply h)] at hok
      obtain ⟨-, rfl⟩ := pure_eq_ok_iff.1 hok
      rw [hcons]
      exact Cursor.advances_skip Nat.one_pos (List.length_pos_iff.2 hahead)
  | blockBegin =>
      simp only [hkind] at hok
      obtain ⟨node, _, hblock, hok⟩ := bind_eq_ok_iff.1 hok
      obtain ⟨-, rfl⟩ := pure_eq_ok_iff.1 hok
      obtain ⟨close, hcloses, hclose, hbound, -, hcursor⟩ := position_of_recogniseBlock h hblock
      have hbehind := hcloses.behind
      exact ⟨by omega, hbound, hcursor⟩
  | commentBegin =>
      simp only [hkind] at hok
      obtain ⟨_, _, hcomment, hok⟩ := bind_eq_ok_iff.1 hok
      obtain ⟨-, rfl⟩ := pure_eq_ok_iff.1 hok
      obtain ⟨opening, content, closing, rest, hahead', -, -, -, rfl⟩ := (skipShortComment_eq_ok_iff h).1 hcomment
      apply Cursor.advances_skip (Nat.succ_pos _)
      rw [hahead', List.length_cons, List.length_append, List.length_cons]
      omega
  | _ => simp [hkind, Cursor.refuse_apply h] at hok

/-! ### The loop -/

/-- Recognition without a bound on its steps: after so many it has come to the end, or one of them has failed. -/
inductive Loops (registry : Registry Tag.Reader) (nested : Tag.Nested) : Cursor → Nat → Recognition → Prop
  | ended {cursor : Cursor} :
      Cursor.atEnd cursor = .ok true cursor → Loops registry nested cursor 0 ⟨[], cursor, none⟩
  | failed {cursor cursor' : Cursor} {fault : Fault} :
      Cursor.atEnd cursor = .ok false cursor → recogniseNext registry nested cursor = .error fault cursor' →
      Loops registry nested cursor 1 ⟨[], cursor', some fault⟩
  | silent {cursor cursor' : Cursor} {count : Nat} {recognition : Recognition} :
      Cursor.atEnd cursor = .ok false cursor → recogniseNext registry nested cursor = .ok none cursor' →
      Loops registry nested cursor' count recognition → Loops registry nested cursor (count + 1) recognition
  | node {cursor cursor' : Cursor} {node : Node} {count : Nat} {recognition : Recognition} :
      Cursor.atEnd cursor = .ok false cursor → recogniseNext registry nested cursor = .ok (some node) cursor' →
      Loops registry nested cursor' count recognition → Loops registry nested cursor (count + 1) (recognition.cons node)

/-- The bound on the steps of recognition is never met. -/
theorem loops_recogniseSteps (h : cursor.Placed) {steps : Nat} (hsteps : cursor.room ≤ steps) :
    ∃ count ≤ cursor.room, Loops registry nested cursor count (recogniseSteps registry nested steps cursor) := by
  induction steps generalizing cursor with
  | zero =>
      have hend : Cursor.atEnd cursor = .ok true cursor := by
        apply (Cursor.atEnd_eq_ok_true_iff h).2
        exact List.length_eq_zero_iff.1 (Nat.le_zero.1 (Cursor.length_ahead_le_room.trans hsteps))
      exact ⟨0, Nat.zero_le _, .ended hend⟩
  | succ steps ih =>
      have hend := Cursor.atEnd_apply h
      rw [recogniseSteps]
      cases hempty : cursor.ahead.isEmpty with
      | true =>
          rw [hempty] at hend
          simp only [hend]
          exact ⟨0, Nat.zero_le _, .ended hend⟩
      | false =>
          rw [hempty] at hend
          have hahead : cursor.ahead ≠ [] := by simpa using hempty
          have hroom : 1 ≤ cursor.room := Nat.le_trans (List.length_pos_iff.2 hahead) Cursor.length_ahead_le_room
          simp only [hend]
          cases hnext : recogniseNext registry nested cursor with
          | error fault cursor' => exact ⟨1, hroom, .failed hend hnext⟩
          | ok node? cursor' =>
              have hadvances := advances_of_recogniseNext h hahead hnext
              have hless := hadvances.room_lt
              obtain ⟨count, hcount, hloops⟩ := ih (hadvances.placed h) (by omega)
              cases node? with
              | none => exact ⟨count + 1, by omega, .silent hend hnext hloops⟩
              | some node => exact ⟨count + 1, by omega, .node hend hnext hloops⟩

variable {count count' : Nat} {recognition recognition' : Recognition}

theorem Loops.atEnd (h : Loops registry nested cursor count recognition) (hfault : recognition.fault = none) :
    Cursor.atEnd recognition.cursor = .ok true recognition.cursor := by
  induction h with
  | ended hend => exact hend
  | failed => simp at hfault
  | silent _ _ _ ih => exact ih hfault
  | node _ _ _ ih => exact ih hfault

theorem Loops.unique (h : Loops registry nested cursor count recognition)
    (h' : Loops registry nested cursor count' recognition') : count' = count ∧ recognition' = recognition := by
  induction h generalizing count' recognition' with
  | ended hend =>
      cases h' with
      | ended => exact ⟨rfl, rfl⟩
      | _ => simp_all
  | failed hend hnext =>
      cases h' with
      | failed _ hnext' =>
          obtain ⟨rfl, rfl⟩ := EStateM.Result.error.inj (hnext.symm.trans hnext')
          exact ⟨rfl, rfl⟩
      | _ => simp_all
  | silent hend hnext _ ih =>
      cases h' with
      | silent _ hnext' hloops' =>
          obtain ⟨-, rfl⟩ := EStateM.Result.ok.inj (hnext.symm.trans hnext')
          obtain ⟨rfl, rfl⟩ := ih hloops'
          exact ⟨rfl, rfl⟩
      | _ => simp_all
  | node hend hnext _ ih =>
      cases h' with
      | node _ hnext' hloops' =>
          obtain ⟨hnode, rfl⟩ := EStateM.Result.ok.inj (hnext.symm.trans hnext')
          obtain rfl := Option.some.inj hnode
          obtain ⟨rfl, rfl⟩ := ih hloops'
          exact ⟨rfl, rfl⟩
      | _ => simp_all

/-- Recognition stays within the region if the readers do. -/
theorem Loops.reaches
    (hreaders : ∀ name reader, registry.lookup name = some reader → Tag.Scope.motion.Confines (reader nested))
    (h : cursor.Placed) (hloops : Loops registry nested cursor count recognition) :
    Cursor.motion.Reaches cursor recognition.cursor ∧ recognition.fault ≠ some (.defect .indexOutOfRange) := by
  have hallows := fun cursor h => confines_recogniseNext hreaders cursor h
  induction hloops with
  | ended => exact ⟨Cursor.motion.refl _, by simp⟩
  | failed _ hnext =>
      have hfailed := hnext ▸ hallows _ h
      exact ⟨hfailed.1, by simpa using hfailed.fault_ne⟩
  | silent _ hnext _ ih =>
      have hmoved := (hnext ▸ hallows _ h).1
      obtain ⟨hreaches, hfault⟩ := ih (Cursor.motion.sound h hmoved)
      exact ⟨Cursor.motion.trans h hmoved hreaches, hfault⟩
  | node _ hnext _ ih =>
      have hmoved := (hnext ▸ hallows _ h).1
      obtain ⟨hreaches, hfault⟩ := ih (Cursor.motion.sound h hmoved)
      exact ⟨Cursor.motion.trans h hmoved hreaches, hfault⟩

/-- Whatever the readers of tags do to the outer cursor, and whatever is recognised inside of tags: a tag that is
recognised leaves the cursor right behind a delimiter that closes a tag, which is the tag's own or a later one within
the region; and recognition takes not more steps than there is room for, until it is at the end or one of them fails.
With the built-in tags it stays within the region, and there is never a token looked for in front of the list. -/
theorem recognition_progress (registry : Registry Tag.Reader) (nested : Tag.Nested) (cursor : Cursor)
    (h : cursor.Placed) :
    (∀ node cursor', recogniseBlock registry nested cursor = .ok node cursor' →
      ∃ close, cursor.ClosesAt close ∧ cursor.position + 3 ≤ cursor'.position ∧ cursor'.position ≤ cursor.bound ∧
        close ≤ cursor'.position - 1 ∧ cursor.kindAt (cursor'.position - 1) = some .blockEnd ∧
        cursor' = { cursor with position := cursor'.position }) ∧
      (∃ count ≤ cursor.room, ∀ count' recognition, Loops registry nested cursor count' recognition ↔
        count' = count ∧ recognition = recogniseWith registry nested cursor) ∧
      ((recogniseWith registry nested cursor).fault = none →
        Cursor.atEnd (recogniseWith registry nested cursor).cursor =
          .ok true (recogniseWith registry nested cursor).cursor) ∧
      ∀ disabled,
        (∃ moved ≤ cursor.room, (recogniseWith (Tag.builtinReaders disabled) nested cursor).cursor = cursor.skip moved) ∧
          (recogniseWith (Tag.builtinReaders disabled) nested cursor).fault ≠ some (.defect .indexOutOfRange) ∧
          ∀ cursor', recogniseBlock (Tag.builtinReaders disabled) nested cursor ≠
            .error (.defect .indexOutOfRange) cursor' := by
  obtain ⟨count, hcount, hloops⟩ := @loops_recogniseSteps registry nested cursor h _ (Nat.le_refl _)
  refine ⟨fun node cursor' hok => ?_, ⟨count, hcount, fun count' recognition => ⟨hloops.unique, ?_⟩⟩, hloops.atEnd,
    fun disabled => ?_⟩
  · obtain ⟨close, hcloses, hclose, hbound, hkind, hcursor⟩ := position_of_recogniseBlock h hok
    have hbehind := hcloses.behind
    exact ⟨close, hcloses, by omega, hbound, by omega, hkind, hcursor⟩
  · rintro ⟨rfl, rfl⟩
    exact hloops
  · have hreaders := fun name reader hreader =>
      @Tag.confines_of_lookup_builtinReaders disabled name reader hreader nested
    obtain ⟨_, -, hloops⟩ := @loops_recogniseSteps (Tag.builtinReaders disabled) nested cursor h _ (Nat.le_refl _)
    obtain ⟨⟨moved, hmoved, hcursor⟩, hfault⟩ := hloops.reaches hreaders h
    refine ⟨⟨moved, hmoved.trans Cursor.length_ahead_le_room, hcursor⟩, hfault, ?_⟩
    exact (confines_recogniseBlock hreaders cursor h).2

/-- A reader that puts the outer cursor in front of the list, and a list with the end of the text in the middle. -/
theorem recognition_progress_backwards :
    ∃ (registry : Registry Tag.Reader) (nested : Tag.Nested) (cursor : Cursor), cursor.Placed ∧
      (∃ node cursor', recogniseBlock registry nested cursor = .ok node cursor' ∧
        ∃ close, cursor.ClosesAt close ∧ cursor.position + 3 ≤ cursor'.position ∧ cursor'.position ≤ cursor.bound ∧
          close ≤ cursor'.position - 1 ∧ cursor.kindAt (cursor'.position - 1) = some .blockEnd ∧
          cursor' = { cursor with position := cursor'.position }) ∧
      ∃ count ≤ cursor.room, ∀ count' recognition, Loops registry nested cursor count' recognition ↔
        count' = count ∧ recognition = recogniseWith registry nested cursor := by
  let back : Tag.Reader := fun _ scope =>
    .ok (.statement (.echo scope.outer.here [])) { scope with outer := { scope.outer with position := -7 } }
  let registry : Registry Tag.Reader := ⟨[("back", back)], by simp⟩
  let cursor := Cursor.whole #[⟨.blockBegin, "<", ⟨0, 1, 1⟩⟩, ⟨.name, "back", ⟨1, 1, 2⟩⟩, ⟨.integer, "1", ⟨6, 1, 7⟩⟩,
    ⟨.blockEnd, ">", ⟨7, 1, 8⟩⟩, ⟨.eof, "", ⟨8, 1, 9⟩⟩, ⟨.data, "x", ⟨8, 1, 9⟩⟩]
  have hplaced : cursor.Placed := ⟨by decide, by decide⟩
  have hprogress := recognition_progress registry (fun _ => pure []) cursor hplaced
  obtain ⟨node, cursor', hblock⟩ : ∃ node cursor',
      recogniseBlock registry (fun _ => pure []) cursor = .ok node cursor' := ⟨_, { cursor with position := 4 }, rfl⟩
  exact ⟨registry, _, cursor, hplaced, ⟨node, cursor', hblock, hprogress.1 node cursor' hblock⟩, hprogress.2.1⟩

end TagTemplate
