import TagTemplate.Proofs.Confined

/-!
# Cursors side by side

Several cursors may read one list of tokens, and new ones may be made from them at any time. Whatever is done with them
and in whatever order, each stays within its region and never goes back, none is moved by what is done with another,
and one that has come to its end stays there.
-/

namespace TagTemplate

namespace Cursor

/-- What can be done with a cursor. -/
inductive Operation where
  | current
  | peek (offset : Nat)
  | atEnd
  | advance
  | take (kinds : List TokenKind)
  | takeName (names : List String)
  | expect (kind : TokenKind) (complaint : Option Complaint)
  | complain (kind : SyntaxError.Kind) (complaint : Complaint) (token : Option Token)
  | skipUntil (names : List String)

inductive Answer where
  | token (token : Option Token)
  | ended (ended : Bool)
  | error (error : SyntaxError)
  | done

namespace Operation

/-- Does it. A complaint is about the token at the cursor unless another one is given. -/
def perform : Operation → Action Answer
  | current => return .token (some (← Cursor.current))
  | peek offset => return .token (some (← Cursor.peek offset))
  | atEnd => return .ended (← Cursor.atEnd)
  | advance => return .token (some (← Cursor.advance))
  | take kinds => return .token (← take? kinds)
  | takeName names => return .token (← takeName? names)
  | expect kind complaint => return .token (some (← Cursor.expect kind complaint))
  | complain kind complaint (some token) => return .error ⟨kind, complaint, token⟩
  | complain kind complaint none => return .error (← Cursor.complain kind complaint)
  | skipUntil names => do
      Cursor.skipUntil names
      return .done

/-- The tokens that an operation takes, if it is one that takes a token of some sort. -/
def sort? : Operation → Option (Token → Bool)
  | take kinds => some (kinds.contains ·.kind)
  | takeName names => some fun token => token.kind == .name && names.contains token.value
  | expect kind _ => some ([kind].contains ·.kind)
  | _ => none

end Operation

open Motion

/-! ### One operation -/

variable {cursor : Cursor} {token : Token} {tokens : Array Token}

/-- An operation that takes a token of some sort does so if the cursor is at one, and else leaves the cursor alone. -/
theorem perform_taking (h : cursor.Placed) {operation : Operation} {sort : Token → Bool}
    (hsort : operation.sort? = some sort) :
    cursor.sees sort = true ∧ operation.perform cursor = .ok (.token (some cursor.here)) (cursor.skip 1) ∨
      cursor.sees sort = false ∧
        (operation.perform cursor = .ok (.token none) cursor ∨
          ∃ fault, operation.perform cursor = .error fault cursor) := by
  have htake : ∀ {action : Action (Option Token)}, action cursor = takeIf sort cursor →
      cursor.sees sort = true ∧ action cursor = .ok (some cursor.here) (cursor.skip 1) ∨
        cursor.sees sort = false ∧ action cursor = .ok none cursor := by
    intro action haction
    rw [haction, takeIf]
    cases cursor.sees sort
    · exact .inr ⟨rfl, rfl⟩
    · exact .inl ⟨rfl, rfl⟩
  cases operation with
  | take kinds =>
      obtain rfl := Option.some.inj hsort
      rw [Operation.perform]
      rcases htake (take?_apply h kinds) with ⟨hsees, hok⟩ | ⟨hsees, hok⟩
      · exact .inl ⟨hsees, bind_of_ok hok⟩
      · exact .inr ⟨hsees, .inl (bind_of_ok hok)⟩
  | takeName names =>
      obtain rfl := Option.some.inj hsort
      rw [Operation.perform]
      rcases htake (takeName?_apply h names) with ⟨hsees, hok⟩ | ⟨hsees, hok⟩
      · exact .inl ⟨hsees, bind_of_ok hok⟩
      · exact .inr ⟨hsees, .inl (bind_of_ok hok)⟩
  | expect kind complaint =>
      obtain rfl := Option.some.inj hsort
      rw [Operation.perform]
      rcases htake (take?_apply h [kind]) with ⟨hsees, hok⟩ | ⟨hsees, hok⟩
      · exact .inl ⟨hsees, bind_of_ok (expect_of_some hok)⟩
      · exact .inr ⟨hsees, .inr ⟨_, bind_of_error (expect_of_none h hok)⟩⟩
  | _ => simp [Operation.sort?] at hsort

theorem confines_perform (operation : Operation) : motion.Confines operation.perform := by
  cases operation with
  | current => exact confines_current.bind fun _ => confines_pure _
  | peek offset => exact (confines_peek offset).bind fun _ => confines_pure _
  | atEnd => exact confines_atEnd.bind fun _ => confines_pure _
  | advance => exact confines_advance.bind fun _ => confines_pure _
  | take kinds => exact (confines_take? kinds).bind fun _ => confines_pure _
  | takeName names => exact (confines_takeName? names).bind fun _ => confines_pure _
  | expect kind complaint => exact (confines_expect kind complaint).bind fun _ => confines_pure _
  | complain kind complaint token =>
      cases token with
      | some token => exact confines_pure _
      | none => exact (confines_complain kind complaint).bind fun _ => confines_pure _
  | skipUntil names => exact (confines_skipUntil names).bind fun _ => confines_pure _

/-! ### A family of cursors -/

/-- A cursor inside of its region, which is inside of a list of tokens. -/
structure Within (tokens : Array Token) (cursor : Cursor) : Prop where
  tokens_eq : cursor.tokens = tokens
  start_nonneg : 0 ≤ cursor.start
  start_le : cursor.start ≤ cursor.position
  le_bound : cursor.position ≤ cursor.bound
  bound_le : cursor.bound ≤ tokens.size

/-- A stretch of a list of so many tokens. -/
structure Stretch (size : Nat) where
  start : Nat
  stop : Nat
  start_le : start ≤ stop
  stop_le : stop ≤ size

def Stretch.front (tokens : Array Token) (stretch : Stretch tokens.size) : Cursor :=
  region tokens stretch.start stretch.stop

/-- Something that is done with the cursors of a family: an operation on one of them, or a new one made from it. -/
inductive Step (size : Nat) where
  | perform (index : Nat) (operation : Operation)
  | sub (index : Nat) (stretch : Stretch size)

/-- The family afterwards. New cursors come last, and nothing happens for a cursor that there is not. -/
def Step.apply {size : Nat} : Step size → List Cursor → List Cursor
  | perform index operation, family => family.modify index fun cursor => stateOf (operation.perform cursor)
  | sub index stretch, family =>
      family ++ (family[index]?.map fun cursor => cursor.sub stretch.start stretch.stop).toList

/-- The family after several steps, whether or not some of them failed. -/
def run {size : Nat} (steps : List (Step size)) (family : List Cursor) : List Cursor :=
  steps.foldl (fun family step => step.apply family) family

variable {family : List Cursor} {index : Nat}

theorem Within.placed (h : cursor.Within tokens) : cursor.Placed := by
  have hstart := h.start_nonneg
  have hposition := h.start_le
  have hbound := h.le_bound
  exact ⟨by omega, by omega⟩

theorem Stretch.within (stretch : Stretch tokens.size) : (stretch.front tokens).Within tokens where
  tokens_eq := rfl
  start_nonneg := Int.natCast_nonneg _
  start_le := Int.le_refl _
  le_bound := Int.ofNat_le.2 stretch.start_le
  bound_le := Int.ofNat_le.2 stretch.stop_le

theorem Within.skip (h : cursor.Within tokens) {count : Nat} (hcount : count ≤ cursor.ahead.length) :
    (cursor.skip count).Within tokens := by
  have hroom : cursor.ahead.length ≤ (cursor.bound - cursor.position).toNat := length_ahead_le_room
  have hstart := h.start_le
  have hbound := h.le_bound
  exact ⟨h.tokens_eq, h.start_nonneg, by simp only [Cursor.skip]; omega, by simp only [Cursor.skip]; omega, h.bound_le⟩

/-- One step keeps every cursor in its place in the family and moves the one that it is done with, over tokens that can
be taken. -/
theorem getElem?_apply (hfamily : ∀ cursor ∈ family, cursor.Within tokens) (step : Step tokens.size)
    (hcursor : family[index]? = some cursor) :
    ∃ count ≤ cursor.ahead.length, (step.apply family)[index]? = some (cursor.skip count) ∧
      (count ≠ 0 → ∃ operation, step = .perform index operation) := by
  have hplaced := (hfamily cursor (List.mem_of_getElem? hcursor)).placed
  cases step with
  | perform index' operation =>
      rw [Step.apply, List.getElem?_modify, hcursor]
      by_cases hindex : index' = index
      · obtain ⟨count, hcount, hstate⟩ := (confines_perform operation cursor hplaced).1
        refine ⟨count, hcount, ?_, fun _ => ⟨operation, by rw [hindex]⟩⟩
        simp [hindex, hstate]
      · exact ⟨0, Nat.zero_le _, by simp [hindex], fun hzero => absurd rfl hzero⟩
  | sub index' stretch =>
      refine ⟨0, Nat.zero_le _, ?_, fun hzero => absurd rfl hzero⟩
      rw [Step.apply, skip_zero]
      exact (List.getElem?_append_left (List.getElem?_eq_some_iff.1 hcursor).1).trans hcursor

theorem within_apply (hfamily : ∀ cursor ∈ family, cursor.Within tokens) (step : Step tokens.size) :
    ∀ cursor ∈ step.apply family, cursor.Within tokens := by
  intro cursor' hmem
  obtain ⟨index, hindex⟩ := List.getElem?_of_mem hmem
  cases hcursor : family[index]? with
  | some cursor =>
      obtain ⟨count, hcount, hstep, -⟩ := getElem?_apply hfamily step hcursor
      obtain rfl := Option.some.inj (hstep.symm.trans hindex)
      exact (hfamily cursor (List.mem_of_getElem? hcursor)).skip hcount
  | none =>
      -- only a new cursor can be where there was none
      cases step with
      | perform index' operation => simp [Step.apply, List.getElem?_modify, hcursor] at hindex
      | sub index' stretch =>
          rw [Step.apply, List.getElem?_append_right (List.getElem?_eq_none_iff.1 hcursor)] at hindex
          obtain ⟨cursor, hcursor', rfl⟩ :=
            Option.map_eq_some_iff.1 (Option.mem_toList.1 (List.mem_of_getElem? hindex))
          rw [sub, (hfamily cursor (List.mem_of_getElem? hcursor')).tokens_eq]
          exact stretch.within

/-- Whatever is done with a family and in whatever order, every cursor stays within its region. -/
theorem within_run (hfamily : ∀ cursor ∈ family, cursor.Within tokens) (steps : List (Step tokens.size)) :
    ∀ cursor ∈ run steps family, cursor.Within tokens := by
  induction steps generalizing family with
  | nil => exact hfamily
  | cons step steps ih => exact ih (within_apply hfamily step)

/-- A cursor from which nothing can be taken stays as it is. -/
theorem getElem?_run_of_ahead_eq_nil (hfamily : ∀ cursor ∈ family, cursor.Within tokens)
    (hcursor : family[index]? = some cursor) (hahead : cursor.ahead = []) (steps : List (Step tokens.size)) :
    (run steps family)[index]? = some cursor := by
  induction steps generalizing family with
  | nil => exact hcursor
  | cons step steps ih =>
      obtain ⟨count, hcount, hstep, -⟩ := getElem?_apply hfamily step hcursor
      obtain rfl : count = 0 := by simpa [hahead] using hcount
      exact ih (within_apply hfamily step) (hstep.trans (by rw [skip_zero]))

/-- Whatever was done with a family of cursors over stretches of one list, and in whatever order, failures included:
every cursor is within its region; one more step changes at most the position of the cursor that it is done with, and
never takes it back; an operation that takes a token of some sort takes exactly the one at the cursor, which is within
the region and not the end, or leaves the cursor alone if that token cannot be taken or is of another sort; and a
cursor at its end stays there. -/
theorem run_stretches (stretches : List (Stretch tokens.size)) (steps : List (Step tokens.size)) :
    let family := run steps (stretches.map (Stretch.front tokens))
    (∀ cursor ∈ family, cursor.Within tokens) ∧
      (∀ (step : Step tokens.size) (index : Nat) (cursor : Cursor), family[index]? = some cursor →
        ∃ position ≥ cursor.position, (step.apply family)[index]? = some { cursor with position := position } ∧
          (position ≠ cursor.position → ∃ operation, step = .perform index operation)) ∧
      (∀ cursor ∈ family, ∀ (operation : Operation) (sort : Token → Bool), operation.sort? = some sort →
        (∃ token, operation.perform cursor =
            .ok (.token (some token)) { cursor with position := cursor.position + 1 } ∧
          cursor.start ≤ cursor.position ∧ cursor.position < cursor.bound ∧
          tokens[cursor.position.toNat]? = some token ∧ token.kind ≠ .eof ∧ sort token = true) ∨
        (operation.perform cursor = .ok (.token none) cursor ∨
            ∃ fault, operation.perform cursor = .error fault cursor) ∧
          ∀ token, cursor.position < cursor.bound → tokens[cursor.position.toNat]? = some token →
            token.kind ≠ .eof → sort token = false) ∧
      ∀ (index : Nat) (cursor : Cursor), family[index]? = some cursor → atEnd cursor = .ok true cursor →
        ∀ further : List (Step tokens.size), (run further family)[index]? = some cursor := by
  intro family
  have hfamily : ∀ cursor ∈ family, cursor.Within tokens := by
    refine within_run (fun cursor hmem => ?_) steps
    obtain ⟨stretch, -, rfl⟩ := List.mem_map.1 hmem
    exact stretch.within
  refine ⟨hfamily, ?_, ?_, ?_⟩
  · intro step index cursor hcursor
    obtain ⟨count, -, hstep, hperform⟩ := getElem?_apply hfamily step hcursor
    refine ⟨(cursor.skip count).position, Int.le_add_of_nonneg_right (Int.natCast_nonneg count), hstep, ?_⟩
    intro hmoved
    refine hperform fun hzero => hmoved ?_
    rw [hzero, skip_zero]
  · intro cursor hmem operation sort hsort
    have hwithin := hfamily cursor hmem
    have hplaced := hwithin.placed
    rcases perform_taking hplaced hsort with ⟨hsees, hok⟩ | ⟨hsees, hfail⟩
    · obtain ⟨rest, hahead, hhere⟩ := (sees_iff hplaced).1 hsees
      obtain ⟨hbound, htoken, hkind⟩ :=
        (head?_ahead_eq_some_iff hplaced).1 (List.head?_eq_some_iff.2 ⟨rest, hahead⟩)
      exact .inl ⟨cursor.here, hok, hwithin.start_le, hbound, hwithin.tokens_eq ▸ htoken, hkind, hhere⟩
    · refine .inr ⟨hfail, fun token hbound htoken hkind => ?_⟩
      have hhead := (head?_ahead_eq_some_iff hplaced).2 ⟨hbound, hwithin.tokens_eq ▸ htoken, hkind⟩
      rwa [sees, hhead] at hsees
  · intro index cursor hcursor hend further
    have hplaced := (hfamily cursor (List.mem_of_getElem? hcursor)).placed
    exact getElem?_run_of_ahead_eq_nil hfamily hcursor ((atEnd_eq_ok_true_iff hplaced).1 hend) further

-- A cursor at its bound does not take the token there; the one made from it does, and does not move it.
example :
    let tokens : Array Token := #[⟨.data, "a", ⟨0, 1, 1⟩⟩, ⟨.blockBegin, "<", ⟨1, 1, 2⟩⟩]
    let steps : List (Step 2) := [.perform 0 (.take [.data]), .perform 0 (.expect .blockBegin none),
      .sub 0 ⟨1, 2, by decide, by decide⟩, .perform 1 .advance]
    run steps [region tokens 0 1] = [⟨tokens, 0, 1, 1⟩, ⟨tokens, 1, 2, 2⟩] := by
  decide

end Cursor

end TagTemplate
