import Mathlib.Data.List.Chain
import Mathlib.Data.List.TakeWhile
import TagTemplate.Cursor

/-!
# What cursors do

A cursor is known by the tokens that can still be taken from it and by the token at which it stands. Every
action of a cursor is described by these two alone, failures included, so that no later proof looks at
an index again.
-/

namespace TagTemplate

section Actions

variable {σ α β : Type} {action : EStateM Fault σ α} {next : α → EStateM Fault σ β} {state state' : σ}

theorem bind_of_ok {value : α} (h : action state = .ok value state') :
    (action >>= next) state = next value state' := by
  simp [bind, EStateM.bind, h]

theorem get_bind {next : σ → EStateM Fault σ β} : (get >>= next) state = next state state := rfl

theorem bind_of_error {fault : Fault} (h : action state = .error fault state') :
    (action >>= next) state = .error fault state' := by
  simp [bind, EStateM.bind, h]

theorem bind_eq_ok_iff {result : β} {final : σ} :
    (action >>= next) state = .ok result final ↔
      ∃ value state', action state = .ok value state' ∧ next value state' = .ok result final := by
  cases haction : action state with
  | ok value state' => simp [bind_of_ok haction]
  | error fault state' => simp [bind_of_error haction]

theorem pure_eq_ok_iff {value value' : α} :
    (pure value : EStateM Fault σ α) state = .ok value' state' ↔ value' = value ∧ state' = state := by
  simp [pure, EStateM.pure, eq_comm]

@[simp] theorem throw_ne_ok {fault : Fault} {value : α} :
    (throw fault : EStateM Fault σ α) state ≠ .ok value state' := by
  change EStateM.Result.error fault state ≠ .ok value state'
  simp

end Actions

namespace Cursor

/-- A cursor that counts from the front of the list. -/
structure Placed (cursor : Cursor) : Prop where
  position_nonneg : 0 ≤ cursor.position
  bound_nonneg : 0 ≤ cursor.bound

/-- The tokens that can still be taken. -/
def ahead (cursor : Cursor) : List Token :=
  ((cursor.tokens.toList.take cursor.bound.toNat).drop cursor.position.toNat).takeWhile (·.kind != .eof)

/-- The token at which a cursor stands. -/
def here (cursor : Cursor) : Token :=
  cursor.tokens[(min cursor.position cursor.bound).toNat]?.getD (endToken cursor.tokens)

/-- Moves by so many tokens. -/
def skip (cursor : Cursor) (count : Nat) : Cursor :=
  { cursor with position := cursor.position + count }

/-- Whether the token at the cursor can be taken and is of some sort. -/
def sees (cursor : Cursor) (sort : Token → Bool) : Bool :=
  cursor.ahead.head?.any sort

variable {cursor cursor' : Cursor} {token : Token} {tokens rest : List Token}

@[simp] theorem skip_zero : cursor.skip 0 = cursor := by
  simp [skip]

@[simp] theorem skip_skip {m n : Nat} : (cursor.skip m).skip n = cursor.skip (m + n) := by
  simp [skip, Int.add_assoc]

theorem skip_max {m n : Nat} :
    { cursor with position := max (cursor.skip m).position (cursor.position + n) } =
      cursor.skip (max m n) := by
  simp only [skip, mk.injEq, true_and, and_true]
  omega

theorem Placed.skip (h : cursor.Placed) (n : Nat) : (cursor.skip n).Placed :=
  ⟨Int.add_nonneg h.position_nonneg (Int.natCast_nonneg n), h.bound_nonneg⟩

theorem placed_whole (tokens : Array Token) : (whole tokens).Placed :=
  ⟨Int.le_refl 0, Int.natCast_nonneg _⟩

theorem endToken_kind (tokens : Array Token) : (endToken tokens).kind = .eof := by
  unfold endToken
  split <;> rfl

theorem ahead_whole (tokens : List Token) :
    (whole tokens.toArray).ahead = tokens.takeWhile (·.kind != .eof) := by
  simp [ahead, whole, region]

/-! ### What lies ahead -/

theorem head?_ahead (h : cursor.Placed) :
    cursor.ahead.head? =
      if cursor.bound ≤ cursor.position ∨ cursor.here.kind = .eof then none else some cursor.here := by
  have hposition := h.position_nonneg
  rw [ahead, List.head?_takeWhile, List.head?_drop, List.getElem?_take, here]
  by_cases hbound : cursor.bound ≤ cursor.position
  · rw [if_neg (by omega), if_pos (.inl hbound)]
    rfl
  rw [if_pos (by omega), Int.min_eq_left (by omega), Array.getElem?_toList]
  cases htoken : cursor.tokens[cursor.position.toNat]? with
  | none => simp [endToken_kind]
  | some token => by_cases heof : token.kind = .eof <;> simp [hbound, heof]

theorem ahead_eq_nil_iff (h : cursor.Placed) :
    cursor.ahead = [] ↔ cursor.bound ≤ cursor.position ∨ cursor.here.kind = .eof := by
  rw [← List.head?_eq_none_iff, head?_ahead h]
  split <;> simp_all

theorem here_of_ahead (h : cursor.Placed) (hahead : cursor.ahead = token :: tokens) :
    cursor.here = token := by
  have hhead := head?_ahead h
  rw [hahead, List.head?_cons] at hhead
  split at hhead
  · simp at hhead
  · exact (Option.some.inj hhead).symm

/-- A token lies ahead exactly if it is at the cursor, within the region, and not the end of the text. -/
theorem head?_ahead_eq_some_iff (h : cursor.Placed) :
    cursor.ahead.head? = some token ↔
      cursor.position < cursor.bound ∧ cursor.tokens[cursor.position.toNat]? = some token ∧ token.kind ≠ .eof := by
  rw [head?_ahead h]
  by_cases hbound : cursor.bound ≤ cursor.position
  · rw [if_pos (.inl hbound)]
    exact iff_of_false (by simp) fun hroom => absurd hroom.1 (by omega)
  rw [here, Int.min_eq_left (by omega)]
  cases htoken : cursor.tokens[cursor.position.toNat]? with
  | none => simp [endToken_kind]
  | some token' =>
      rw [Option.getD_some, Option.some.injEq]
      by_cases heof : token'.kind = .eof
      · rw [if_pos (.inr heof)]
        exact iff_of_false (by simp) fun ⟨_, htoken', hkind⟩ => hkind (htoken' ▸ heof)
      · rw [if_neg (by simp [hbound, heof]), Option.some.injEq]
        exact ⟨fun htoken' => ⟨by omega, htoken', htoken' ▸ heof⟩, fun hroom => hroom.2.1⟩

theorem kind_ne_eof (hmem : token ∈ cursor.ahead) : token.kind ≠ .eof := by
  have hall := List.all_takeWhile (p := (·.kind != TokenKind.eof))
    (l := (cursor.tokens.toList.take cursor.bound.toNat).drop cursor.position.toNat)
  simpa using List.all_eq_true.1 hall token hmem

theorem ahead_skip_one (h : cursor.Placed) (hahead : cursor.ahead = token :: tokens) :
    (cursor.skip 1).ahead = tokens := by
  have hposition : (cursor.position + 1).toNat = cursor.position.toNat + 1 := by
    have := h.position_nonneg
    omega
  simp only [ahead, skip, Int.natCast_one, hposition] at hahead ⊢
  rw [← List.drop_drop]
  generalize (cursor.tokens.toList.take cursor.bound.toNat).drop cursor.position.toNat = remaining at hahead ⊢
  cases remaining with
  | nil => simp at hahead
  | cons token' remaining =>
      rw [List.takeWhile_cons] at hahead
      split at hahead
      · exact (List.cons.inj hahead).2
      · simp at hahead

theorem ahead_skip (h : cursor.Placed) (hahead : cursor.ahead = tokens ++ rest) :
    (cursor.skip tokens.length).ahead = rest := by
  induction tokens generalizing cursor with
  | nil => simpa using hahead
  | cons token tokens ih =>
      have hnext := ih (h.skip 1) (ahead_skip_one h hahead)
      rwa [skip_skip, Nat.add_comm] at hnext

/-- What lies ahead stands in the list, within the region. -/
theorem getElem?_tokens_of_ahead (h : cursor.Placed) {n : Nat} (hahead : cursor.ahead[n]? = some token) :
    cursor.position + n < cursor.bound ∧ cursor.tokens[(cursor.position + n).toNat]? = some token ∧
      token.kind ≠ .eof := by
  obtain ⟨hlength, -⟩ := List.getElem?_eq_some_iff.1 hahead
  have hskip := ahead_skip h (List.take_append_drop n cursor.ahead).symm
  rw [List.length_take_of_le (Nat.le_of_lt hlength)] at hskip
  rw [← List.head?_drop, ← hskip] at hahead
  exact (head?_ahead_eq_some_iff (h.skip n)).1 hahead

theorem length_ahead_le_room : cursor.ahead.length ≤ cursor.room := by
  have htake := (List.takeWhile_prefix (·.kind != TokenKind.eof)
    (l := (cursor.tokens.toList.take cursor.bound.toNat).drop cursor.position.toNat)).length_le
  rw [List.length_drop, List.length_take] at htake
  rw [ahead, room]
  omega

theorem sees_iff (h : cursor.Placed) {sort : Token → Bool} :
    cursor.sees sort = true ↔ ∃ rest, cursor.ahead = cursor.here :: rest ∧ sort cursor.here = true := by
  rw [sees, Option.any_eq_true]
  constructor
  · rintro ⟨token, hhead, hsort⟩
    obtain ⟨rest, hahead⟩ := List.head?_eq_some_iff.1 hhead
    rw [here_of_ahead h hahead]
    exact ⟨rest, hahead, hsort⟩
  · rintro ⟨rest, hahead, hsort⟩
    exact ⟨cursor.here, by rw [hahead, List.head?_cons], hsort⟩

/-! ### Taking tokens -/

theorem tokenAt?_of_nonneg {tokens : Array Token} {index : Int} (h : 0 ≤ index) :
    tokenAt? tokens index = .ok (tokens[index.toNat]?.getD (endToken tokens)) := by
  rw [tokenAt?, if_neg (by omega), if_neg (by omega)]

theorem current_apply (h : cursor.Placed) : current cursor = .ok cursor.here cursor := by
  have hindex : 0 ≤ min cursor.position cursor.bound := by
    have := h.position_nonneg
    have := h.bound_nonneg
    omega
  rw [current, get_bind, look, get_bind, tokenAt?_of_nonneg hindex]
  rfl

theorem atEnd_apply (h : cursor.Placed) : atEnd cursor = .ok cursor.ahead.isEmpty cursor := by
  rw [atEnd, get_bind]
  by_cases hbound : cursor.bound ≤ cursor.position
  · have hahead := (ahead_eq_nil_iff h).2 (.inl hbound)
    rw [if_pos hbound, hahead]
    rfl
  · rw [if_neg hbound, bind_of_ok (current_apply h)]
    have hiff : (cursor.here.kind == .eof) = cursor.ahead.isEmpty := by
      rw [Bool.eq_iff_iff, beq_iff_eq, List.isEmpty_iff, ahead_eq_nil_iff h]
      simp [hbound]
    rw [hiff]
    rfl

theorem atEnd_eq_ok_true_iff (h : cursor.Placed) : atEnd cursor = .ok true cursor ↔ cursor.ahead = [] := by
  rw [atEnd_apply h, EStateM.Result.ok.injEq, List.isEmpty_iff, and_iff_left rfl]

theorem advance_apply (h : cursor.Placed) :
    advance cursor = .ok cursor.here (if cursor.ahead.isEmpty then cursor else cursor.skip 1) := by
  rw [advance, bind_of_ok (current_apply h), bind_of_ok (atEnd_apply h)]
  cases cursor.ahead.isEmpty <;> rfl

theorem sees_eq_and (h : cursor.Placed) (sort : Token → Bool) :
    cursor.sees sort = (!cursor.ahead.isEmpty && sort cursor.here) := by
  cases hahead : cursor.ahead with
  | nil => rw [sees, hahead]; rfl
  | cons token tokens => rw [sees, hahead, here_of_ahead h hahead]; rfl

/-- Takes the token at the cursor if it can be taken and is of some sort. -/
def takeIf (sort : Token → Bool) : Action (Option Token) := fun cursor =>
  if cursor.sees sort then .ok (some cursor.here) (cursor.skip 1) else .ok none cursor

theorem takeIf_cases (sort : Token → Bool) :
    (∃ token, takeIf sort cursor = .ok (some token) (cursor.skip 1)) ∨
      takeIf sort cursor = .ok none cursor := by
  rw [takeIf]
  cases cursor.sees sort
  · exact .inr rfl
  · exact .inl ⟨cursor.here, rfl⟩

theorem takeIf_eq_some_iff (h : cursor.Placed) {sort : Token → Bool} :
    takeIf sort cursor = .ok (some token) cursor' ↔
      ∃ rest, cursor.ahead = token :: rest ∧ sort token = true ∧ cursor' = cursor.skip 1 := by
  rw [takeIf]
  constructor
  · intro hok
    split at hok
    · rename_i hsees
      obtain ⟨rest, hahead, hsort⟩ := (sees_iff h).1 hsees
      simp only [EStateM.Result.ok.injEq, Option.some.injEq] at hok
      obtain ⟨rfl, rfl⟩ := hok
      exact ⟨rest, hahead, hsort, rfl⟩
    · simp at hok
  · rintro ⟨rest, hahead, hsort, rfl⟩
    have hhere := here_of_ahead h hahead
    rw [if_pos ((sees_iff h).2 ⟨rest, hhere ▸ hahead, hhere ▸ hsort⟩), hhere]

theorem takeIf_eq_none_iff {sort : Token → Bool} :
    takeIf sort cursor = .ok none cursor' ↔
      cursor' = cursor ∧ ∀ token, cursor.ahead.head? = some token → sort token = false := by
  have hsees : cursor.sees sort = false ↔ ∀ token, cursor.ahead.head? = some token → sort token = false := by
    rw [sees, Option.any_eq_false]
  rw [takeIf, ← hsees]
  cases cursor.sees sort <;> simp [eq_comm]

theorem take?_apply (h : cursor.Placed) (kinds : List TokenKind) :
    take? kinds cursor = takeIf (kinds.contains ·.kind) cursor := by
  rw [take?, bind_of_ok (atEnd_apply h), takeIf, sees_eq_and h]
  cases hahead : cursor.ahead.isEmpty with
  | true => rfl
  | false =>
      have hadvance : advance cursor = .ok cursor.here (cursor.skip 1) := by
        rw [advance_apply h, hahead]
        rfl
      rw [if_neg (by simp), bind_of_ok (current_apply h), Bool.not_false, Bool.true_and]
      by_cases hkind : kinds.contains cursor.here.kind
      · rw [if_pos hkind, if_pos hkind, bind_of_ok hadvance]
        rfl
      · rw [if_neg hkind, if_neg hkind]
        rfl

theorem takeName?_apply (h : cursor.Placed) (names : List String) :
    takeName? names cursor =
      takeIf (fun token => token.kind == .name && names.contains token.value) cursor := by
  rw [takeName?, bind_of_ok (current_apply h), bind_of_ok (atEnd_apply h), takeIf, sees_eq_and h]
  cases hahead : cursor.ahead.isEmpty with
  | true => rfl
  | false =>
      have hadvance : advance cursor = .ok cursor.here (cursor.skip 1) := by
        rw [advance_apply h, hahead]
        rfl
      rw [if_neg (by simp), Bool.not_false, Bool.true_and]
      by_cases hname : (cursor.here.kind == .name && names.contains cursor.here.value) = true
      · rw [if_pos hname, if_pos hname, bind_of_ok hadvance]
        rfl
      · rw [if_neg hname, if_neg hname]
        rfl

theorem take?_cases (h : cursor.Placed) (kinds : List TokenKind) :
    (∃ token, take? kinds cursor = .ok (some token) (cursor.skip 1)) ∨
      take? kinds cursor = .ok none cursor := by
  rw [take?_apply h]
  exact takeIf_cases _

theorem takeName?_cases (h : cursor.Placed) (names : List String) :
    (∃ token, takeName? names cursor = .ok (some token) (cursor.skip 1)) ∨
      takeName? names cursor = .ok none cursor := by
  rw [takeName?_apply h]
  exact takeIf_cases _

theorem take?_eq_some_iff (h : cursor.Placed) {kind : TokenKind} :
    take? [kind] cursor = .ok (some token) cursor' ↔
      ∃ rest, cursor.ahead = token :: rest ∧ token.kind = kind ∧ cursor' = cursor.skip 1 := by
  rw [take?_apply h, takeIf_eq_some_iff h]
  simp

theorem take?_eq_none_iff (h : cursor.Placed) {kind : TokenKind} :
    take? [kind] cursor = .ok none cursor' ↔
      cursor' = cursor ∧ ∀ token, cursor.ahead.head? = some token → token.kind ≠ kind := by
  rw [take?_apply h, takeIf_eq_none_iff]
  simp

theorem takeName?_eq_some_iff (h : cursor.Placed) {names : List String} :
    takeName? names cursor = .ok (some token) cursor' ↔
      ∃ rest, cursor.ahead = token :: rest ∧ (token.kind = .name ∧ token.value ∈ names) ∧
        cursor' = cursor.skip 1 := by
  rw [takeName?_apply h, takeIf_eq_some_iff h]
  simp

theorem takeName?_eq_none_iff (h : cursor.Placed) {names : List String} :
    takeName? names cursor = .ok none cursor' ↔
      cursor' = cursor ∧
        ∀ token, cursor.ahead.head? = some token → ¬(token.kind = .name ∧ token.value ∈ names) := by
  rw [takeName?_apply h, takeIf_eq_none_iff]
  simp

theorem refuse_apply {α : Type} (h : cursor.Placed) (kind : SyntaxError.Kind) (complaint : Complaint) :
    (refuse kind complaint : Action α) cursor = .error (.grammar kind complaint cursor.here) cursor := by
  have hcomplain : complain kind complaint cursor = .ok ⟨kind, complaint, cursor.here⟩ cursor := by
    rw [complain, bind_of_ok (current_apply h)]
    rfl
  rw [refuse, bind_of_ok hcomplain]
  rfl

theorem expect_of_some {kind : TokenKind} {complaint : Option Complaint}
    (htake : take? [kind] cursor = .ok (some token) cursor') :
    expect kind complaint cursor = .ok token cursor' := by
  rw [expect, bind_of_ok htake]
  rfl

theorem expect_of_none (h : cursor.Placed) {kind : TokenKind} {complaint : Option Complaint}
    (htake : take? [kind] cursor = .ok none cursor) :
    expect kind complaint cursor =
      .error (.grammar .general (complaint.getD (.expectedToken kind cursor.here.kind)) cursor.here)
        cursor := by
  rw [expect, bind_of_ok htake]
  simp only [bind_of_ok (current_apply h), refuse_apply h]

theorem expect_eq_ok_iff (h : cursor.Placed) {kind : TokenKind} {complaint : Option Complaint} :
    expect kind complaint cursor = .ok token cursor' ↔
      ∃ rest, cursor.ahead = token :: rest ∧ token.kind = kind ∧ cursor' = cursor.skip 1 := by
  rw [← take?_eq_some_iff h]
  refine ⟨fun hok => ?_, expect_of_some⟩
  rcases take?_cases h [kind] with ⟨token', htake⟩ | htake
  · rw [expect_of_some htake] at hok
    simpa [htake] using hok
  · rw [expect_of_none h htake] at hok
    simp at hok

/-! ### Looking for markers -/

/-- Two tokens in a row open a tag with one of the given names. -/
def Marks (names : List String) (opening name : Token) : Prop :=
  opening.kind = .blockBegin ∧ name.kind = .name ∧ name.value ∈ names

instance (names : List String) (opening name : Token) : Decidable (Marks names opening name) :=
  inferInstanceAs (Decidable (_ ∧ _ ∧ _))

/-- The number of tokens in front of the first tag with one of the given names. -/
def firstMarker? (names : List String) : List Token → Option Nat
  | opening :: name :: tokens =>
      if Marks names opening name then some 0
      else (firstMarker? names (name :: tokens)).map (· + 1)
  | _ => none

/-- The number of tokens that looking for a tag takes: up to and with its name, or all. -/
def seekLength (names : List String) (tokens : List Token) : Nat :=
  (firstMarker? names tokens).elim tokens.length (· + 2)

variable {names : List String}

theorem firstMarker?_of_marks {opening name : Token} (h : Marks names opening name) :
    firstMarker? names (opening :: name :: tokens) = some 0 := by
  rw [firstMarker?, if_pos h]

theorem firstMarker?_cons (h : ∀ next, tokens.head? = some next → ¬Marks names token next) :
    firstMarker? names (token :: tokens) = (firstMarker? names tokens).map (· + 1) := by
  cases tokens with
  | nil => rfl
  | cons next tokens => rw [firstMarker?, if_neg (h next rfl)]

theorem seekLength_cons (h : ∀ next, tokens.head? = some next → ¬Marks names token next) :
    seekLength names (token :: tokens) = 1 + seekLength names tokens := by
  rw [seekLength, seekLength, firstMarker?_cons h, List.length_cons]
  cases firstMarker? names tokens with
  | none => exact Nat.add_comm _ 1
  | some count =>
      simp only [Option.map_some, Option.elim_some]
      omega

/-- Where looking for a tag ends, and whether it was found. -/
def sought (names : List String) (cursor : Cursor) : EStateM.Result Fault Cursor Bool :=
  .ok (firstMarker? names cursor.ahead).isSome (cursor.skip (seekLength names cursor.ahead))

theorem sought_nil (hahead : cursor.ahead = []) : sought names cursor = .ok false cursor := by
  rw [sought, hahead]
  simp [firstMarker?, seekLength]

theorem sought_cons (h : cursor.Placed) (hahead : cursor.ahead = token :: tokens)
    (hmarks : ∀ next, tokens.head? = some next → ¬Marks names token next) :
    sought names cursor = sought names (cursor.skip 1) := by
  rw [sought, sought, hahead, ahead_skip_one h hahead, firstMarker?_cons hmarks, seekLength_cons hmarks,
    Option.isSome_map, skip_skip]

/-- How looking for a tag goes on if there is none at the cursor. -/
def seekFurther (names : List String) (room : Nat) : Action Bool := do
  unless (← current).kind == .blockBegin do
    let _ ← advance
  seek names room

theorem seek_succ (names : List String) (room : Nat) :
    seek names (room + 1) = (do
      if ← atEnd then return false
      if (← take? [.blockBegin]).isSome then
        if (← takeName? names).isSome then return true
        else seekFurther names room
      else seekFurther names room) := rfl

theorem seekFurther_apply (h : cursor.Placed) {room : Nat}
    (hseek : ∀ cursor : Cursor, cursor.Placed → cursor.ahead.length ≤ room →
      seek names room cursor = sought names cursor)
    (hroom : cursor.ahead.length ≤ room ∨
      cursor.here.kind ≠ .blockBegin ∧ cursor.ahead.length ≤ room + 1) :
    seekFurther names room cursor = sought names cursor := by
  rw [seekFurther, bind_of_ok (current_apply h)]
  by_cases hkind : cursor.here.kind = .blockBegin
  · rw [if_pos (beq_iff_eq.2 hkind)]
    exact hseek cursor h (hroom.resolve_right fun hright => hright.1 hkind)
  · rw [if_neg (by simpa using hkind), bind_of_ok (advance_apply h)]
    cases hahead : cursor.ahead with
    | nil => exact hseek cursor h (by simp [hahead])
    | cons token tokens =>
        have hhere := here_of_ahead h hahead
        have hnext := ahead_skip_one h hahead
        have hmarks : ∀ next, tokens.head? = some next → ¬Marks names token next :=
          fun next _ hmarks => hkind (hhere ▸ hmarks.1)
        rw [sought_cons h hahead hmarks]
        refine hseek _ (h.skip 1) ?_
        rw [hahead, List.length_cons] at hroom
        rw [List.isEmpty_cons, if_neg (by simp), hnext]
        omega

theorem seek_apply (h : cursor.Placed) {room : Nat} (hroom : cursor.ahead.length ≤ room) :
    seek names room cursor = sought names cursor := by
  induction room generalizing cursor with
  | zero => rw [sought_nil (List.eq_nil_of_length_eq_zero (Nat.le_zero.1 hroom))]; rfl
  | succ room ih =>
      rw [seek_succ, bind_of_ok (atEnd_apply h)]
      cases hahead : cursor.ahead with
      | nil => rw [sought_nil hahead]; rfl
      | cons token tokens =>
          have hhere := here_of_ahead h hahead
          have hnext := ahead_skip_one h hahead
          rw [hahead, List.length_cons] at hroom
          rw [List.isEmpty_cons, if_neg (by simp)]
          by_cases hkind : token.kind = .blockBegin
          · have htake : take? [.blockBegin] cursor = .ok (some token) (cursor.skip 1) :=
              (take?_eq_some_iff h).2 ⟨tokens, hahead, hkind, rfl⟩
            rw [bind_of_ok htake, if_pos (by simp)]
            rcases takeName?_cases (h.skip 1) names with ⟨next, hname⟩ | hname
            · obtain ⟨rest, hrest, hnext', -⟩ := (takeName?_eq_some_iff (h.skip 1)).1 hname
              obtain rfl : tokens = next :: rest := hnext.symm.trans hrest
              rw [bind_of_ok hname, sought, hahead, seekLength, firstMarker?_of_marks ⟨hkind, hnext'⟩]
              simp [pure, EStateM.pure]
            · obtain ⟨-, hnone⟩ := (takeName?_eq_none_iff (h.skip 1)).1 hname
              rw [hnext] at hnone
              rw [bind_of_ok hname, sought_cons h hahead fun next hhead hmarks => hnone next hhead hmarks.2]
              exact seekFurther_apply (h.skip 1) (fun _ => ih) (.inl (by rw [hnext]; omega))
          · have htake : take? [.blockBegin] cursor = .ok none cursor := by
              refine (take?_eq_none_iff h).2 ⟨rfl, ?_⟩
              intro token' hhead
              rw [hahead] at hhead
              rwa [← Option.some.inj hhead]
            rw [bind_of_ok htake, if_neg (by simp)]
            exact seekFurther_apply h (fun _ => ih) (.inr ⟨hhere ▸ hkind, by simpa [hahead] using hroom⟩)

/-- The first tag with one of the names comes behind tokens among which there is none. -/
theorem firstMarker?_eq_some_iff {count : Nat} :
    firstMarker? names tokens = some count ↔
      ∃ body opening name rest, tokens = body ++ opening :: name :: rest ∧ body.length = count ∧
        Marks names opening name ∧ body.IsChain fun opening name => ¬Marks names opening name := by
  induction tokens generalizing count with
  | nil => simp [firstMarker?]
  | cons token tokens ih =>
      constructor
      · intro hcount
        cases tokens with
        | nil => simp [firstMarker?] at hcount
        | cons next tokens =>
            by_cases hmarks : Marks names token next
            · rw [firstMarker?_of_marks hmarks, Option.some.injEq] at hcount
              exact ⟨[], token, next, tokens, rfl, hcount, hmarks, .nil⟩
            · rw [firstMarker?, if_neg hmarks, Option.map_eq_some_iff] at hcount
              obtain ⟨count, hcount, rfl⟩ := hcount
              obtain ⟨body, opening, name, rest, htokens, rfl, hname, hbody⟩ := ih.1 hcount
              refine ⟨token :: body, opening, name, rest, by rw [htokens, List.cons_append], rfl, hname, ?_⟩
              refine hbody.cons fun next' hhead => ?_
              cases body with
              | nil => simp at hhead
              | cons token' body =>
                  obtain rfl : token' = next' := Option.some.inj hhead
                  obtain ⟨rfl, -⟩ := List.cons.inj htokens
                  exact hmarks
      · rintro ⟨body, opening, name, rest, htokens, rfl, hname, hbody⟩
        cases body with
        | nil =>
            obtain ⟨rfl, rfl⟩ := List.cons.inj htokens
            exact firstMarker?_of_marks hname
        | cons token' body =>
            obtain ⟨rfl, rfl⟩ := List.cons.inj htokens
            have hcount := ih.2 ⟨body, opening, name, rest, rfl, rfl, hname, (List.isChain_cons.1 hbody).2⟩
            rw [firstMarker?_cons, hcount]
            · rfl
            · intro next hhead hmarks
              cases body with
              | nil =>
                  obtain rfl : opening = next := Option.some.inj hhead
                  exact absurd (hname.1.symm.trans hmarks.2.1) (by decide)
              | cons token'' body =>
                  obtain rfl : token'' = next := Option.some.inj hhead
                  exact (List.isChain_cons_cons.1 hbody).1 hmarks

theorem firstMarker?_eq_none_iff :
    firstMarker? names tokens = none ↔ tokens.IsChain fun opening name => ¬Marks names opening name := by
  induction tokens with
  | nil => simp [firstMarker?]
  | cons token tokens ih =>
      cases tokens with
      | nil => simp [firstMarker?]
      | cons next tokens =>
          rw [firstMarker?, List.isChain_cons_cons, ← ih]
          by_cases hmarks : Marks names token next
          · simp [hmarks]
          · simp [hmarks]

theorem exists_of_not_isChain (h : ¬tokens.IsChain fun opening name => ¬Marks names opening name) :
    ∃ body opening name rest, tokens = body ++ opening :: name :: rest ∧ Marks names opening name ∧
      body.IsChain fun opening name => ¬Marks names opening name := by
  obtain ⟨count, hcount⟩ := Option.ne_none_iff_exists'.1 (mt firstMarker?_eq_none_iff.1 h)
  obtain ⟨body, opening, name, rest, htokens, -, hmarks, hbody⟩ := firstMarker?_eq_some_iff.1 hcount
  exact ⟨body, opening, name, rest, htokens, hmarks, hbody⟩

/-- Skipping ends behind the first tag with one of the names, or at the end if there is none. -/
theorem skipUntil_apply (h : cursor.Placed) (names : List String) :
    skipUntil names cursor =
      match firstMarker? names cursor.ahead with
      | some count => .ok () (cursor.skip (count + 2))
      | none =>
          .error (.grammar .unterminatedBlock (.unexpectedEnd names) cursor.here)
            (cursor.skip cursor.ahead.length) := by
  have hseek : seek names cursor.room cursor = sought names cursor := seek_apply h length_ahead_le_room
  rw [skipUntil, bind_of_ok (current_apply h), get_bind, bind_of_ok hseek, seekLength]
  cases firstMarker? names cursor.ahead <;> rfl

theorem skipUntil_eq_ok_iff (h : cursor.Placed) :
    skipUntil names cursor = .ok () cursor' ↔
      ∃ body opening name rest, cursor.ahead = body ++ opening :: name :: rest ∧
        cursor' = cursor.skip (body.length + 2) ∧ Marks names opening name ∧
        body.IsChain fun opening name => ¬Marks names opening name := by
  rw [skipUntil_apply h]
  constructor
  · intro hok
    cases hcount : firstMarker? names cursor.ahead with
    | none => simp [hcount] at hok
    | some count =>
        obtain ⟨body, opening, name, rest, hahead, rfl, hname, hbody⟩ := firstMarker?_eq_some_iff.1 hcount
        simp only [hcount, EStateM.Result.ok.injEq, true_and] at hok
        exact ⟨body, opening, name, rest, hahead, hok.symm, hname, hbody⟩
  · rintro ⟨body, opening, name, rest, hahead, rfl, hname, hbody⟩
    rw [firstMarker?_eq_some_iff.2 ⟨body, opening, name, rest, hahead, rfl, hname, hbody⟩]

theorem skipUntil_of_isChain (h : cursor.Placed)
    (hchain : cursor.ahead.IsChain fun opening name => ¬Marks names opening name) :
    ∃ cursor', skipUntil names cursor =
      .error (.grammar .unterminatedBlock (.unexpectedEnd names) cursor.here) cursor' := by
  rw [skipUntil_apply h, firstMarker?_eq_none_iff.2 hchain]
  exact ⟨_, rfl⟩

/-! ### The end of a tag -/

/-- None of the tokens closes or opens a tag. -/
def Inner (tokens : List Token) : Prop :=
  ∀ token ∈ tokens, token.kind ≠ .blockEnd ∧ token.kind ≠ .blockBegin

/-- The number of tokens in front of the delimiter that closes a tag: it comes before any tag opens. -/
def closingLength? : List Token → Option Nat
  | [] => none
  | token :: tokens =>
      if token.kind = .blockEnd then some 0
      else if token.kind = .blockBegin then none
      else (closingLength? tokens).map (· + 1)

/-- The delimiter that closes a tag comes behind tokens among which there is none that closes or opens one. -/
theorem closingLength?_eq_some_iff {count : Nat} :
    closingLength? tokens = some count ↔
      ∃ arguments closing rest, tokens = arguments ++ closing :: rest ∧ arguments.length = count ∧
        closing.kind = .blockEnd ∧ Inner arguments := by
  induction tokens generalizing count with
  | nil => simp [closingLength?]
  | cons token tokens ih =>
      rw [closingLength?]
      constructor
      · intro hcount
        split at hcount
        · rename_i hend
          exact ⟨[], token, tokens, rfl, Option.some.inj hcount, hend, by simp [Inner]⟩
        · rename_i hend
          split at hcount
          · simp at hcount
          · rename_i hbegin
            obtain ⟨count', hcount', rfl⟩ := Option.map_eq_some_iff.1 hcount
            obtain ⟨arguments, closing, rest, rfl, rfl, hclosing, harguments⟩ := ih.1 hcount'
            refine ⟨token :: arguments, closing, rest, rfl, rfl, hclosing, ?_⟩
            exact List.forall_mem_cons.2 ⟨⟨hend, hbegin⟩, harguments⟩
      · rintro ⟨arguments, closing, rest, htokens, rfl, hclosing, harguments⟩
        cases arguments with
        | nil =>
            obtain ⟨rfl, rfl⟩ := List.cons.inj htokens
            rw [if_pos hclosing]
            rfl
        | cons token' arguments =>
            obtain ⟨rfl, rfl⟩ := List.cons.inj htokens
            obtain ⟨⟨hend, hbegin⟩, hrest⟩ := List.forall_mem_cons.1 harguments
            rw [if_neg hend, if_neg hbegin, ih.2 ⟨arguments, closing, rest, rfl, rfl, hclosing, hrest⟩]
            rfl

theorem closingIndex?_succ {tokens : Array Token} {index : Int} {count : Nat}
    (htoken : tokenAt? tokens index = .ok token) :
    closingIndex? tokens index (count + 1) =
      if token.kind = .blockEnd then .ok (some index)
      else if token.kind = .blockBegin ∨ token.kind = .eof then .ok none
      else closingIndex? tokens (index + 1) count := by
  rw [closingIndex?, htoken]
  simp only [beq_iff_eq, Bool.or_eq_true]
  rfl

theorem closingIndex?_apply (h : cursor.Placed) {count : Nat}
    (hcount : count = (min cursor.bound cursor.tokens.size - cursor.position).toNat) :
    closingIndex? cursor.tokens cursor.position count =
      .ok ((closingLength? cursor.ahead).map fun length : Nat => cursor.position + length) := by
  induction count generalizing cursor with
  | zero =>
      have hnil : cursor.ahead = [] := by
        rw [ahead_eq_nil_iff h, or_iff_not_imp_left]
        intro hbound
        rw [here, Array.getElem?_eq_none (by omega)]
        exact endToken_kind cursor.tokens
      rw [hnil]
      rfl
  | succ count ih =>
      have hbound : ¬cursor.bound ≤ cursor.position := by omega
      have htoken : tokenAt? cursor.tokens cursor.position = .ok cursor.here := by
        rw [tokenAt?_of_nonneg h.position_nonneg, here, Int.min_eq_left (by omega)]
      rw [closingIndex?_succ htoken]
      cases hahead : cursor.ahead with
      | nil =>
          have heof := ((ahead_eq_nil_iff h).1 hahead).resolve_left hbound
          rw [if_neg (by simp [heof]), if_pos (.inr heof)]
          rfl
      | cons token tokens =>
          have heof : token.kind ≠ .eof := kind_ne_eof (by rw [hahead]; exact List.mem_cons_self)
          have hnext := ih (h.skip 1) (by simp only [skip]; omega)
          rw [ahead_skip_one h hahead] at hnext
          rw [here_of_ahead h hahead, closingLength?]
          by_cases hend : token.kind = .blockEnd
          · simp [hend]
          by_cases hbegin : token.kind = .blockBegin
          · simp [hbegin]
          rw [if_neg hend, if_neg hend, if_neg (by simp [hbegin, heof]), if_neg hbegin, Option.map_map]
          refine hnext.trans ?_
          congr 2
          funext length
          simp only [Function.comp_apply, skip]
          omega

theorem closing?_apply (h : cursor.Placed) :
    closing? cursor =
      .ok ((closingLength? cursor.ahead).map fun length : Nat => cursor.position + length) cursor := by
  rw [closing?, get_bind, closingIndex?_apply h rfl]
  rfl

/-- A cursor over the next tokens sees these and nothing behind them. -/
theorem ahead_sub (h : cursor.Placed) (hahead : cursor.ahead = tokens ++ rest) :
    (cursor.sub cursor.position (cursor.position + tokens.length)).ahead = tokens := by
  have hlength : (cursor.position + tokens.length).toNat - cursor.position.toNat = tokens.length := by
    have := h.position_nonneg
    omega
  have hprefix : tokens <+: cursor.tokens.toList.drop cursor.position.toNat := by
    rw [ahead, List.drop_take] at hahead
    refine (List.prefix_append tokens rest).trans ?_
    rw [← hahead]
    exact (List.takeWhile_prefix _).trans (List.take_prefix _ _)
  rw [ahead, sub, region, List.drop_take, hlength, ← List.prefix_iff_eq_take.1 hprefix,
    List.takeWhile_eq_self_iff]
  intro token hmem
  simpa using kind_ne_eof (by rw [hahead]; exact List.mem_append_left rest hmem)

theorem placed_sub (h : cursor.Placed) (count : Nat) :
    (cursor.sub cursor.position (cursor.position + count)).Placed :=
  ⟨h.position_nonneg, Int.add_nonneg h.position_nonneg (Int.natCast_nonneg count)⟩

theorem closing?_eq_some_iff (h : cursor.Placed) {close : Int} :
    closing? cursor = .ok (some close) cursor' ↔
      cursor' = cursor ∧ ∃ arguments closing rest, cursor.ahead = arguments ++ closing :: rest ∧
        close = cursor.position + arguments.length ∧ closing.kind = .blockEnd ∧ Inner arguments := by
  rw [closing?_apply h, EStateM.Result.ok.injEq, Option.map_eq_some_iff, and_comm, eq_comm (a := cursor)]
  refine and_congr_right fun _ => ⟨?_, ?_⟩
  · rintro ⟨length, hlength, rfl⟩
    obtain ⟨arguments, closing, rest, hahead, rfl, hclosing, harguments⟩ :=
      closingLength?_eq_some_iff.1 hlength
    exact ⟨arguments, closing, rest, hahead, rfl, hclosing, harguments⟩
  · rintro ⟨arguments, closing, rest, hahead, rfl, hclosing, harguments⟩
    exact ⟨arguments.length,
      closingLength?_eq_some_iff.2 ⟨arguments, closing, rest, hahead, rfl, hclosing, harguments⟩, rfl⟩

end Cursor

end TagTemplate
