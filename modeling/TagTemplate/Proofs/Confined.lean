import TagTemplate.Proofs.Builtin

/-!
# Actions that stay within regions

What is made of the actions of cursors only ever takes tokens that can be taken, whether it is done or fails, and never
looks for a token in front of the list. This holds of the built-in tags, and so of recognition with them, from wherever
it starts.
-/

namespace TagTemplate

variable {σ α β : Type}

/-- The state in which an action leaves its object, be it done or failed. -/
def stateOf : EStateM.Result Fault σ α → σ
  | .ok _ state | .error _ state => state

/-- How the actions of one sort of object may change it: from a sound state they reach a sound one. -/
structure Motion (σ : Type) where
  Sound : σ → Prop
  Reaches : σ → σ → Prop
  refl : ∀ state, Reaches state state
  trans : ∀ {first second third}, Sound first → Reaches first second → Reaches second third → Reaches first third
  sound : ∀ {first second}, Sound first → Reaches first second → Sound second

namespace Motion

variable {motion : Motion σ} {state : σ} {action : EStateM Fault σ α} {next : α → EStateM Fault σ β} {value : α}
  {fault : Fault}

/-- What comes of an action leaves its object where it may be, and does not tell of a place in front of the list. -/
def Allows (motion : Motion σ) (state : σ) (result : EStateM.Result Fault σ α) : Prop :=
  motion.Reaches state (stateOf result) ∧ ∀ state', result ≠ .error (.defect .indexOutOfRange) state'

/-- From sound states an action does only what is allowed. -/
def Confines (motion : Motion σ) (action : EStateM Fault σ α) : Prop :=
  ∀ state, motion.Sound state → motion.Allows state (action state)

theorem allows_ok {state' : σ} (h : motion.Reaches state state') : motion.Allows state (.ok value state') :=
  ⟨h, by simp⟩

theorem allows_error {state' : σ} (h : motion.Reaches state state') (hfault : fault ≠ .defect .indexOutOfRange) :
    motion.Allows state (.error fault state' : EStateM.Result Fault σ α) :=
  ⟨h, by simp [hfault]⟩

theorem Allows.fault_ne {state' : σ} (h : motion.Allows state (.error fault state' : EStateM.Result Fault σ α)) :
    fault ≠ .defect .indexOutOfRange := by
  rintro rfl
  exact h.2 state' rfl

theorem Allows.bind (hstate : motion.Sound state) (h : motion.Allows state (action state))
    (hnext : ∀ value state', action state = .ok value state' → motion.Sound state' →
      motion.Allows state' (next value state')) :
    motion.Allows state ((action >>= next) state) := by
  cases haction : action state with
  | error fault state' =>
      rw [haction] at h
      rw [bind_of_error haction]
      exact allows_error h.1 h.fault_ne
  | ok value state' =>
      rw [haction] at h
      rw [bind_of_ok haction]
      obtain ⟨hreaches, hfault⟩ := hnext value state' haction (motion.sound hstate h.1)
      exact ⟨motion.trans hstate h.1 hreaches, hfault⟩

theorem Confines.bind (h : motion.Confines action) (hnext : ∀ value, motion.Confines (next value)) :
    motion.Confines (action >>= next) :=
  fun state hstate => (h state hstate).bind hstate fun value state' _ => hnext value state'

theorem confines_pure (value : α) : motion.Confines (pure value) :=
  fun state _ => allows_ok (motion.refl state)

theorem confines_throw (hfault : fault ≠ .defect .indexOutOfRange) :
    motion.Confines (throw fault : EStateM Fault σ α) :=
  fun state _ => allows_error (motion.refl state) hfault

end Motion

open Motion

/-! ### Cursors -/

namespace Cursor

variable {cursor : Cursor}

/-- Cursors move over tokens that can be taken. -/
def motion : Motion Cursor where
  Sound := Placed
  Reaches cursor cursor' := ∃ count ≤ cursor.ahead.length, cursor' = cursor.skip count
  refl _ := ⟨0, Nat.zero_le _, skip_zero.symm⟩
  trans := by
    rintro cursor _ _ h ⟨count, hcount, rfl⟩ ⟨count', hcount', rfl⟩
    have hskip := ahead_skip h (List.take_append_drop count cursor.ahead).symm
    rw [List.length_take_of_le hcount] at hskip
    rw [hskip, List.length_drop] at hcount'
    exact ⟨count + count', by omega, skip_skip⟩
  sound := by
    rintro cursor _ h ⟨count, -, rfl⟩
    exact h.skip count

theorem reaches_skip_one (h : cursor.ahead ≠ []) : motion.Reaches cursor (cursor.skip 1) :=
  ⟨1, List.length_pos_iff.2 h, rfl⟩

theorem confines_current : motion.Confines current := by
  intro cursor h
  rw [current_apply h]
  exact allows_ok (motion.refl cursor)

theorem peek_apply (h : cursor.Placed) (offset : Nat) :
    peek offset cursor = .ok (cursor.skip offset).here cursor := by
  have hindex : 0 ≤ min (cursor.position + offset) cursor.bound := by
    have := h.position_nonneg
    have := h.bound_nonneg
    omega
  rw [peek, get_bind, look, get_bind, tokenAt?_of_nonneg hindex]
  rfl

theorem confines_peek (offset : Nat) : motion.Confines (peek offset) := by
  intro cursor h
  rw [peek_apply h]
  exact allows_ok (motion.refl cursor)

theorem confines_atEnd : motion.Confines atEnd := by
  intro cursor h
  rw [atEnd_apply h]
  exact allows_ok (motion.refl cursor)

theorem confines_advance : motion.Confines advance := by
  intro cursor h
  rw [advance_apply h]
  cases hahead : cursor.ahead.isEmpty with
  | true => exact allows_ok (motion.refl cursor)
  | false => exact allows_ok (reaches_skip_one (by simpa using hahead))

theorem confines_takeIf (sort : Token → Bool) : motion.Confines (takeIf sort) := by
  intro cursor h
  rw [takeIf]
  split
  · rename_i hsees
    obtain ⟨rest, hahead, -⟩ := (sees_iff h).1 hsees
    exact allows_ok (reaches_skip_one (by simp [hahead]))
  · exact allows_ok (motion.refl cursor)

theorem confines_take? (kinds : List TokenKind) : motion.Confines (take? kinds) := by
  intro cursor h
  rw [take?_apply h]
  exact confines_takeIf _ cursor h

theorem confines_takeName? (names : List String) : motion.Confines (takeName? names) := by
  intro cursor h
  rw [takeName?_apply h]
  exact confines_takeIf _ cursor h

theorem confines_complain (kind : SyntaxError.Kind) (complaint : Complaint) :
    motion.Confines (complain kind complaint) :=
  confines_current.bind fun _ => confines_pure _

theorem confines_refuse (kind : SyntaxError.Kind) (complaint : Complaint) :
    motion.Confines (refuse kind complaint : Action α) :=
  (confines_complain kind complaint).bind fun _ => confines_throw (by simp)

theorem confines_expect (kind : TokenKind) (complaint : Option Complaint) : motion.Confines (expect kind complaint) := by
  refine (confines_take? [kind]).bind fun token => ?_
  cases token with
  | some token => exact confines_pure token
  | none => exact confines_current.bind fun _ => confines_refuse _ _

theorem confines_skipUntil (names : List String) : motion.Confines (skipUntil names) := by
  intro cursor h
  rw [skipUntil_apply h]
  cases hcount : firstMarker? names cursor.ahead with
  | none => exact allows_error ⟨_, le_refl _, rfl⟩ (by simp [Fault.grammar])
  | some count =>
      obtain ⟨body, opening, name, rest, hahead, rfl, -⟩ := firstMarker?_eq_some_iff.1 hcount
      refine allows_ok ⟨_, ?_, rfl⟩
      rw [hahead, List.length_append, List.length_cons, List.length_cons]
      omega

end Cursor

/-! ### Tags -/

namespace Tag

/-- A tag's reader moves both of its cursors like this. -/
def Scope.motion : Motion Scope where
  Sound scope := scope.outer.Placed ∧ scope.arguments.Placed
  Reaches scope scope' :=
    Cursor.motion.Reaches scope.outer scope'.outer ∧ Cursor.motion.Reaches scope.arguments scope'.arguments
  refl _ := ⟨Cursor.motion.refl _, Cursor.motion.refl _⟩
  trans h h' h'' := ⟨Cursor.motion.trans h.1 h'.1 h''.1, Cursor.motion.trans h.2 h'.2 h''.2⟩
  sound h h' := ⟨Cursor.motion.sound h.1 h'.1, Cursor.motion.sound h.2 h'.2⟩

variable {action : Cursor.Action α}

theorem confines_outer (h : Cursor.motion.Confines action) : Scope.motion.Confines (outer action) := by
  intro scope hscope
  have hallows := h scope.outer hscope.1
  rw [outer]
  cases haction : action scope.outer with
  | ok value cursor =>
      rw [haction] at hallows
      exact allows_ok ⟨hallows.1, Cursor.motion.refl _⟩
  | error fault cursor =>
      rw [haction] at hallows
      exact allows_error ⟨hallows.1, Cursor.motion.refl _⟩ hallows.fault_ne

theorem confines_arguments (h : Cursor.motion.Confines action) : Scope.motion.Confines (arguments action) := by
  intro scope hscope
  have hallows := h scope.arguments hscope.2
  rw [arguments]
  cases haction : action scope.arguments with
  | ok value cursor =>
      rw [haction] at hallows
      exact allows_ok ⟨Cursor.motion.refl _, hallows.1⟩
  | error fault cursor =>
      rw [haction] at hallows
      exact allows_error ⟨Cursor.motion.refl _, hallows.1⟩ hallows.fault_ne

theorem confines_readCount (token : Token) : Scope.motion.Confines (readCount token) := by
  rw [readCount]
  split
  · exact confines_pure _
  · exact confines_throw (by simp)

theorem confines_readMode (token : Token) : Scope.motion.Confines (readMode token) := by
  rw [readMode]
  split
  · exact confines_pure _
  · exact confines_throw (by simp [Fault.grammar])

theorem confines_optional {kind : TokenKind} {read : Token → Reading α} (h : ∀ token, Scope.motion.Confines (read token))
    (default : α) : Scope.motion.Confines (optional kind read default) := by
  refine (confines_arguments (Cursor.confines_take? [kind])).bind fun token => ?_
  cases token with
  | some token => exact h token
  | none => exact confines_pure default

theorem confines_finish (complaint : Complaint) (value : α) : Scope.motion.Confines (finish complaint value) := by
  refine (confines_arguments Cursor.confines_atEnd).bind fun ended => ?_
  cases ended with
  | true => exact confines_pure value
  | false => exact (confines_arguments (Cursor.confines_refuse _ complaint)).bind fun _ => confines_pure value

theorem confines_lorem (nested : Nested) : Scope.motion.Confines (lorem nested) := by
  rw [lorem_eq]
  refine (confines_outer Cursor.confines_current).bind fun location => ?_
  refine (confines_optional confines_readCount 1).bind fun count => ?_
  refine (confines_optional confines_readMode _).bind fun mode => ?_
  exact (confines_arguments (Cursor.confines_takeName? _)).bind fun random => confines_finish _ _

theorem confines_comment (nested : Nested) : Scope.motion.Confines (comment nested) := by
  rw [comment_eq]
  refine (confines_outer Cursor.confines_current).bind fun location => ?_
  exact (confines_outer (Cursor.confines_skipUntil _)).bind fun _ => confines_finish _ _

theorem confines_of_lookup_builtinReaders {disabled : List String} {name : String} {reader : Reader}
    (h : (builtinReaders disabled).lookup name = some reader) (nested : Nested) :
    Scope.motion.Confines (reader nested) := by
  obtain ⟨-, ⟨-, rfl⟩ | ⟨-, rfl⟩⟩ := lookup_builtinReaders_eq_some_iff.1 h
  · exact confines_lorem nested
  · exact confines_comment nested

end Tag

/-! ### Recognition -/

variable {registry : Registry Tag.Reader} {nested : Tag.Nested} {cursor : Cursor}

theorem allows_readTag {reader : Tag.Reader} (hreader : Tag.Scope.motion.Confines (reader nested)) (h : cursor.Placed)
    (name : String) {count : Nat} (hcount : count ≤ cursor.ahead.length) :
    Cursor.motion.Allows cursor (readTag reader nested name (cursor.position + count) cursor) := by
  have hallows := hreader ⟨cursor, cursor.sub cursor.position (cursor.position + count)⟩
    ⟨h, Cursor.placed_sub h count⟩
  rw [readTag]
  cases hread : reader nested ⟨cursor, cursor.sub cursor.position (cursor.position + count)⟩ with
  | error fault scope =>
      rw [hread] at hallows
      obtain ⟨moved, hmoved, houter⟩ : Cursor.motion.Reaches cursor scope.outer := hallows.1.1
      exact allows_error ⟨moved, hmoved, by rw [houter]; rfl⟩ hallows.fault_ne
  | ok product scope =>
      rw [hread] at hallows
      obtain ⟨moved, hmoved, houter⟩ : Cursor.motion.Reaches cursor scope.outer := hallows.1.1
      cases product with
      | statement statement =>
          apply allows_ok
          rw [houter, Cursor.skip_max]
          exact ⟨_, max_le hmoved hcount, rfl⟩
      | foreign kind => exact allows_error ⟨moved, hmoved, by rw [houter]; rfl⟩ (by simp)

/-- Recognition of a tag takes only what can be taken, if the readers do. -/
theorem confines_recogniseBlock
    (hreaders : ∀ name reader, registry.lookup name = some reader → Tag.Scope.motion.Confines (reader nested)) :
    Cursor.motion.Confines (recogniseBlock registry nested) := by
  refine (Cursor.confines_expect _ _).bind fun opening => ?_
  refine (Cursor.confines_take? _).bind fun name? => ?_
  cases name? with
  | none => exact Cursor.confines_refuse _ _
  | some name =>
      cases hreader : registry.lookup name.value with
      | none =>
          simp only [hreader]
          exact confines_throw (by simp [Fault.grammar])
      | some reader =>
          simp only [hreader]
          intro cursor h
          have hclosing : Cursor.motion.Allows cursor (Cursor.closing? cursor) := by
            rw [Cursor.closing?_apply h]
            exact allows_ok (Cursor.motion.refl cursor)
          refine hclosing.bind h fun close? cursor' hclose h' => ?_
          cases close? with
          | none => exact allows_error (Cursor.motion.refl cursor') (by simp [Fault.grammar])
          | some close =>
              obtain ⟨rfl, arguments, closing, rest, hahead, rfl, -⟩ := (Cursor.closing?_eq_some_iff h).1 hclose
              have hlength : arguments.length ≤ cursor'.ahead.length := by
                rw [hahead, List.length_append]
                omega
              have hread := allows_readTag (hreaders _ _ hreader) h name.value hlength
              refine hread.bind h fun statement cursor₁ _ h₁ => ?_
              exact ((Cursor.confines_expect _ _).bind fun _ => confines_pure _) cursor₁ h₁

theorem confines_skipShortComment : Cursor.motion.Confines skipShortComment := by
  refine (Cursor.confines_expect _ _).bind fun _ => ?_
  exact (Cursor.confines_take? _).bind fun _ => (Cursor.confines_expect _ _).bind fun _ => confines_pure _

theorem confines_recogniseNext
    (hreaders : ∀ name reader, registry.lookup name = some reader → Tag.Scope.motion.Confines (reader nested)) :
    Cursor.motion.Confines (recogniseNext registry nested) := by
  refine Cursor.confines_current.bind fun token => ?_
  cases token.kind with
  | data => exact Cursor.confines_advance.bind fun _ => confines_pure _
  | blockBegin => exact (confines_recogniseBlock hreaders).bind fun _ => confines_pure _
  | commentBegin => exact confines_skipShortComment.bind fun _ => confines_pure _
  | _ => exact Cursor.confines_refuse _ _

end TagTemplate
