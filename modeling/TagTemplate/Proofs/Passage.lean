import TagTemplate.Proofs.Confined
import TagTemplate.Tag.Sample

/-!
# Cursors that pass tokens

A cursor only ever moves over tokens that stand in its list, one after the other, within its bound and before the end
of the text. This holds wherever the cursor stands, also for indices that are counted from the end of the list, and of
every tag whose reader moves the outer cursor by the actions of cursors and by recognition only.
-/

namespace TagTemplate

variable {σ α β : Type}

namespace Motion

variable {motion : Motion σ} {state : σ} {action : EStateM Fault σ α} {next : α → EStateM Fault σ β}
  {handler : Fault → EStateM Fault σ α}

/-- From sound states an action, be it done or failed, leaves its object where it may be. -/
def Carries (motion : Motion σ) (action : EStateM Fault σ α) : Prop :=
  ∀ state, motion.Sound state → motion.Reaches state (stateOf (action state))

theorem carries_pure (value : α) : motion.Carries (pure value) := fun state _ => motion.refl state

theorem carries_throw (fault : Fault) : motion.Carries (throw fault : EStateM Fault σ α) :=
  fun state _ => motion.refl state

theorem reaches_bind (hstate : motion.Sound state) (h : motion.Reaches state (stateOf (action state)))
    (hnext : ∀ value state', action state = .ok value state' → motion.Sound state' →
      motion.Reaches state' (stateOf (next value state'))) :
    motion.Reaches state (stateOf ((action >>= next) state)) := by
  cases haction : action state with
  | error fault state' =>
      rw [haction] at h
      rw [bind_of_error haction]
      exact h
  | ok value state' =>
      rw [haction] at h
      rw [bind_of_ok haction]
      exact motion.trans hstate h (hnext value state' haction (motion.sound hstate h))

theorem Carries.bind (h : motion.Carries action) (hnext : ∀ value, motion.Carries (next value)) :
    motion.Carries (action >>= next) :=
  fun state hstate => reaches_bind hstate (h state hstate) fun value state' _ => hnext value state'

theorem Carries.tryCatch (h : motion.Carries action) (hhandler : ∀ fault, motion.Carries (handler fault)) :
    motion.Carries (tryCatch action handler) := by
  intro state hstate
  have hreaches := h state hstate
  show motion.Reaches state (stateOf (EStateM.tryCatch action handler state))
  rw [EStateM.tryCatch]
  cases haction : action state with
  | ok value state' =>
      rw [haction] at hreaches
      exact hreaches
  | error fault state' =>
      rw [haction] at hreaches
      exact motion.trans hstate hreaches (hhandler fault state' (motion.sound hstate hreaches))

end Motion

open Motion

namespace Cursor

variable {cursor cursor' final : Cursor} {token : Token} {tokens others : List Token} {action : Action α}

/-- A cursor stands at a token that can be taken. -/
structure Faces (cursor : Cursor) (token : Token) : Prop where
  position_lt : cursor.position < cursor.bound
  tokenAt?_eq : tokenAt? cursor.tokens cursor.position = .ok token
  kind_ne : token.kind ≠ .eof

/-- A cursor can take some tokens, one after the other, and then it is where the second one is. -/
inductive Passes : Cursor → List Token → Cursor → Prop
  | nil (cursor : Cursor) : Passes cursor [] cursor
  | cons {cursor final : Cursor} {token : Token} {tokens : List Token} :
      cursor.Faces token → Passes (cursor.skip 1) tokens final → Passes cursor (token :: tokens) final

theorem Faces.passes (h : cursor.Faces token) : cursor.Passes [token] (cursor.skip 1) := .cons h (.nil _)

theorem Faces.unique {token' : Token} (h : cursor.Faces token) (h' : cursor.Faces token') : token' = token :=
  (Except.ok.inj (h.tokenAt?_eq.symm.trans h'.tokenAt?_eq)).symm

theorem Passes.append (h : cursor.Passes tokens cursor') (h' : cursor'.Passes others final) :
    cursor.Passes (tokens ++ others) final := by
  induction h with
  | nil => exact h'
  | cons hfaces _ ih => exact .cons hfaces (ih h')

theorem Passes.eq_skip (h : cursor.Passes tokens final) : final = cursor.skip tokens.length := by
  induction h with
  | nil => exact skip_zero.symm
  | cons _ _ ih => rw [ih, skip_skip, List.length_cons, Nat.add_comm]

/-- Of two ways that a cursor can go, one goes on where the other ends. -/
theorem Passes.compare (h : cursor.Passes tokens cursor') (h' : cursor.Passes others final) :
    (∃ rest, others = tokens ++ rest ∧ cursor'.Passes rest final) ∨
      ∃ rest, tokens = others ++ rest ∧ final.Passes rest cursor' := by
  induction h generalizing others with
  | nil cursor => exact .inl ⟨others, rfl, h'⟩
  | cons hfaces hpasses ih =>
      cases h' with
      | nil => exact .inr ⟨_, rfl, .cons hfaces hpasses⟩
      | cons hfaces' hpasses' =>
          obtain rfl := hfaces.unique hfaces'
          rcases ih hpasses' with ⟨rest, rfl, hrest⟩ | ⟨rest, rfl, hrest⟩
          · exact .inl ⟨rest, rfl, hrest⟩
          · exact .inr ⟨rest, rfl, hrest⟩

theorem Passes.length_le_room (h : cursor.Passes tokens final) : tokens.length + final.room ≤ cursor.room := by
  induction h with
  | nil => exact Nat.le_of_eq (Nat.zero_add _)
  | @cons cursor final token tokens hfaces _ ih =>
      have hlt := hfaces.position_lt
      simp only [List.length_cons, room, skip] at ih ⊢
      omega

/-- Cursors pass tokens. -/
def passage : Motion Cursor where
  Sound _ := True
  Reaches cursor final := ∃ tokens, cursor.Passes tokens final
  refl cursor := ⟨[], .nil cursor⟩
  trans := by
    rintro _ _ _ - ⟨tokens, h⟩ ⟨others, h'⟩
    exact ⟨tokens ++ others, h.append h'⟩
  sound _ _ := trivial

theorem reaches_position (h : passage.Reaches cursor final) :
    passage.Reaches cursor { cursor with position := final.position } := by
  obtain ⟨tokens, hpasses⟩ := h
  have hposition : { cursor with position := final.position } = final := by
    rw [hpasses.eq_skip]
    rfl
  exact ⟨tokens, hposition ▸ hpasses⟩

/-! ### The actions of cursors -/

theorem Faces.current_eq (h : cursor.Faces token) : current cursor = .ok token cursor := by
  rw [current, get_bind, look, get_bind, Int.min_eq_left (Int.le_of_lt h.position_lt), h.tokenAt?_eq]
  rfl

theorem Faces.atEnd_eq (h : cursor.Faces token) : atEnd cursor = .ok false cursor := by
  rw [atEnd, get_bind, if_neg (Int.not_le.2 h.position_lt), bind_of_ok h.current_eq, beq_false_of_ne h.kind_ne]
  rfl

theorem Faces.advance_eq (h : cursor.Faces token) : advance cursor = .ok token (cursor.skip 1) := by
  rw [advance, bind_of_ok h.current_eq, bind_of_ok h.atEnd_eq]
  rfl

theorem carries_look (index : Int) : passage.Carries (look index) := by
  intro cursor hcursor
  rw [look, get_bind]
  cases tokenAt? cursor.tokens (min index cursor.bound) with
  | ok token => exact carries_pure token cursor hcursor
  | error fault => exact carries_throw fault cursor hcursor

theorem carries_current : passage.Carries current := fun cursor hcursor => carries_look cursor.position cursor hcursor

theorem carries_peek (offset : Int) : passage.Carries (peek offset) :=
  fun cursor hcursor => carries_look (cursor.position + offset) cursor hcursor

theorem carries_atEnd : passage.Carries atEnd := by
  intro cursor hcursor
  rw [atEnd, get_bind]
  split
  · exact carries_pure _ cursor hcursor
  · exact (carries_current.bind fun _ => carries_pure _) cursor hcursor

theorem current_eq_ok (h : current cursor = .ok token cursor') :
    cursor' = cursor ∧ tokenAt? cursor.tokens (min cursor.position cursor.bound) = .ok token := by
  rw [current, get_bind, look, get_bind] at h
  cases htoken : tokenAt? cursor.tokens (min cursor.position cursor.bound) with
  | error fault =>
      rw [htoken] at h
      exact absurd h throw_ne_ok
  | ok token' =>
      rw [htoken] at h
      obtain ⟨rfl, rfl⟩ := pure_eq_ok_iff.1 h
      exact ⟨rfl, rfl⟩

theorem atEnd_eq_ok {ended : Bool} (h : atEnd cursor = .ok ended cursor') :
    cursor' = cursor ∧ (ended = false → ∃ token, cursor.Faces token) := by
  rw [atEnd, get_bind] at h
  by_cases hbound : cursor.bound ≤ cursor.position
  · rw [if_pos hbound] at h
    obtain ⟨rfl, rfl⟩ := pure_eq_ok_iff.1 h
    exact ⟨rfl, fun hended => Bool.noConfusion hended⟩
  · rw [if_neg hbound] at h
    obtain ⟨token, _, hcurrent, hended⟩ := bind_eq_ok_iff.1 h
    obtain ⟨rfl, htoken⟩ := current_eq_ok hcurrent
    obtain ⟨rfl, rfl⟩ := pure_eq_ok_iff.1 hended
    rw [Int.min_eq_left (by omega)] at htoken
    exact ⟨rfl, fun hkind => ⟨token, Int.not_le.1 hbound, htoken, ne_of_beq_false hkind⟩⟩

theorem carries_advance : passage.Carries advance := by
  intro cursor hcursor
  rw [advance]
  refine reaches_bind hcursor (carries_current cursor hcursor) fun token cursor' hcurrent _ => ?_
  refine reaches_bind hcursor (carries_atEnd cursor' hcursor) fun ended cursor'' hend _ => ?_
  obtain ⟨rfl, hfaces⟩ := atEnd_eq_ok hend
  cases ended with
  | true => exact ⟨[], .nil _⟩
  | false =>
      obtain ⟨token', hfaces⟩ := hfaces rfl
      exact ⟨[token'], hfaces.passes⟩

theorem carries_take? (kinds : List TokenKind) : passage.Carries (take? kinds) := by
  rw [take?]
  refine carries_atEnd.bind fun ended => ?_
  split
  · exact carries_pure _
  refine carries_current.bind fun token => ?_
  split
  · exact carries_advance.bind fun _ => carries_pure _
  · exact carries_pure _

theorem carries_takeName? (names : List String) : passage.Carries (takeName? names) := by
  rw [takeName?]
  refine carries_current.bind fun token => ?_
  refine carries_atEnd.bind fun ended => ?_
  split
  · exact carries_pure _
  split
  · exact carries_advance.bind fun _ => carries_pure _
  · exact carries_pure _

theorem carries_complain (kind : SyntaxError.Kind) (complaint : Complaint) :
    passage.Carries (complain kind complaint) :=
  carries_current.bind fun _ => carries_pure _

theorem carries_refuse (kind : SyntaxError.Kind) (complaint : Complaint) :
    passage.Carries (refuse kind complaint : Action α) :=
  (carries_complain kind complaint).bind fun _ => carries_throw _

theorem carries_expect (kind : TokenKind) (complaint : Option Complaint) : passage.Carries (expect kind complaint) := by
  rw [expect]
  refine (carries_take? [kind]).bind fun taken => ?_
  cases taken with
  | some token => exact carries_pure token
  | none => exact carries_current.bind fun _ => carries_refuse _ _

theorem carries_seek (names : List String) (room : Nat) : passage.Carries (seek names room) := by
  induction room with
  | zero => exact carries_pure false
  | succ room ih =>
      -- This is what is done unless the end tag was found, whether another tag opens or not.
      have hnext : passage.Carries (do
          unless (← current).kind == .blockBegin do
            let _ ← advance
          seek names room) := by
        refine carries_current.bind fun token => ?_
        split
        · exact ih
        · exact carries_advance.bind fun _ => ih
      rw [seek]
      refine carries_atEnd.bind fun ended => ?_
      split
      · exact carries_pure false
      refine (carries_take? _).bind fun opening => ?_
      split
      · refine (carries_takeName? names).bind fun name => ?_
        split
        · exact carries_pure true
        · exact hnext
      · exact hnext

theorem carries_skipUntil (names : List String) : passage.Carries (skipUntil names) := by
  intro cursor hcursor
  rw [skipUntil]
  refine reaches_bind hcursor (carries_current cursor hcursor) fun started cursor' _ _ => ?_
  rw [get_bind]
  refine ((carries_seek names cursor'.room).bind fun found => ?_) cursor' trivial
  split
  · exact carries_pure _
  · exact carries_throw _

/-! ### What is taken -/

/-- Either nothing was taken and the cursor is where it was, or it is behind the token that was. -/
theorem take?_eq_ok {kinds : List TokenKind} {taken : Option Token} (h : take? kinds cursor = .ok taken cursor') :
    taken = none ∧ cursor' = cursor ∨
      ∃ token, taken = some token ∧ cursor.Faces token ∧ token.kind ∈ kinds ∧ cursor' = cursor.skip 1 := by
  rw [take?] at h
  obtain ⟨ended, _, hend, h⟩ := bind_eq_ok_iff.1 h
  obtain ⟨rfl, hfaces⟩ := atEnd_eq_ok hend
  cases ended with
  | true => exact .inl (pure_eq_ok_iff.1 h)
  | false =>
      obtain ⟨token, hfaces⟩ := hfaces rfl
      rw [if_neg Bool.false_ne_true, bind_of_ok hfaces.current_eq] at h
      split at h
      case isFalse => exact .inl (pure_eq_ok_iff.1 h)
      case isTrue hkind =>
          rw [bind_of_ok hfaces.advance_eq] at h
          obtain ⟨rfl, rfl⟩ := pure_eq_ok_iff.1 h
          exact .inr ⟨token, rfl, hfaces, List.contains_iff_mem.1 hkind, rfl⟩

theorem faces_of_take? {kinds : List TokenKind} (h : take? kinds cursor = .ok (some token) cursor') :
    cursor.Faces token ∧ token.kind ∈ kinds ∧ cursor' = cursor.skip 1 := by
  rcases take?_eq_ok h with ⟨hnone, -⟩ | ⟨token', hsome, hfaces⟩
  · cases hnone
  · rwa [Option.some.inj hsome]

theorem eq_of_take?_eq_none {kinds : List TokenKind} (h : take? kinds cursor = .ok none cursor') :
    cursor' = cursor := by
  rcases take?_eq_ok h with ⟨-, hcursor⟩ | ⟨token, hsome, -⟩
  · exact hcursor
  · cases hsome

theorem refuse_ne_ok {kind : SyntaxError.Kind} {complaint : Complaint} {value : α} :
    refuse kind complaint cursor ≠ .ok value cursor' := by
  intro h
  obtain ⟨_, _, -, h⟩ := bind_eq_ok_iff.1 h
  exact throw_ne_ok h

theorem faces_of_expect {kind : TokenKind} {complaint : Option Complaint}
    (h : expect kind complaint cursor = .ok token cursor') :
    cursor.Faces token ∧ token.kind = kind ∧ cursor' = cursor.skip 1 := by
  rw [expect] at h
  obtain ⟨taken, _, htake, h⟩ := bind_eq_ok_iff.1 h
  cases taken with
  | some token' =>
      obtain ⟨rfl, rfl⟩ := pure_eq_ok_iff.1 h
      obtain ⟨hfaces, hkind, hcursor⟩ := faces_of_take? htake
      exact ⟨hfaces, List.mem_singleton.1 hkind, hcursor⟩
  | none =>
      obtain ⟨_, _, -, h⟩ := bind_eq_ok_iff.1 h
      exact absurd h refuse_ne_ok

/-- The delimiter that closes a tag is behind the tag's arguments, all of which can be passed. -/
theorem passes_of_closingIndex? {count : Nat} {close : Int} (hcount : count ≤ (cursor.bound - cursor.position).toNat)
    (h : closingIndex? cursor.tokens cursor.position count = .ok (some close)) :
    ∃ arguments closing behind, cursor.Passes arguments behind ∧ behind.Faces closing ∧ closing.kind = .blockEnd ∧
      Inner arguments ∧ close = behind.position := by
  induction count generalizing cursor with
  | zero => cases h
  | succ count ih =>
      have hbound : cursor.position < cursor.bound := by omega
      cases htoken : tokenAt? cursor.tokens cursor.position with
      | error fault =>
          rw [closingIndex?, htoken] at h
          cases h
      | ok token =>
          rw [closingIndex?_succ htoken] at h
          split at h
          case isTrue hkind =>
              obtain rfl := Option.some.inj (Except.ok.inj h)
              exact ⟨[], token, cursor, .nil _, ⟨hbound, htoken, by simp [hkind]⟩, hkind, by simp [Inner], rfl⟩
          case isFalse hend =>
              split at h
              case isTrue => cases h
              case isFalse hother =>
                  obtain ⟨hbegin, heof⟩ := not_or.1 hother
                  have hcount' : count ≤ ((cursor.skip 1).bound - (cursor.skip 1).position).toNat := by
                    simp only [skip]
                    omega
                  obtain ⟨arguments, closing, behind, hpasses, hfaces, hclosing, hinner, hclose⟩ := ih hcount' h
                  exact ⟨token :: arguments, closing, behind, .cons ⟨hbound, htoken, heof⟩ hpasses, hfaces, hclosing,
                    List.forall_mem_cons.2 ⟨⟨hend, hbegin⟩, hinner⟩, hclose⟩

theorem passes_of_closing? {close : Int} (h : closing? cursor = .ok (some close) cursor') :
    cursor' = cursor ∧ ∃ arguments closing behind, cursor.Passes arguments behind ∧ behind.Faces closing ∧
      closing.kind = .blockEnd ∧ Inner arguments ∧ close = behind.position := by
  rw [closing?, get_bind] at h
  cases hindex : closingIndex? cursor.tokens cursor.position
      (min cursor.bound cursor.tokens.size - cursor.position).toNat with
  | error fault =>
      rw [hindex] at h
      exact absurd h throw_ne_ok
  | ok index =>
      rw [hindex] at h
      obtain ⟨rfl, rfl⟩ := pure_eq_ok_iff.1 h
      exact ⟨rfl, passes_of_closingIndex? (by omega) hindex⟩

theorem carries_closing? : passage.Carries closing? := by
  intro cursor hcursor
  rw [closing?, get_bind]
  cases closingIndex? cursor.tokens cursor.position (min cursor.bound cursor.tokens.size - cursor.position).toNat with
  | error fault => exact carries_throw fault cursor hcursor
  | ok index => exact carries_pure index cursor hcursor

/-- What a cursor can be told to do. -/
inductive Operates : {α : Type} → Action α → Prop
  | current : Operates current
  | peek (offset : Int) : Operates (peek offset)
  | atEnd : Operates atEnd
  | advance : Operates advance
  | take (kinds : List TokenKind) : Operates (take? kinds)
  | takeName (names : List String) : Operates (takeName? names)
  | expect (kind : TokenKind) (complaint : Option Complaint) : Operates (expect kind complaint)
  | complain (kind : SyntaxError.Kind) (complaint : Complaint) : Operates (complain kind complaint)
  | skipUntil (names : List String) : Operates (skipUntil names)

theorem Operates.carries (h : Operates action) : passage.Carries action := by
  cases h with
  | current => exact carries_current
  | peek offset => exact carries_peek offset
  | atEnd => exact carries_atEnd
  | advance => exact carries_advance
  | take kinds => exact carries_take? kinds
  | takeName names => exact carries_takeName? names
  | expect kind complaint => exact carries_expect kind complaint
  | complain kind complaint => exact carries_complain kind complaint
  | skipUntil names => exact carries_skipUntil names

end Cursor

/-! ### Readers that drive the outer cursor -/

namespace Tag

variable {nested : Nested}

/-- Actions that move the outer cursor only by telling it what to do and by recognising nodes from it on. What they do
besides that, also with the cursor over the arguments and with cursors of their own, does not move it. They may fail,
and go on after a failure. -/
inductive Drives : {α : Type} → (Nested → Reading α) → Prop
  | own {α : Type} {action : Nested → Reading α} :
      (∀ nested scope, (stateOf (action nested scope)).outer = scope.outer) → Drives action
  | operation {α : Type} {action : Cursor.Action α} : Cursor.Operates action → Drives fun _ => outer action
  | nodes (extent : Extent) : Drives fun nested => outer (nested extent)
  | bind {α β : Type} {action : Nested → Reading α} {next : Nested → α → Reading β} :
      Drives action → (∀ value, Drives fun nested => next nested value) →
      Drives fun nested => action nested >>= next nested
  | tryCatch {α : Type} {action : Nested → Reading α} {handler : Nested → Fault → Reading α} :
      Drives action → (∀ fault, Drives fun nested => handler nested fault) →
      Drives fun nested => tryCatch (action nested) (handler nested)

/-- The outer cursor passes tokens. -/
def Scope.passage : Motion Scope where
  Sound _ := True
  Reaches scope scope' := Cursor.passage.Reaches scope.outer scope'.outer
  refl _ := Cursor.passage.refl _
  trans _ := Cursor.passage.trans trivial
  sound _ _ := trivial

theorem stateOf_outer {action : Cursor.Action α} (scope : Scope) :
    (stateOf (outer action scope)).outer = stateOf (action scope.outer) := by
  rw [outer]
  cases action scope.outer <;> rfl

theorem carries_outer {action : Cursor.Action α} (h : Cursor.passage.Carries action) :
    Scope.passage.Carries (outer action) := by
  intro scope _
  show Cursor.passage.Reaches scope.outer (stateOf (outer action scope)).outer
  rw [stateOf_outer]
  exact h scope.outer trivial

theorem Drives.carries {action : Nested → Reading α} (h : Drives action)
    (hnested : ∀ extent, Cursor.passage.Carries (nested extent)) : Scope.passage.Carries (action nested) := by
  induction h with
  | own houter =>
      intro scope _
      show Cursor.passage.Reaches _ _
      rw [houter]
      exact Cursor.passage.refl _
  | operation hoperates => exact carries_outer hoperates.carries
  | nodes extent => exact carries_outer (hnested extent)
  | bind _ _ ih ihnext => exact ih.bind ihnext
  | tryCatch _ _ ih ihhandler => exact ih.tryCatch ihhandler

theorem drives_pure (value : α) : Drives fun _ => (pure value : Reading α) := .own fun _ _ => rfl

theorem drives_throw (fault : Fault) : Drives fun _ => (throw fault : Reading α) := .own fun _ _ => rfl

theorem drives_arguments (action : Cursor.Action α) : Drives fun _ => arguments action := by
  refine .own fun _ scope => ?_
  rw [arguments]
  cases action scope.arguments <;> rfl

theorem drives_within (cursor : Cursor) (extent : Extent) : Drives fun nested => within cursor (nested extent) := by
  refine .own fun nested scope => ?_
  rw [within]
  cases nested extent cursor <;> rfl

theorem drives_optional {kind : TokenKind} {read : Token → Reading α} (h : ∀ token, Drives fun _ => read token)
    (default : α) : Drives fun _ => optional kind read default := by
  refine (drives_arguments _).bind fun token => ?_
  cases token with
  | some token => exact h token
  | none => exact drives_pure default

theorem drives_finish (complaint : Complaint) (value : α) : Drives fun _ => finish complaint value := by
  refine (drives_arguments _).bind fun ended => ?_
  cases ended with
  | true => exact drives_pure value
  | false => exact (drives_arguments _).bind fun _ => drives_pure value

theorem drives_readCount (token : Token) : Drives fun _ => readCount token := by
  unfold readCount
  cases Number.readInteger token.value with
  | ok count => exact drives_pure count
  | error error => exact drives_throw _

theorem drives_readMode (token : Token) : Drives fun _ => readMode token := by
  unfold readMode
  cases Lorem.Mode.ofLetter? token.value with
  | some mode => exact drives_pure mode
  | none => exact drives_throw _

theorem drives_lorem : Drives lorem := by
  have hlorem : lorem = fun nested => lorem nested := rfl
  simp only [lorem_eq] at hlorem
  rw [hlorem]
  refine (Drives.operation .current).bind fun location => ?_
  refine (drives_optional drives_readCount 1).bind fun count => ?_
  refine (drives_optional drives_readMode _).bind fun mode => ?_
  exact (drives_arguments _).bind fun random => drives_finish _ _

theorem drives_comment : Drives comment :=
  (Drives.operation .current).bind fun _ => (Drives.operation (.skipUntil _)).bind fun _ => drives_finish _ _

theorem drives_of_lookup_builtinReaders {disabled : List String} {name : String} {reader : Reader}
    (h : (builtinReaders disabled).lookup name = some reader) : Drives reader := by
  obtain ⟨-, ⟨-, rfl⟩ | ⟨-, rfl⟩⟩ := lookup_builtinReaders_eq_some_iff.1 h
  · exact drives_lorem
  · exact drives_comment

theorem drives_wrap : Drives wrap := by
  have hget : Drives fun _ => outer (get : Cursor.Action Cursor) := .own fun _ _ => rfl
  exact .bind (.operation .current) fun _ => .bind (drives_arguments _) fun _ =>
    .bind (.operation (.skipUntil _)) fun _ => .bind hget fun _ => .bind (drives_within _ _) fun _ => drives_pure _

end Tag

/-! ### Recognition -/

section Recognition

variable {registry : Registry Tag.Reader} {nested : Tag.Nested} {reader : Tag.Reader} {cursor behind reached : Cursor}
  {arguments : List Token} {name : String} {statement : Statement}

/-- A reader leaves the outer cursor at the delimiter that closes its tag or further on. -/
theorem reaches_of_readTag (hreader : Tag.Scope.passage.Carries (reader nested)) (h : cursor.Passes arguments behind)
    (hread : readTag reader nested name behind.position cursor = .ok statement reached) :
    Cursor.passage.Reaches behind reached := by
  obtain ⟨scope, hscope, rfl⟩ := readTag_eq_ok_iff.1 hread
  have hreaches : Cursor.passage.Reaches cursor _ :=
    hreader ⟨cursor, cursor.sub cursor.position behind.position⟩ trivial
  rw [hscope] at hreaches
  obtain ⟨passed, hpassed⟩ : Cursor.passage.Reaches cursor scope.outer := hreaches
  have hmax : { cursor with position := max scope.outer.position behind.position } =
      cursor.skip (max passed.length arguments.length) := by
    rw [hpassed.eq_skip, h.eq_skip]
    exact Cursor.skip_max
  rw [hmax]
  -- Either the reader has passed the delimiter, or recognition goes on from there itself.
  rcases h.compare hpassed with ⟨rest, rfl, hrest⟩ | ⟨rest, rfl, -⟩
  · rw [max_eq_left (by simp), ← hpassed.eq_skip]
    exact ⟨rest, hrest⟩
  · rw [max_eq_right (by simp), ← h.eq_skip]
    exact Cursor.passage.refl behind

theorem reaches_readTag (hreader : Tag.Scope.passage.Carries (reader nested)) (h : cursor.Passes arguments behind)
    (name : String) :
    Cursor.passage.Reaches cursor (stateOf (readTag reader nested name behind.position cursor)) := by
  cases hread : readTag reader nested name behind.position cursor with
  | ok statement reached => exact Cursor.passage.trans trivial ⟨arguments, h⟩ (reaches_of_readTag hreader h hread)
  | error fault reached =>
      have hreaches : Cursor.passage.Reaches cursor _ :=
        hreader ⟨cursor, cursor.sub cursor.position behind.position⟩ trivial
      rw [readTag] at hread
      split at hread
      case h_1 => cases hread
      all_goals
        rename_i hscope
        obtain ⟨-, rfl⟩ := EStateM.Result.error.inj hread
        rw [hscope] at hreaches
        exact Cursor.reaches_position hreaches

variable (hreaders : ∀ name reader, registry.lookup name = some reader → Tag.Scope.passage.Carries (reader nested))

include hreaders

theorem carries_recogniseBlock : Cursor.passage.Carries (recogniseBlock registry nested) := by
  refine (Cursor.carries_expect _ _).bind fun opening => ?_
  refine (Cursor.carries_take? _).bind fun name? => ?_
  cases name? with
  | none => exact Cursor.carries_refuse _ _
  | some name =>
      cases hreader : registry.lookup name.value with
      | none =>
          simp only [hreader]
          exact carries_throw _
      | some reader =>
          simp only [hreader]
          intro cursor hcursor
          refine reaches_bind hcursor (Cursor.carries_closing? cursor hcursor) fun close? cursor' hclose _ => ?_
          cases close? with
          | none => exact Cursor.passage.refl cursor'
          | some close =>
              obtain ⟨rfl, arguments, closing, behind, hpasses, -, -, -, rfl⟩ := Cursor.passes_of_closing? hclose
              have hread := reaches_readTag (hreaders _ _ hreader) hpasses name.value
              refine reaches_bind hcursor hread fun statement reached _ _ => ?_
              exact ((Cursor.carries_expect _ _).bind fun _ => carries_pure _) reached trivial

theorem carries_recogniseNext : Cursor.passage.Carries (recogniseNext registry nested) := by
  have hcomment : Cursor.passage.Carries skipShortComment :=
    (Cursor.carries_expect _ _).bind fun _ => (Cursor.carries_take? _).bind fun _ =>
      (Cursor.carries_expect _ _).bind fun _ => carries_pure _
  refine Cursor.carries_current.bind fun token => ?_
  cases token.kind with
  | data => exact Cursor.carries_advance.bind fun _ => carries_pure _
  | blockBegin => exact (carries_recogniseBlock hreaders).bind fun _ => carries_pure _
  | commentBegin => exact hcomment.bind fun _ => carries_pure _
  | _ => exact Cursor.carries_refuse _ _

theorem reaches_recogniseSteps (steps : Nat) (cursor : Cursor) :
    Cursor.passage.Reaches cursor (recogniseSteps registry nested steps cursor).cursor := by
  induction steps generalizing cursor with
  | zero => exact Cursor.passage.refl cursor
  | succ steps ih =>
      have hend := Cursor.carries_atEnd cursor trivial
      rw [recogniseSteps]
      cases hended : Cursor.atEnd cursor with
      | error fault cursor' =>
          rw [hended] at hend
          exact hend
      | ok ended cursor' =>
          obtain ⟨rfl, -⟩ := Cursor.atEnd_eq_ok hended
          have hmoved := carries_recogniseNext hreaders cursor' trivial
          cases ended with
          | true => exact Cursor.passage.refl cursor'
          | false =>
              dsimp only
              cases hnext : recogniseNext registry nested cursor' with
              | error fault cursor'' =>
                  rw [hnext] at hmoved
                  exact hmoved
              | ok node? cursor'' =>
                  rw [hnext] at hmoved
                  cases node? with
                  | none => exact Cursor.passage.trans trivial hmoved (ih cursor'')
                  | some node => exact Cursor.passage.trans trivial hmoved (ih cursor'')

theorem carries_recogniseExtent (extent : Tag.Extent) :
    Cursor.passage.Carries (recogniseExtent registry nested extent) := by
  cases extent with
  | region =>
      intro cursor _
      have hreaches := reaches_recogniseSteps hreaders cursor.room cursor
      show Cursor.passage.Reaches cursor (stateOf (recogniseWith registry nested cursor).toResult)
      rw [Recognition.toResult]
      cases (recogniseWith registry nested cursor).fault <;> exact hreaches
  | tag => exact (carries_recogniseBlock hreaders).bind fun _ => carries_pure _

omit hreaders in
/-- Recognition inside of tags passes tokens, however deep they lie in each other. -/
theorem carries_recogniseNested (hdrives : ∀ name reader, registry.lookup name = some reader → Tag.Drives reader)
    (depth : Nat) (extent : Tag.Extent) : Cursor.passage.Carries (recogniseNested registry depth extent) := by
  induction depth generalizing extent with
  | zero => exact carries_throw _
  | succ depth ih =>
      have hreaders := fun name reader hreader => (hdrives name reader hreader).carries ih
      exact carries_recogniseExtent hreaders extent

end Recognition

end TagTemplate
