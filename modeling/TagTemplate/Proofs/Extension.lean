import Mathlib
import TagTemplate.Proofs.Acceptance
import TagTemplate.Tag.Sample

/-!
# More tags

A registry that has every tag of another one, and perhaps others besides, recognises what the other recognises
and refuses what it refuses. The one exception is a name that only the larger registry knows. This holds for
all tags whose readers leave the registry alone, except that they may ask for nodes to be recognised.
-/

namespace TagTemplate

open Grammar

/-- Every name that has a meaning has the same one in another registry. -/
def Registry.Included {α : Type} (registry registry' : Registry α) : Prop :=
  ∀ name value, registry.lookup name = some value → registry'.lookup name = some value

namespace Tag

/-- Actions that use the registry only by asking for nodes, for any cursor that they have or make, and that let
the faults of recognition pass. What they do otherwise is their own affair. -/
inductive Asks : {σ α : Type} → (Nested → EStateM Fault σ α) → Prop
  | own {σ α : Type} (action : EStateM Fault σ α) : Asks fun _ => action
  | nodes (extent : Extent) : Asks fun nested => nested extent
  | outer {α : Type} {action : Nested → Cursor.Action α} :
      Asks action → Asks fun nested => outer (action nested)
  | arguments {α : Type} {action : Nested → Cursor.Action α} :
      Asks action → Asks fun nested => arguments (action nested)
  | within {α : Type} {action : Nested → Cursor.Action α} (cursor : Cursor) :
      Asks action → Asks fun nested => within cursor (action nested)
  | bind {σ α β : Type} {action : Nested → EStateM Fault σ α} {next : Nested → α → EStateM Fault σ β} :
      Asks action → (∀ value, Asks fun nested => next nested value) →
      Asks fun nested => action nested >>= next nested

theorem asks_of_lookup_builtinReaders {disabled : List String} (name : String) (reader : Reader)
    (h : (builtinReaders disabled).lookup name = some reader) : Asks reader := by
  obtain ⟨-, ⟨-, rfl⟩ | ⟨-, rfl⟩⟩ := lookup_builtinReaders_eq_some_iff.1 h
  · exact .own _
  · exact .own _

theorem asks_wrap : Asks wrap :=
  .bind (.own _) fun _ => .bind (.own _) fun _ => .bind (.own _) fun _ => .bind (.own _) fun _ =>
    .bind (.within _ (.nodes .region)) fun _ => .own _

end Tag

/-! ### Results that agree -/

/-- Two results are the same, unless the first is a fault of some sort. -/
def Agree {σ α : Type} (Stops : Fault → Prop) (result result' : EStateM.Result Fault σ α) : Prop :=
  result = result' ∨ ∃ fault state, result = .error fault state ∧ Stops fault

section Agreement

variable {σ α β : Type} {Stops : Fault → Prop}

theorem Agree.refl (result : EStateM.Result Fault σ α) : Agree Stops result result :=
  .inl rfl

theorem Agree.bind {action action' : EStateM Fault σ α} {next next' : α → EStateM Fault σ β} {state : σ}
    (h : Agree Stops (action state) (action' state))
    (hnext : ∀ value state', action state = .ok value state' →
      Agree Stops (next value state') (next' value state')) :
    Agree Stops ((action >>= next) state) ((action' >>= next') state) := by
  rcases h with heq | ⟨fault, state', herror, hstops⟩
  · cases haction : action state with
    | ok value state' =>
        rw [bind_of_ok haction, bind_of_ok (heq ▸ haction)]
        exact hnext value state' haction
    | error fault state' =>
        rw [bind_of_error haction, bind_of_error (heq ▸ haction)]
        exact .refl _
  · exact .inr ⟨fault, state', bind_of_error herror, hstops⟩

namespace Tag

variable {action action' : Cursor.Action α} {scope : Scope}

theorem agree_outer (h : Agree Stops (action scope.outer) (action' scope.outer)) :
    Agree Stops (outer action scope) (outer action' scope) := by
  rcases h with heq | ⟨fault, cursor, herror, hstops⟩
  · rw [outer, outer, heq]
    exact .refl _
  · exact .inr ⟨fault, _, by rw [outer, herror], hstops⟩

theorem agree_arguments (h : Agree Stops (action scope.arguments) (action' scope.arguments)) :
    Agree Stops (arguments action scope) (arguments action' scope) := by
  rcases h with heq | ⟨fault, cursor, herror, hstops⟩
  · rw [arguments, arguments, heq]
    exact .refl _
  · exact .inr ⟨fault, _, by rw [arguments, herror], hstops⟩

theorem agree_within {cursor : Cursor} (h : Agree Stops (action cursor) (action' cursor)) :
    Agree Stops (within cursor action scope) (within cursor action' scope) := by
  rcases h with heq | ⟨fault, cursor', herror, hstops⟩
  · rw [within, within, heq]
    exact .refl _
  · exact .inr ⟨fault, _, by rw [within, herror], hstops⟩

/-- An action that only asks for nodes does the same with two ways to recognise them that agree. -/
theorem Asks.agree {nested nested' : Nested} {action : Nested → EStateM Fault σ α} (h : Asks action)
    (hnested : ∀ extent cursor, Agree Stops (nested extent cursor) (nested' extent cursor)) (state : σ) :
    Agree Stops (action nested state) (action nested' state) := by
  induction h with
  | own => exact .refl _
  | nodes extent => exact hnested extent state
  | outer _ ih => exact agree_outer (ih _)
  | arguments _ ih => exact agree_arguments (ih _)
  | within cursor _ ih => exact agree_within (ih _)
  | bind _ _ ih ihnext => exact .bind (ih state) fun value state' _ => ihnext value state'

end Tag

end Agreement

/-! ### Runs that agree -/

/-- A recognition as an action of any cursor. -/
def Recognition.toAction (recognition : Recognition) : Cursor.Action (List Node) := fun _ =>
  recognition.toResult

theorem Recognition.toResult_cons (node : Node) (recognition : Recognition) (cursor : Cursor) :
    (recognition.cons node).toResult =
      (recognition.toAction >>= fun nodes => pure (node.joinTo nodes)) cursor := by
  rw [toResult, cons]
  cases hfault : recognition.fault with
  | none =>
      have hok : recognition.toAction cursor = .ok recognition.nodes recognition.cursor := by
        rw [toAction, toResult, hfault]
      rw [bind_of_ok hok]
      rfl
  | some fault =>
      have herror : recognition.toAction cursor = .error fault recognition.cursor := by
        rw [toAction, toResult, hfault]
      rw [bind_of_error herror]

theorem Recognition.outcome_eq (recognition : Recognition) :
    recognition.outcome =
      match recognition.toResult with
      | .ok nodes _ => .ok nodes
      | .error fault _ => .error fault := by
  rw [outcome, toResult]
  cases recognition.fault <;> rfl

theorem Recognition.outcome_cons (node : Node) (recognition : Recognition) :
    (recognition.cons node).outcome = recognition.outcome.map node.joinTo := by
  rw [outcome, outcome, cons]
  cases recognition.fault <;> rfl

section Runs

variable {registry registry' : Registry Tag.Reader} {nested nested' : Tag.Nested} {Stops : Fault → Prop}

theorem agree_readTag {reader : Tag.Reader} {cursor : Cursor}
    (hread : ∀ scope, Agree Stops (reader nested scope) (reader nested' scope)) (name : String) (close : Int) :
    Agree Stops (readTag reader nested name close cursor) (readTag reader nested' name close cursor) := by
  rw [readTag, readTag]
  rcases hread ⟨cursor, cursor.sub cursor.position close⟩ with heq | ⟨fault, scope, herror, hstops⟩
  · rw [heq]
    exact .refl _
  · exact .inr ⟨fault, _, by rw [herror], hstops⟩

/-- Two registries make the same of a tag if its reader does, unless its name is known to the second alone. -/
theorem agree_recogniseBlock (hincluded : registry.Included registry') {cursor : Cursor}
    (hread : ∀ name reader, registry.lookup name = some reader →
      ∀ scope, Agree Stops (reader nested scope) (reader nested' scope))
    (hstops : ∀ opening name cursor₁ cursor₂, Cursor.expect .blockBegin none cursor = .ok opening cursor₁ →
      Cursor.take? [.name] cursor₁ = .ok (some name) cursor₂ → registry.lookup name.value = none →
      registry'.lookup name.value ≠ none → Stops (.grammar .general (.unknownStatement name.value) name)) :
    Agree Stops (recogniseBlock registry nested cursor) (recogniseBlock registry' nested' cursor) := by
  rw [recogniseBlock, recogniseBlock]
  refine .bind (.refl _) fun opening cursor₁ hopening => .bind (.refl _) fun name cursor₂ hname => ?_
  cases name with
  | none => exact .refl _
  | some name =>
      cases hreader : registry.lookup name.value with
      | some reader =>
          simp only [hreader, hincluded name.value reader hreader]
          refine .bind (.refl _) fun close cursor₃ _ => ?_
          cases close with
          | none => exact .refl _
          | some close => exact .bind (agree_readTag (hread _ _ hreader) _ _) fun _ _ _ => .refl _
      | none =>
          cases hreader' : registry'.lookup name.value with
          | none =>
              simp only [hreader, hreader']
              exact .refl _
          | some reader' =>
              simp only [hreader]
              exact .inr ⟨_, _, rfl, hstops _ _ _ _ hopening hname hreader (by simp [hreader'])⟩

theorem agree_recogniseNext {cursor : Cursor}
    (hblock : ∀ token cursor', Cursor.current cursor = .ok token cursor' →
      Agree Stops (recogniseBlock registry nested cursor') (recogniseBlock registry' nested' cursor')) :
    Agree Stops (recogniseNext registry nested cursor) (recogniseNext registry' nested' cursor) := by
  rw [recogniseNext, recogniseNext]
  refine .bind (.refl _) fun token cursor' hcurrent => ?_
  cases token.kind with
  | blockBegin => exact .bind (hblock token cursor' hcurrent) fun _ _ _ => .refl _
  | _ => exact .refl _

/-- Runs agree if their steps do. -/
theorem agree_recogniseSteps
    (hnext : ∀ cursor, Agree Stops (recogniseNext registry nested cursor) (recogniseNext registry' nested' cursor))
    (steps : Nat) (cursor : Cursor) :
    Agree Stops (recogniseSteps registry nested steps cursor).toResult
      (recogniseSteps registry' nested' steps cursor).toResult := by
  induction steps generalizing cursor with
  | zero => exact .refl _
  | succ steps ih =>
      rw [recogniseSteps, recogniseSteps]
      cases Cursor.atEnd cursor with
      | error fault cursor' => exact .refl _
      | ok ended cursor₁ =>
          cases ended with
          | true => exact .refl _
          | false =>
              rcases hnext cursor₁ with heq | ⟨fault, cursor₂, herror, hstops⟩
              · simp only [heq]
                cases recogniseNext registry' nested' cursor₁ with
                | error fault cursor₂ => exact .refl _
                | ok node cursor₂ =>
                    cases node with
                    | none => exact ih cursor₂
                    | some node =>
                        simp only [Recognition.toResult_cons node _ cursor₂]
                        exact Agree.bind (ih cursor₂) fun _ _ _ => .refl _
              · simp only [herror]
                exact .inr ⟨fault, cursor₂, rfl, hstops⟩

end Runs

/-! ### A larger registry -/

section

variable {registry registry' : Registry Tag.Reader}

/-- A name that is unknown in one registry and known in another is to blame. -/
def Registry.Misses (registry registry' : Registry Tag.Reader) (fault : Fault) : Prop :=
  ∃ name : Token, fault = .grammar .general (.unknownStatement name.value) name ∧
    registry.lookup name.value = none ∧ registry'.lookup name.value ≠ none

variable (hincluded : registry.Included registry')
  (hasks : ∀ name reader, registry.lookup name = some reader → Tag.Asks reader)

include hincluded hasks

theorem agree_recogniseBlock_of_asks {nested nested' : Tag.Nested}
    (hnested : ∀ extent cursor, Agree (registry.Misses registry') (nested extent cursor) (nested' extent cursor))
    (cursor : Cursor) : Agree (registry.Misses registry') (recogniseBlock registry nested cursor)
      (recogniseBlock registry' nested' cursor) :=
  agree_recogniseBlock hincluded (fun name reader hreader => (hasks name reader hreader).agree hnested)
    fun _ name _ _ _ _ hnone hsome => ⟨name, rfl, hnone, hsome⟩

theorem agree_recogniseWith_of_asks {nested nested' : Tag.Nested}
    (hnested : ∀ extent cursor, Agree (registry.Misses registry') (nested extent cursor) (nested' extent cursor))
    (cursor : Cursor) : Agree (registry.Misses registry') (recogniseWith registry nested cursor).toResult
      (recogniseWith registry' nested' cursor).toResult :=
  agree_recogniseSteps
    (fun _ => agree_recogniseNext fun _ cursor' _ => agree_recogniseBlock_of_asks hincluded hasks hnested cursor')
    cursor.room cursor

theorem agree_recogniseNested (depth : Nat) (extent : Tag.Extent) (cursor : Cursor) :
    Agree (registry.Misses registry') (recogniseNested registry depth extent cursor)
      (recogniseNested registry' depth extent cursor) := by
  induction depth generalizing extent cursor with
  | zero => exact .refl _
  | succ depth ih =>
      cases extent with
      | region => exact agree_recogniseWith_of_asks hincluded hasks ih cursor
      | tag => exact .bind (agree_recogniseBlock_of_asks hincluded hasks ih cursor) fun _ _ _ => .refl _

/-- What the larger registry makes of a region is what the smaller one makes of it, or the smaller one stops at a
name that only the larger one knows. -/
theorem outcome_recogniseWithin_eq_or_misses (depth : Nat) (cursor : Cursor) :
    (cursor.recogniseWithin registry depth).outcome = (cursor.recogniseWithin registry' depth).outcome ∨
      ∃ fault, (cursor.recogniseWithin registry depth).outcome = .error fault ∧ registry.Misses registry' fault := by
  have hagree := agree_recogniseWith_of_asks hincluded hasks (agree_recogniseNested hincluded hasks depth) cursor
  rw [Recognition.outcome_eq, Recognition.outcome_eq, Cursor.recogniseWithin, Cursor.recogniseWithin]
  rcases hagree with heq | ⟨fault, cursor', herror, hmisses⟩
  · exact .inl (by rw [heq])
  · exact .inr ⟨fault, by rw [herror], hmisses⟩

end

/-! ### Disabled tags -/

section Disabled

variable {disabled disabled' : List String} {nested nested' : Tag.Nested} {cursor : Cursor}

/-- Behind constructs that derive without the disabled tags comes a tag that is one of them. -/
def FirstDisabled (disabled disabled' : List String) (tokens : List Token) (name : Token) : Prop :=
  ∃ before nodes opening after, tokens = before ++ opening :: name :: after ∧ Derives disabled' before nodes ∧
    opening.kind = .blockBegin ∧ name.kind = .name ∧ name.value ∈ ["lorem", "comment"] ∧
    name.value ∈ disabled' ∧ name.value ∉ disabled

theorem Tag.included_builtinReaders (h : disabled ⊆ disabled') :
    (builtinReaders disabled').Included (builtinReaders disabled) := by
  intro name reader hreader
  obtain ⟨henabled, hname⟩ := lookup_builtinReaders_eq_some_iff.1 hreader
  exact lookup_builtinReaders_eq_some_iff.2 ⟨fun hmem => henabled (h hmem), hname⟩

/-- A step with fewer tags is the same step, unless it stops at a disabled tag in front of the cursor. -/
theorem agree_recogniseNext_of_disabled (h : cursor.Placed) (hdisabled : disabled ⊆ disabled') :
    Agree (fun fault => ∃ name, FirstDisabled disabled disabled' cursor.ahead name ∧
        fault = .grammar .general (.unknownStatement name.value) name)
      (recogniseNext (Tag.builtinReaders disabled') nested cursor)
      (recogniseNext (Tag.builtinReaders disabled) nested' cursor) := by
  refine agree_recogniseNext fun token cursor' hcurrent => ?_
  obtain ⟨-, rfl⟩ := EStateM.Result.ok.inj ((Cursor.current_apply h).symm.trans hcurrent)
  refine agree_recogniseBlock (Tag.included_builtinReaders hdisabled) ?_ ?_
  · intro name reader hreader scope
    obtain ⟨-, ⟨-, rfl⟩ | ⟨-, rfl⟩⟩ := Tag.lookup_builtinReaders_eq_some_iff.1 hreader
    · exact .refl _
    · exact .refl _
  · intro opening name cursor₁ cursor₂ hopening hname hnone hsome
    obtain ⟨tokens, hahead, hkind, rfl⟩ := (Cursor.expect_eq_ok_iff h).1 hopening
    obtain ⟨after, hafter, hkind', -⟩ := (Cursor.take?_eq_some_iff (h.skip 1)).1 hname
    rw [Cursor.ahead_skip_one h hahead] at hafter
    obtain ⟨reader, hreader⟩ := Option.ne_none_iff_exists'.1 hsome
    obtain ⟨henabled, hname⟩ := Tag.lookup_builtinReaders_eq_some_iff.1 hreader
    refine ⟨name, ⟨[], [], opening, after, by rw [hahead, hafter]; rfl, .nil, hkind, hkind', ?_, ?_, henabled⟩, rfl⟩
    · rcases hname with ⟨hvalue, -⟩ | ⟨hvalue, -⟩ <;> simp [hvalue]
    · by_contra henabled'
      rw [Tag.lookup_builtinReaders_eq_some_iff.2 ⟨henabled', hname⟩] at hnone
      simp at hnone

theorem FirstDisabled.behind {tokens rest : List Token} {node : Option Node} {name : Token}
    (h : FirstDisabled disabled disabled' rest name) (hconstruct : Construct disabled' tokens node) :
    FirstDisabled disabled disabled' (tokens ++ rest) name := by
  obtain ⟨before, nodes, opening, after, rfl, hbefore, hname⟩ := h
  exact ⟨tokens ++ before, _, opening, after, (List.append_assoc _ _ _).symm,
    .cons hconstruct hbefore (joins_iff.2 rfl), hname⟩

/-- A run with fewer tags is the same run, unless it stops at the first tag that is disabled. -/
theorem outcome_recogniseSteps_eq_or_firstDisabled (h : cursor.Placed) (hdisabled : disabled ⊆ disabled')
    (steps : Nat) :
    (recogniseSteps (Tag.builtinReaders disabled') nested steps cursor).outcome =
        (recogniseSteps (Tag.builtinReaders disabled) nested' steps cursor).outcome ∨
      ∃ name, FirstDisabled disabled disabled' cursor.ahead name ∧
        (recogniseSteps (Tag.builtinReaders disabled') nested steps cursor).outcome =
          .error (.grammar .general (.unknownStatement name.value) name) := by
  induction steps generalizing cursor with
  | zero => exact .inl rfl
  | succ steps ih =>
      by_cases hnil : cursor.ahead = []
      · rw [recogniseSteps, recogniseSteps, Cursor.atEnd_apply h, hnil]
        exact .inl rfl
      have hend : Cursor.atEnd cursor = .ok false cursor := by
        rw [Cursor.atEnd_apply h, List.isEmpty_eq_false_iff.2 hnil]
      rw [recogniseSteps, recogniseSteps, hend]
      rcases @agree_recogniseNext_of_disabled _ _ nested nested' _ h hdisabled with
        heq | ⟨_, cursor', herror, name, hfirst, rfl⟩
      · simp only [← heq]
        cases hnext : recogniseNext (Tag.builtinReaders disabled') nested cursor with
        | error fault cursor' => exact .inl rfl
        | ok node cursor' =>
            obtain ⟨tokens, rest, hahead, hconstruct, rfl⟩ := exists_construct_of_recogniseNext h hnil hnext
            have hrest := Cursor.ahead_skip h hahead
            rcases ih (h.skip tokens.length) with hsame | ⟨name, hfirst, hfault⟩
            · left
              cases node with
              | none => exact hsame
              | some node => simp only [Recognition.outcome_cons, hsame]
            · refine .inr ⟨name, hahead ▸ (hrest ▸ hfirst).behind hconstruct, ?_⟩
              cases node with
              | none => exact hfault
              | some node =>
                  simp only [Recognition.outcome_cons, hfault]
                  rfl
      · simp only [herror]
        exact .inr ⟨name, hfirst, rfl⟩

end Disabled

/-- A registry with more tags recognises every list of tokens that one with fewer recognises, as the same nodes, and
refuses those that the other refuses for any reason but an unknown name, for the same reason. With the built-in
tags, disabling some makes no difference up to the first of them outside of comments, and there it is an unknown
name. All of that holds however deep readers may ask for regions and tags within each other, and so in particular of
`Cursor.recognise`. -/
theorem recognise_of_more_tags (tokens : List Token) (depth : Nat) :
    (∀ registry registry' : Registry Tag.Reader, registry.Included registry' →
      (∀ name reader, registry.lookup name = some reader → Tag.Asks reader) →
      (∀ nodes, ((Cursor.whole tokens.toArray).recogniseWithin registry depth).outcome = .ok nodes →
        ((Cursor.whole tokens.toArray).recogniseWithin registry' depth).outcome = .ok nodes) ∧
      ∀ fault, ((Cursor.whole tokens.toArray).recogniseWithin registry depth).outcome = .error fault →
        (∀ name token, fault ≠ .grammar .general (.unknownStatement name) token) →
        ((Cursor.whole tokens.toArray).recogniseWithin registry' depth).outcome = .error fault) ∧
    ∀ disabled disabled' : List String, disabled ⊆ disabled' →
      ((Cursor.whole tokens.toArray).recogniseWithin (Tag.builtinReaders disabled') depth).outcome =
          ((Cursor.whole tokens.toArray).recogniseWithin (Tag.builtinReaders disabled) depth).outcome ∨
        ∃ name, FirstDisabled disabled disabled' (tokens.takeWhile (·.kind != .eof)) name ∧
          ((Cursor.whole tokens.toArray).recogniseWithin (Tag.builtinReaders disabled') depth).outcome =
            .error (.grammar .general (.unknownStatement name.value) name) := by
  refine ⟨fun registry registry' hincluded hasks => ?_, fun disabled disabled' hdisabled => ?_⟩
  · rcases outcome_recogniseWithin_eq_or_misses hincluded hasks depth (Cursor.whole tokens.toArray) with
      heq | ⟨fault, herror, name, rfl, -⟩
    · rw [heq]
      exact ⟨fun _ hok => hok, fun _ herror _ => herror⟩
    · rw [herror]
      refine ⟨by simp, ?_⟩
      rintro _ ⟨⟩ hfault
      exact absurd rfl (hfault name.value name)
  · rw [← Cursor.ahead_whole]
    exact outcome_recogniseSteps_eq_or_firstDisabled (Cursor.placed_whole _) hdisabled _

/-- Hand-made tokens of the given kinds and values. -/
def Token.listOf (tokens : List (TokenKind × String)) : List Token :=
  tokens.map fun token => ⟨token.1, token.2, Location.start⟩

/-- A comment inside of another tag, with a meaning for the name that ends the comment, and a disabled tag behind a
comment in which it is used as well. -/
theorem recognise_of_more_tags_in_comments :
    (∃ tokens registry registry' nodes,
      tokens = Token.listOf [(.blockBegin, "<"), (.name, "wrap"), (.blockEnd, ">"), (.blockBegin, "<"),
        (.name, "comment"), (.blockEnd, ">"), (.name, "x"), (.blockBegin, "<"), (.name, "endcomment"),
        (.blockEnd, ">"), (.blockBegin, "<"), (.name, "endwrap"), (.blockEnd, ">")] ∧
      registry.Included registry' ∧ (∀ name reader, registry.lookup name = some reader → Tag.Asks reader) ∧
      registry.lookup "endcomment" = none ∧ registry'.lookup "endcomment" = some Tag.noop ∧
      ((Cursor.whole tokens.toArray).recognise registry).outcome = .ok nodes ∧
      ((Cursor.whole tokens.toArray).recognise registry').outcome = .ok nodes) ∧
    ∃ tokens name,
      tokens = Token.listOf [(.blockBegin, "<"), (.name, "comment"), (.blockEnd, ">"), (.blockBegin, "<"),
        (.name, "lorem"), (.blockEnd, ">"), (.blockBegin, "<"), (.name, "endcomment"), (.blockEnd, ">"),
        (.blockBegin, "<"), (.name, "lorem"), (.blockEnd, ">")] ∧
      [] ⊆ ["lorem"] ∧ FirstDisabled [] ["lorem"] (tokens.takeWhile (·.kind != .eof)) name ∧
      ((Cursor.whole tokens.toArray).recognise (Tag.builtinReaders ["lorem"])).outcome =
        .error (.grammar .general (.unknownStatement name.value) name) := by
  constructor
  · refine ⟨_, ⟨[("wrap", Tag.wrap), ("comment", Tag.comment)], by decide⟩,
      ⟨[("endcomment", Tag.noop), ("wrap", Tag.wrap), ("comment", Tag.comment)], by decide⟩,
      [.block ⟨.blockBegin, "<", Location.start⟩ "wrap" (.wrap ⟨.blockEnd, ">", Location.start⟩
        [.block ⟨.blockBegin, "<", Location.start⟩ "comment" (.comment ⟨.blockEnd, ">", Location.start⟩)])],
      rfl, ?included, ?asks, rfl, rfl, ?fewer,
      ((recognise_of_more_tags _ (Cursor.depth _)).1 _ _ ?included ?asks).1 _ ?fewer⟩
    · intro name reader hreader
      exact Registry.lookup_eq_some_iff.2 (List.mem_cons_of_mem _ (Registry.lookup_eq_some_iff.1 hreader))
    · intro name reader hreader
      have hmem := Registry.lookup_eq_some_iff.1 hreader
      simp only [List.mem_cons, Prod.mk.injEq, List.not_mem_nil, or_false] at hmem
      rcases hmem with ⟨-, rfl⟩ | ⟨-, rfl⟩
      · exact Tag.asks_wrap
      · exact .own _
    · cbv
  · have hfewer : ((Cursor.whole (Token.listOf [(.blockBegin, "<"), (.name, "comment"), (.blockEnd, ">"),
        (.blockBegin, "<"), (.name, "lorem"), (.blockEnd, ">"), (.blockBegin, "<"), (.name, "endcomment"),
        (.blockEnd, ">"), (.blockBegin, "<"), (.name, "lorem"), (.blockEnd, ">")]).toArray).recognise
          (Tag.builtinReaders ["lorem"])).outcome =
        .error (.grammar .general (.unknownStatement "lorem") ⟨.name, "lorem", Location.start⟩) := by
      cbv
    have hmore : ((Cursor.whole (Token.listOf [(.blockBegin, "<"), (.name, "comment"), (.blockEnd, ">"),
        (.blockBegin, "<"), (.name, "lorem"), (.blockEnd, ">"), (.blockBegin, "<"), (.name, "endcomment"),
        (.blockEnd, ">"), (.blockBegin, "<"), (.name, "lorem"), (.blockEnd, ">")]).toArray).recognise
          (Tag.builtinReaders [])).outcome =
        .ok [.block ⟨.blockBegin, "<", Location.start⟩ "comment" (.comment ⟨.blockEnd, ">", Location.start⟩),
          .block ⟨.blockBegin, "<", Location.start⟩ "lorem" (.lorem ⟨.blockEnd, ">", Location.start⟩ 1 "b" false)] := by
      cbv
    obtain ⟨name, hname⟩ := ((recognise_of_more_tags _ (Cursor.depth _)).2 [] ["lorem"] (by simp)).resolve_left (by
      rw [← Cursor.recognise_eq_recogniseWithin, ← Cursor.recognise_eq_recogniseWithin, hfewer, hmore]
      simp)
    exact ⟨_, name, rfl, by simp, hname⟩

end TagTemplate
