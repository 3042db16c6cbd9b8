import TagTemplate.Proofs.Refusal

/-!
# Lists of tokens that no text has

In a list of tokens that is put together by hand a tag may be left open, and what belongs into tags may stand
outside of them. What can be wrong with such a list is put down here. Either one of its tokens is to blame, or the
list ends within a construct, and then it is the token behind it. There is nothing else: every list of tokens derives
from the grammar up to the first thing that is wrong with it.
-/

namespace TagTemplate

open Cursor (Inner Marks)

namespace Grammar

/-- What can be wrong with the first construct of any list of tokens. -/
inductive Stray (disabled : List String) : List Token → Fault → Prop
  | flaw {inside rest : List Token} {token : Token} {fault : Fault} :
      Flaw disabled inside token rest fault → Stray disabled (inside ++ token :: rest) fault
  | token {token : Token} {rest : List Token} :
      token.kind ≠ .data → token.kind ≠ .blockBegin → token.kind ≠ .commentBegin →
      Stray disabled (token :: rest) (.grammar .general (.unexpectedToken token.kind) token)
  | shortComment {opening token : Token} {content : Option Token} {rest : List Token} :
      opening.kind = .commentBegin → (∀ body ∈ content, body.kind = .data) →
      (content = none → token.kind ≠ .data) → token.kind ≠ .commentEnd →
      Stray disabled (opening :: (content.toList ++ token :: rest))
        (.grammar .general .expectedEndOfComment token)
  | unclosed {opening name : Token} {rest : List Token} :
      opening.kind = .blockBegin → name.kind = .name → name.value ∉ disabled →
      name.value ∈ ["lorem", "comment"] → ¬Closed rest →
      Stray disabled (opening :: name :: rest) (.grammar .general (.tagNotClosed name.value) opening)

/-- Lists of tokens that end within their first construct, and what is said about that. -/
inductive Broken (disabled : List String) : List Token → Complaint → Prop
  | statementName {opening : Token} :
      opening.kind = .blockBegin → Broken disabled [opening] .expectedStatementName
  | shortComment {opening : Token} {content : Option Token} :
      opening.kind = .commentBegin → (∀ body ∈ content, body.kind = .data) →
      Broken disabled (opening :: content.toList) .expectedEndOfComment
  | commentEnd {opening name closing opening' name' : Token} {body : List Token} :
      "comment" ∉ disabled → opening.kind = .blockBegin → name.kind = .name → name.value = "comment" →
      closing.kind = .blockEnd → (body.IsChain fun token next => ¬Marks ["endcomment"] token next) →
      Marks ["endcomment"] opening' name' →
      Broken disabled (opening :: name :: closing :: (body ++ [opening', name'])) (.expectedEndOfTag "comment")

variable {disabled : List String} {tokens : List Token} {fault : Fault} {complaint : Complaint}

theorem Stray.ne_nil (h : Stray disabled tokens fault) : tokens ≠ [] := by
  cases h <;> simp

theorem Broken.ne_nil (h : Broken disabled tokens complaint) : tokens ≠ [] := by
  cases h <;> simp

/-! ### Every list of tokens derives up to what is wrong with it -/

/-- The tokens start with a construct, or something is wrong with their first construct. -/
def Judged (disabled : List String) (tokens : List Token) : Prop :=
  (∃ construct rest node, tokens = construct ++ rest ∧ Construct disabled construct node) ∨
    (∃ fault, Stray disabled tokens fault) ∨ ∃ complaint, Broken disabled tokens complaint

theorem judged_shortComment {opening : Token} (hopening : opening.kind = .commentBegin) (tokens : List Token) :
    Judged disabled (opening :: tokens) := by
  -- The content is the text at the front, if there is any.
  obtain ⟨content, tokens', rfl, hcontent, hnone⟩ : ∃ (content : Option Token) (tokens' : List Token),
      tokens = content.toList ++ tokens' ∧ (∀ body ∈ content, body.kind = .data) ∧
        (content = none → ∀ token, tokens'.head? = some token → token.kind ≠ .data) := by
    rcases tokens with _ | ⟨body, tokens⟩
    · exact ⟨none, [], rfl, by simp, by simp⟩
    by_cases hbody : body.kind = .data
    · exact ⟨some body, tokens, rfl, by simpa using hbody, by simp⟩
    · exact ⟨none, body :: tokens, rfl, by simp, by simpa using hbody⟩
  rcases tokens' with _ | ⟨closing, rest⟩
  · rw [List.append_nil]
    exact .inr (.inr ⟨_, .shortComment hopening hcontent⟩)
  by_cases hclosing : closing.kind = .commentEnd
  · exact .inl ⟨opening :: (content.toList ++ [closing]), rest, none, by simp,
      .shortComment hopening hcontent hclosing⟩
  · exact .inr (.inl ⟨_, .shortComment hopening hcontent (hnone · closing rfl) hclosing⟩)

theorem judged_tag {opening : Token} (hopening : opening.kind = .blockBegin) (tokens : List Token) :
    Judged disabled (opening :: tokens) := by
  have hflaw : ∀ {inside token rest fault}, opening :: tokens = inside ++ token :: rest →
      Flaw disabled inside token rest fault → Judged disabled (opening :: tokens) :=
    fun heq hflaw => .inr (.inl ⟨_, heq ▸ Stray.flaw hflaw⟩)
  rcases tokens with _ | ⟨name, tokens⟩
  · exact .inr (.inr ⟨_, .statementName hopening⟩)
  by_cases hname : name.kind = .name
  swap
  · exact @hflaw [opening] name tokens _ rfl (.statementName hopening hname)
  by_cases hknown : name.value ∈ disabled ∨ name.value ∉ ["lorem", "comment"]
  · exact @hflaw [opening] name tokens _ rfl (.unknown hopening hname hknown)
  obtain ⟨henabled, hvalue⟩ := not_or.1 hknown
  by_cases hclosed : Closed tokens
  swap
  · exact .inr (.inl ⟨_, .unclosed hopening hname henabled (not_not.1 hvalue) hclosed⟩)
  obtain ⟨arguments, closing, rest, rfl, hclosing, harguments⟩ := hclosed
  have hinner : Inner (name :: arguments) := List.forall_mem_cons.2 ⟨by simp [hname], harguments⟩
  rcases tag_or_flaw disabled hopening hinner hclosing rest with
    ⟨node, hconstruct⟩ | ⟨name', harguments', henabled', hname', hvalue', hmarked⟩ |
    ⟨inside, token, rest', fault, heq, htoken⟩
  · exact .inl ⟨_, rest, _, by simp, hconstruct⟩
  · -- A block comment, which ends in the middle of the tag that should end it, or goes on there, or ends.
    obtain ⟨rfl, rfl⟩ := List.cons.inj harguments'
    obtain ⟨body, opening', name', rest', rfl, hmarks, hbody⟩ := Cursor.exists_of_not_isChain hmarked
    rcases rest' with _ | ⟨closing', rest'⟩
    · exact .inr (.inr ⟨_, .commentEnd henabled' hopening hname hvalue' hclosing hbody hmarks⟩)
    by_cases hclosing' : closing'.kind = .blockEnd
    · exact .inl ⟨_, rest', _, by simp, .comment henabled' hopening hname hvalue' hclosing hbody hmarks.1
        hmarks.2.1 (List.mem_singleton.1 hmarks.2.2) hclosing'⟩
    · have hend : Flaw disabled _ closing' rest' _ :=
        .commentEnd henabled' hopening hname hvalue' hclosing hbody hmarks hclosing'
      exact hflaw (by simp) hend
  · exact hflaw heq htoken

theorem judged_cons (token : Token) (tokens : List Token) : Judged disabled (token :: tokens) := by
  by_cases hdata : token.kind = .data
  · exact .inl ⟨[token], tokens, _, rfl, .data hdata⟩
  by_cases hblock : token.kind = .blockBegin
  · exact judged_tag hblock tokens
  by_cases hcomment : token.kind = .commentBegin
  · exact judged_shortComment hcomment tokens
  · exact .inr (.inl ⟨_, .token hdata hblock hcomment⟩)

/-- Any list of tokens derives from the grammar up to some place, and that is its end, or something is wrong with
the construct that starts there, or the list ends within it. -/
theorem derives_or_stray_or_broken (disabled : List String) (tokens : List Token) :
    ∃ before rest nodes, tokens = before ++ rest ∧ Derives disabled before nodes ∧
      (rest = [] ∨ (∃ fault, Stray disabled rest fault) ∨ ∃ complaint, Broken disabled rest complaint) := by
  induction hlength : tokens.length using Nat.strong_induction_on generalizing tokens with
  | _ length ih =>
    rcases tokens with _ | ⟨token, tokens⟩
    · exact ⟨[], [], [], rfl, .nil, .inl rfl⟩
    have hjudged : Judged disabled (token :: tokens) := judged_cons token tokens
    rcases hjudged with ⟨construct, rest, node, heq, hconstruct⟩ | hwrong
    · obtain ⟨first, construct', rfl⟩ := hconstruct.exists_cons
      have hshorter : rest.length < length := by
        rw [← hlength, heq, List.length_append, List.length_cons]
        omega
      obtain ⟨before, rest', nodes, rfl, hbefore, hrest'⟩ := ih _ hshorter rest rfl
      exact ⟨_, rest', _, by rw [heq, List.append_assoc], .cons hconstruct hbefore (joins_iff.2 rfl), hrest'⟩
    · exact ⟨[], token :: tokens, [], rfl, .nil, .inr hwrong⟩

end Grammar

open Grammar

/-! ### Recognition of such lists -/

variable {disabled : List String} {nested : Tag.Nested} {cursor : Cursor} {fault : Fault} {complaint : Complaint}

namespace Cursor

/-- The token at which taking ends: an end of the text, or what stands at the bound. -/
def final (cursor : Cursor) : Token :=
  (cursor.skip cursor.ahead.length).here

theorem ahead_skip_length (h : cursor.Placed) : (cursor.skip cursor.ahead.length).ahead = [] :=
  ahead_skip h (List.append_nil _).symm

theorem final_skip (h : cursor.Placed) {before rest : List Token} (hahead : cursor.ahead = before ++ rest) :
    (cursor.skip before.length).final = cursor.final := by
  rw [final, final, ahead_skip h hahead, hahead, skip_skip, List.length_append]

/-- What is expected at the end is not there. -/
theorem expect_skip_length (h : cursor.Placed) (kind : TokenKind) (complaint : Complaint) :
    expect kind (some complaint) (cursor.skip cursor.ahead.length) =
      .error (.grammar .general complaint cursor.final) (cursor.skip cursor.ahead.length) := by
  have htake : take? [kind] (cursor.skip cursor.ahead.length) = .ok none (cursor.skip cursor.ahead.length) :=
    (take?_eq_none_iff (h.skip _)).2 ⟨rfl, by simp [ahead_skip_length h]⟩
  exact expect_of_none (h.skip _) htake

/-- A tag that other tags or the end cut off has no end. -/
theorem closing?_of_not_closed (h : cursor.Placed) (hclosed : ¬Closed cursor.ahead) :
    closing? cursor = .ok none cursor := by
  have hnone : closingLength? cursor.ahead = none := by
    rw [Option.eq_none_iff_forall_ne_some]
    intro length hlength
    obtain ⟨arguments, closing, rest, hahead, -, hclosing, hinner⟩ := closingLength?_eq_some_iff.1 hlength
    exact hclosed ⟨arguments, closing, rest, hahead, hclosing, hinner⟩
  rw [closing?_apply h, hnone]
  rfl

end Cursor

/-- A short comment is read up to the token behind its content. -/
theorem skipShortComment_of_content (h : cursor.Placed) {opening : Token} {content : Option Token}
    {rest : List Token} (hahead : cursor.ahead = opening :: (content.toList ++ rest))
    (hopening : opening.kind = .commentBegin) (hcontent : ∀ body ∈ content, body.kind = .data)
    (hnone : content = none → ∀ token, rest.head? = some token → token.kind ≠ .data) :
    skipShortComment cursor =
      (Cursor.expect .commentEnd (some .expectedEndOfComment) >>= fun _ => pure ())
        (cursor.skip (opening :: content.toList).length) := by
  have hopened : Cursor.expect .commentBegin none cursor = .ok opening (cursor.skip 1) :=
    (Cursor.expect_eq_ok_iff h).2 ⟨_, hahead, hopening, rfl⟩
  have hahead₁ := Cursor.ahead_skip_one h hahead
  have htake : Cursor.take? [.data] (cursor.skip 1) =
      .ok content (cursor.skip (opening :: content.toList).length) := by
    cases content with
    | none => exact (Cursor.take?_eq_none_iff (h.skip 1)).2 ⟨rfl, by rw [hahead₁]; exact hnone rfl⟩
    | some body => exact (Cursor.take?_eq_some_iff (h.skip 1)).2 ⟨rest, hahead₁, hcontent body rfl, by simp⟩
  rw [skipShortComment, bind_of_ok hopened, bind_of_ok htake]

theorem recogniseNext_of_commentBegin (h : cursor.Placed) {opening : Token} {tokens : List Token} {cursor' : Cursor}
    (hahead : cursor.ahead = opening :: tokens) (hopening : opening.kind = .commentBegin)
    (hcomment : skipShortComment cursor = .error fault cursor') :
    recogniseNext (Tag.builtinReaders disabled) nested cursor = .error fault cursor' := by
  rw [recogniseNext, bind_of_ok (Cursor.current_apply h), Cursor.here_of_ahead h hahead]
  simp only [hopening]
  exact bind_of_error hcomment

theorem recogniseNext_of_stray (h : cursor.Placed) (hstray : Stray disabled cursor.ahead fault) :
    ∃ cursor', recogniseNext (Tag.builtinReaders disabled) nested cursor = .error fault cursor' := by
  generalize hahead : cursor.ahead = tokens at hstray
  cases hstray with
  | flaw hflaw => exact recogniseNext_of_flaw h hahead hflaw
  | @token token rest hdata hblock hcomment =>
      refine ⟨cursor, ?_⟩
      rw [recogniseNext, bind_of_ok (Cursor.current_apply h), Cursor.here_of_ahead h hahead]
      cases hkind : token.kind with
      | data => exact absurd hkind hdata
      | blockBegin => exact absurd hkind hblock
      | commentBegin => exact absurd hkind hcomment
      | _ => simp only [Cursor.refuse_apply h, Cursor.here_of_ahead h hahead]
  | @shortComment opening token content rest hopening hcontent hnone hend =>
      have hrest : (cursor.skip (opening :: content.toList).length).ahead = token :: rest :=
        Cursor.ahead_skip h (by rw [hahead, List.cons_append])
      have htake : Cursor.take? [.commentEnd] (cursor.skip (opening :: content.toList).length) =
          .ok none (cursor.skip (opening :: content.toList).length) :=
        (Cursor.take?_eq_none_iff (h.skip _)).2 ⟨rfl, by rw [hrest]; simpa using hend⟩
      have hcomment : skipShortComment cursor = _ :=
        skipShortComment_of_content h hahead hopening hcontent (by simpa using hnone)
      rw [bind_of_error (Cursor.expect_of_none (h.skip _) htake), Cursor.here_of_ahead (h.skip _) hrest] at hcomment
      exact ⟨_, recogniseNext_of_commentBegin h hahead hopening hcomment⟩
  | @unclosed opening name rest hopening hname henabled hvalue hclosed =>
      have hahead₂ : (cursor.skip 2).ahead = rest := Cursor.ahead_skip h (show _ = [opening, name] ++ _ from hahead)
      obtain ⟨reader, hreader⟩ : ∃ reader, (Tag.builtinReaders disabled).lookup name.value = some reader := by
        simp only [List.mem_cons, List.not_mem_nil, or_false] at hvalue
        rcases hvalue with hvalue | hvalue
        · exact ⟨_, Tag.lookup_builtinReaders_eq_some_iff.2 ⟨henabled, .inl ⟨hvalue, rfl⟩⟩⟩
        · exact ⟨_, Tag.lookup_builtinReaders_eq_some_iff.2 ⟨henabled, .inr ⟨hvalue, rfl⟩⟩⟩
      refine ⟨cursor.skip 2, recogniseNext_of_blockBegin h hahead hopening ?_⟩
      rw [recogniseBlock_of_name h hahead hopening hname]
      simp only [hreader, bind_of_ok (Cursor.closing?_of_not_closed (h.skip 2) (hahead₂ ▸ hclosed))]
      rfl

/-- The token behind tokens that end within a construct is to blame, and the cursor stops there. -/
theorem recogniseNext_of_broken (h : cursor.Placed) (hbroken : Broken disabled cursor.ahead complaint) :
    recogniseNext (Tag.builtinReaders disabled) nested cursor =
      .error (.grammar .general complaint cursor.final) (cursor.skip cursor.ahead.length) := by
  have hend := fun kind => Cursor.expect_skip_length h kind complaint
  generalize hahead : cursor.ahead = tokens at hbroken hend
  cases hbroken with
  | @statementName opening hopening =>
      apply recogniseNext_of_blockBegin h hahead hopening
      rw [recogniseBlock_of_unnamed h hahead hopening (by simp), Cursor.final, hahead]
      rfl
  | @shortComment opening content hopening hcontent =>
      have hahead' : cursor.ahead = opening :: (content.toList ++ []) := by rw [hahead, List.append_nil]
      have hcomment := skipShortComment_of_content h hahead' hopening hcontent (by simp)
      rw [bind_of_error (hend .commentEnd)] at hcomment
      exact recogniseNext_of_commentBegin h hahead hopening hcomment
  | @commentEnd opening name closing opening' name' body henabled hopening hname hvalue hclosing hbody hmarks =>
      have hlength : (opening :: name :: closing :: (body ++ [opening', name'])).length = body.length + 5 := by simp
      rw [hlength] at hend ⊢
      apply recogniseNext_of_blockBegin h hahead hopening
      rw [recogniseBlock_of_marked h hahead henabled hopening hname hvalue hclosing hbody hmarks,
        bind_of_error (hend .blockEnd)]

/-! ### Whole runs -/

theorem Cursor.outcome_recognise_of_stray (h : cursor.Placed) {before rest : List Token} {nodes : List Node}
    (hahead : cursor.ahead = before ++ rest) (hbefore : Derives disabled before nodes)
    (hstray : Stray disabled rest fault) :
    (cursor.recognise (Tag.builtinReaders disabled)).outcome = .error fault := by
  rw [← ahead_skip h hahead] at hstray
  obtain ⟨cursor', hnext⟩ := @recogniseNext_of_stray _ (recogniseNested (Tag.builtinReaders disabled) cursor.depth)
    _ _ (h.skip before.length) hstray
  rw [recognise, Recognition.outcome, recogniseWith, (recogniseSteps_of_derives_append h length_ahead_le_room hahead
    hbefore (ahead_skip h hahead ▸ hstray.ne_nil) hnext).1]

theorem Cursor.recognise_of_broken (h : cursor.Placed) {before rest : List Token} {nodes : List Node}
    (hahead : cursor.ahead = before ++ rest) (hbefore : Derives disabled before nodes)
    (hbroken : Broken disabled rest complaint) :
    (cursor.recognise (Tag.builtinReaders disabled)).outcome = .error (.grammar .general complaint cursor.final) ∧
      (cursor.recognise (Tag.builtinReaders disabled)).cursor = cursor.skip cursor.ahead.length := by
  have hrest := ahead_skip h hahead
  have hnext := @recogniseNext_of_broken _ (recogniseNested (Tag.builtinReaders disabled) cursor.depth) _ _
    (h.skip before.length) (hrest ▸ hbroken)
  rw [final_skip h hahead, hrest, skip_skip, ← List.length_append, ← hahead] at hnext
  obtain ⟨hfault, hcursor⟩ :=
    recogniseSteps_of_derives_append h length_ahead_le_room hahead hbefore hbroken.ne_nil hnext
  exact ⟨by rw [recognise, Recognition.outcome, recogniseWith, hfault], hcursor⟩

end TagTemplate
