import TagTemplate.Proofs.Flaw

/-!
# What recognition refuses

Recognition stops at the first flaw of a list of tokens, and fails as the flaw says. Together with the
derivations this settles what becomes of the tokens of any text.
-/

namespace TagTemplate

open Cursor (Inner Marks)
open Grammar

/-! ### Readers that fail -/

namespace Tag

variable {α : Type} {action : Cursor.Action α} {out args cursor : Cursor} {fault : Fault} {token : Token}
  {rest : List Token} {complaint : Complaint}

theorem outer_of_error (h : action out = .error fault cursor) :
    outer action ⟨out, args⟩ = .error fault ⟨cursor, args⟩ := by
  rw [outer, h]

theorem arguments_of_error (h : action args = .error fault cursor) :
    arguments action ⟨out, args⟩ = .error fault ⟨out, cursor⟩ := by
  rw [arguments, h]

theorem finish_of_cons (h : args.Placed) (hahead : args.ahead = token :: rest) (value : α) :
    finish complaint value ⟨out, args⟩ =
      .error (.grammar .malformedArguments complaint token) ⟨out, args⟩ := by
  rw [finish, bind_of_ok (arguments_of_ok (Cursor.atEnd_apply h)), hahead, List.isEmpty_cons,
    if_neg (by simp), ← Cursor.here_of_ahead h hahead]
  exact bind_of_error (arguments_of_error (Cursor.refuse_apply h _ _))

theorem optional_of_cons (out : Cursor) (h : args.Placed) (hahead : args.ahead = token :: rest) {kind : TokenKind}
    (hkind : token.kind = kind) (read : Token → Reading α) (default : α) :
    optional kind read default ⟨out, args⟩ = read token ⟨out, args.skip 1⟩ := by
  have htake : Cursor.take? [kind] args = .ok (some token) (args.skip 1) :=
    (Cursor.take?_eq_some_iff h).2 ⟨rest, hahead, hkind, rfl⟩
  rw [optional, bind_of_ok (arguments_of_ok htake)]

theorem optional_of_kind_ne (out : Cursor) (h : args.Placed) {kind : TokenKind}
    (hkind : ∀ token, args.ahead.head? = some token → token.kind ≠ kind) (read : Token → Reading α)
    (default : α) : optional kind read default ⟨out, args⟩ = .ok default ⟨out, args⟩ := by
  have htake : Cursor.take? [kind] args = .ok none args := (Cursor.take?_eq_none_iff h).2 ⟨rfl, hkind⟩
  rw [optional, bind_of_ok (arguments_of_ok htake)]
  rfl

theorem readMode_of_mem (hvalue : token.value ∈ ["w", "p", "b"]) (scope : Scope) :
    ∃ mode, readMode token scope = .ok mode scope := by
  obtain ⟨mode, hmode⟩ := Lorem.Mode.exists_letter_iff.2 hvalue
  exact ⟨mode, (readMode_eq_ok_iff token mode scope scope).2 ⟨hmode, rfl⟩⟩

theorem readMode_of_not_mem (hvalue : token.value ∉ ["w", "p", "b"]) (scope : Scope) :
    readMode token scope = .error (.grammar .malformedArguments .loremMethod token) scope := by
  have hnone : Lorem.Mode.ofLetter? token.value = none := by
    rw [Option.eq_none_iff_forall_ne_some]
    intro mode hmode
    exact hvalue (Lorem.Mode.exists_letter_iff.1 ⟨mode, Lorem.Mode.ofLetter?_eq_some_iff.1 hmode⟩)
  rw [readMode, hnone]
  rfl

theorem choose_of_misplaced (h : args.Placed) {front : List Token}
    (hahead : args.ahead = front ++ token :: rest) (hmisplaced : Misplaced front token complaint)
    (make : String → Bool → α) :
    ∃ scope, choose .loremArguments make ⟨out, args⟩ =
      .error (.grammar .malformedArguments complaint token) scope := by
  rw [choose]
  cases hmisplaced with
  | mode hkind hvalue =>
      have hmode := optional_of_cons out h hahead hkind readMode .plainParagraphs
      rw [readMode_of_not_mem hvalue] at hmode
      exact ⟨_, bind_of_error hmode⟩
  | argument hkind =>
      have hhead : ∀ token', args.ahead.head? = some token' → token'.kind ≠ .name := by
        simpa [hahead] using hkind
      have hmode := optional_of_kind_ne out h hhead readMode .plainParagraphs
      have hword : Cursor.takeName? ["random"] args = .ok none args :=
        (Cursor.takeName?_eq_none_iff h).2 ⟨rfl, by simp [hahead, hkind]⟩
      rw [bind_of_ok hmode, bind_of_ok (arguments_of_ok hword)]
      exact ⟨_, finish_of_cons h hahead _⟩
  | @word letter token hkind hvalue hword =>
      have hrest := Cursor.ahead_skip_one h hahead
      obtain ⟨mode, hmode⟩ := readMode_of_mem hvalue ⟨out, args.skip 1⟩
      rw [← optional_of_cons out h hahead hkind readMode .plainParagraphs] at hmode
      have hword : Cursor.takeName? ["random"] (args.skip 1) = .ok none (args.skip 1) :=
        (Cursor.takeName?_eq_none_iff (h.skip 1)).2 ⟨rfl, by simpa [hrest] using hword⟩
      rw [bind_of_ok hmode, bind_of_ok (arguments_of_ok hword)]
      exact ⟨_, finish_of_cons (h.skip 1) hrest _⟩
  | @extra letter word token hkind hvalue hkind' hvalue' =>
      have hrest := Cursor.ahead_skip_one h hahead
      have hrest' := Cursor.ahead_skip_one (h.skip 1) hrest
      obtain ⟨mode, hmode⟩ := readMode_of_mem hvalue ⟨out, args.skip 1⟩
      rw [← optional_of_cons out h hahead hkind readMode .plainParagraphs] at hmode
      have hword : Cursor.takeName? ["random"] (args.skip 1) = .ok (some word) ((args.skip 1).skip 1) :=
        (Cursor.takeName?_eq_some_iff (h.skip 1)).2 ⟨_, hrest, ⟨hkind', by simp [hvalue']⟩, rfl⟩
      rw [bind_of_ok hmode, bind_of_ok (arguments_of_ok hword)]
      exact ⟨_, finish_of_cons ((h.skip 1).skip 1) hrest' _⟩

variable {nested : Tag.Nested}

theorem lorem_of_count (hout : out.Placed) (h : args.Placed) {error : IntegerError}
    (hahead : args.ahead = token :: rest) (hkind : token.kind = .integer)
    (hread : Number.readInteger token.value = .error error) :
    ∃ scope, lorem nested ⟨out, args⟩ = .error (.defect (.integer error)) scope := by
  have hcount := optional_of_cons out h hahead hkind readCount 1
  rw [readCount, hread] at hcount
  rw [lorem_eq, bind_of_ok (outer_of_ok (Cursor.current_apply hout))]
  exact ⟨_, bind_of_error hcount⟩

theorem lorem_of_misplaced (hout : out.Placed) (h : args.Placed) {count : Option Token}
    {front : List Token} (hahead : args.ahead = count.toList ++ front ++ token :: rest)
    (hcount : ∀ number ∈ count, number.kind = .integer ∧ ∃ n, Number.readInteger number.value = .ok n)
    (htoken : count.toList ++ front = [] → token.kind ≠ .integer)
    (hmisplaced : Misplaced front token complaint) :
    ∃ scope, lorem nested ⟨out, args⟩ = .error (.grammar .malformedArguments complaint token) scope := by
  rw [lorem_eq, bind_of_ok (outer_of_ok (Cursor.current_apply hout))]
  cases count with
  | none =>
      have hhead : ∀ token', args.ahead.head? = some token' → token'.kind ≠ .integer := by
        intro token' hhead
        cases hmisplaced with
        | mode | argument =>
            rw [hahead] at hhead
            exact Option.some.inj hhead ▸ htoken rfl
        | word hkind | extra hkind =>
            rw [hahead] at hhead
            simp [← Option.some.inj hhead, hkind]
      rw [bind_of_ok (optional_of_kind_ne out h hhead readCount 1)]
      exact choose_of_misplaced h hahead hmisplaced _
  | some number =>
      obtain ⟨hkind, n, hread⟩ := hcount number rfl
      have hnumber := optional_of_cons out h hahead hkind readCount 1
      rw [(readCount_eq_ok_iff number n _ _).2 ⟨hread, rfl⟩] at hnumber
      rw [bind_of_ok hnumber]
      exact choose_of_misplaced (h.skip 1) (Cursor.ahead_skip_one h hahead) hmisplaced _

theorem comment_of_isChain (hout : out.Placed)
    (hchain : out.ahead.IsChain fun token next => ¬Marks ["endcomment"] token next) :
    ∃ scope, comment nested ⟨out, args⟩ =
      .error (.grammar .unterminatedBlock (.unexpectedEnd ["endcomment"]) out.here) scope := by
  obtain ⟨cursor, hskip⟩ := Cursor.skipUntil_of_isChain hout hchain
  rw [comment_eq, bind_of_ok (outer_of_ok (Cursor.current_apply hout))]
  exact ⟨_, bind_of_error (outer_of_error hskip)⟩

theorem comment_of_cons (hout : out.Placed) (h : args.Placed) (hahead : args.ahead = token :: rest)
    (hchain : ¬(out.ahead.IsChain fun token next => ¬Marks ["endcomment"] token next)) :
    ∃ scope, comment nested ⟨out, args⟩ =
      .error (.grammar .malformedArguments .commentArguments token) scope := by
  obtain ⟨body, opening, name, rest', hahead', hmarks, hbody⟩ := Cursor.exists_of_not_isChain hchain
  have hskip := (Cursor.skipUntil_eq_ok_iff hout).2 ⟨body, opening, name, rest', hahead', rfl, hmarks, hbody⟩
  rw [comment_eq, bind_of_ok (outer_of_ok (Cursor.current_apply hout)), bind_of_ok (outer_of_ok hskip)]
  exact ⟨_, finish_of_cons h hahead _⟩

theorem lookup_builtinReaders_eq_none {disabled : List String} {name : String}
    (h : name ∈ disabled ∨ name ∉ ["lorem", "comment"]) :
    (builtinReaders disabled).lookup name = none := by
  rw [Option.eq_none_iff_forall_ne_some]
  intro reader hreader
  obtain ⟨henabled, hname⟩ := lookup_builtinReaders_eq_some_iff.1 hreader
  rcases h with h | h
  · exact henabled h
  · rcases hname with ⟨rfl, -⟩ | ⟨rfl, -⟩ <;> simp at h

end Tag

/-! ### Tags that are refused -/

section Block

variable {registry : Registry Tag.Reader} {nested : Tag.Nested} {cursor : Cursor}
  {opening name : Token} {tokens : List Token} {disabled : List String} {fault : Fault}

theorem readTag_of_error {reader : Tag.Reader} {close : Int} (name : String)
    (h : ∃ scope, reader nested ⟨cursor, cursor.sub cursor.position close⟩ = .error fault scope) :
    ∃ cursor', readTag reader nested name close cursor = .error fault cursor' := by
  obtain ⟨scope, hread⟩ := h
  rw [readTag, hread]
  exact ⟨_, rfl⟩

theorem recogniseBlock_of_unnamed (h : cursor.Placed) (hahead : cursor.ahead = opening :: tokens)
    (hopening : opening.kind = .blockBegin) (hname : ∀ token, tokens.head? = some token → token.kind ≠ .name) :
    recogniseBlock registry nested cursor =
      .error (.grammar .general .expectedStatementName (cursor.skip 1).here) (cursor.skip 1) := by
  have hopened : Cursor.expect .blockBegin none cursor = .ok opening (cursor.skip 1) :=
    (Cursor.expect_eq_ok_iff h).2 ⟨_, hahead, hopening, rfl⟩
  have hnone : Cursor.take? [.name] (cursor.skip 1) = .ok none (cursor.skip 1) :=
    (Cursor.take?_eq_none_iff (h.skip 1)).2 ⟨rfl, by rwa [Cursor.ahead_skip_one h hahead]⟩
  rw [recogniseBlock, bind_of_ok hopened, bind_of_ok hnone]
  simp only [Cursor.refuse_apply (h.skip 1)]

theorem recogniseBlock_of_name (h : cursor.Placed) (hahead : cursor.ahead = opening :: name :: tokens)
    (hopening : opening.kind = .blockBegin) (hname : name.kind = .name) :
    recogniseBlock registry nested cursor = (
      match registry.lookup name.value with
      | none => throw (.grammar .general (.unknownStatement name.value) name)
      | some reader => do
          match ← Cursor.closing? with
          | none => throw (.grammar .general (.tagNotClosed name.value) opening)
          | some close => do
              let statement ← readTag reader nested name.value close
              let _ ← Cursor.expect .blockEnd (some (.expectedEndOfTag name.value))
              return Node.block opening name.value statement : Cursor.Action Node) (cursor.skip 2) := by
  have hopened : Cursor.expect .blockBegin none cursor = .ok opening (cursor.skip 1) :=
    (Cursor.expect_eq_ok_iff h).2 ⟨_, hahead, hopening, rfl⟩
  have hnamed : Cursor.take? [.name] (cursor.skip 1) = .ok (some name) (cursor.skip 2) := by
    have hskip : (cursor.skip 1).skip 1 = cursor.skip 2 := Cursor.skip_skip
    exact (Cursor.take?_eq_some_iff (h.skip 1)).2 ⟨_, Cursor.ahead_skip_one h hahead, hname, hskip.symm⟩
  rw [recogniseBlock, bind_of_ok hopened]
  exact bind_of_ok hnamed

/-- A tag with a name and an end is recognised by its reader, whatever comes of that. -/
theorem recogniseBlock_apply (h : cursor.Placed) {arguments rest : List Token} {closing : Token}
    {reader : Tag.Reader} (hahead : cursor.ahead = opening :: name :: (arguments ++ closing :: rest))
    (hopening : opening.kind = .blockBegin) (hname : name.kind = .name) (hclosing : closing.kind = .blockEnd)
    (hinner : Inner arguments) (hreader : registry.lookup name.value = some reader) :
    recogniseBlock registry nested cursor = (do
      let statement ← readTag reader nested name.value ((cursor.skip 2).position + arguments.length)
      let _ ← Cursor.expect .blockEnd (some (.expectedEndOfTag name.value))
      return Node.block opening name.value statement) (cursor.skip 2) := by
  have hahead₂ : (cursor.skip 2).ahead = arguments ++ closing :: rest :=
    Cursor.ahead_skip h (show _ = [opening, name] ++ _ from hahead)
  have hclose := (Cursor.closing?_eq_some_iff (h.skip 2)).2
    ⟨rfl, arguments, closing, rest, hahead₂, rfl, hclosing, hinner⟩
  rw [recogniseBlock_of_name h hahead hopening hname]
  simp only [hreader, bind_of_ok hclose]

/-- A tag whose reader fails is refused for the same reason. -/
theorem recogniseBlock_of_reader (h : cursor.Placed) {reader : Tag.Reader}
    (hahead : cursor.ahead = opening :: name :: tokens) (hopening : opening.kind = .blockBegin)
    (hname : name.kind = .name) (hclosed : Closed tokens) (hreader : registry.lookup name.value = some reader)
    (hread : ∀ args : Cursor, args.Placed →
      (∃ closing rest, tokens = args.ahead ++ closing :: rest ∧ closing.kind = .blockEnd) →
      ∃ scope, reader nested ⟨cursor.skip 2, args⟩ = .error fault scope) :
    ∃ cursor', recogniseBlock registry nested cursor = .error fault cursor' := by
  obtain ⟨arguments, closing, rest, rfl, hclosing, hinner⟩ := hclosed
  have h₂ := h.skip 2
  have hahead₂ : (cursor.skip 2).ahead = arguments ++ closing :: rest :=
    Cursor.ahead_skip h (show _ = [opening, name] ++ _ from hahead)
  obtain ⟨scope, hscope⟩ := hread _ (Cursor.placed_sub h₂ arguments.length)
    ⟨closing, rest, by rw [Cursor.ahead_sub h₂ hahead₂], hclosing⟩
  obtain ⟨cursor', hcursor'⟩ := readTag_of_error name.value ⟨scope, hscope⟩
  rw [recogniseBlock_apply h hahead hopening hname hclosing hinner hreader]
  exact ⟨cursor', bind_of_error hcursor'⟩

/-- A block comment is read up to the name of the tag that ends it, and that tag has to be closed. -/
theorem recogniseBlock_of_marked (h : cursor.Placed) {closing opening' name' : Token} {body rest : List Token}
    (hahead : cursor.ahead = opening :: name :: closing :: (body ++ opening' :: name' :: rest))
    (henabled : "comment" ∉ disabled) (hopening : opening.kind = .blockBegin) (hname : name.kind = .name)
    (hvalue : name.value = "comment") (hclosing : closing.kind = .blockEnd)
    (hbody : body.IsChain fun token next => ¬Cursor.Marks ["endcomment"] token next)
    (hmarks : Cursor.Marks ["endcomment"] opening' name') :
    recogniseBlock (Tag.builtinReaders disabled) nested cursor = (do
      let _ ← Cursor.expect .blockEnd (some (.expectedEndOfTag "comment"))
      return Node.block opening "comment" (.comment (cursor.skip 2).here)) (cursor.skip (body.length + 5)) := by
  have hreader := Tag.lookup_builtinReaders_eq_some_iff.2 ⟨hvalue ▸ henabled, .inr ⟨hvalue, rfl⟩⟩
  have hahead' : cursor.ahead = [opening, name] ++ ([] ++ closing :: (body ++ opening' :: name' :: rest)) := hahead
  have hread : readTag Tag.comment nested name.value _ (cursor.skip 2) = .ok _ _ :=
    (readTag_comment_eq_ok_iff (h.skip 2) (Cursor.ahead_skip h hahead') hclosing).2
      ⟨rfl, body, opening', name', rest, rfl, hmarks, hbody, rfl, rfl⟩
  rw [recogniseBlock_apply h hahead' hopening hname hclosing (by simp [Cursor.Inner]) hreader, bind_of_ok hread,
    Cursor.skip_skip, Nat.add_comm 2, hvalue]

theorem recogniseBlock_of_flaw (h : cursor.Placed) {inside rest : List Token} {token : Token}
    (hahead : cursor.ahead = inside ++ token :: rest) (hflaw : Flaw disabled inside token rest fault) :
    ∃ cursor', recogniseBlock (Tag.builtinReaders disabled) nested cursor = .error fault cursor' := by
  cases hflaw with
  | @statementName opening token rest hopening hkind =>
      rw [recogniseBlock_of_unnamed h hahead hopening (by simpa using hkind),
        Cursor.here_of_ahead (h.skip 1) (Cursor.ahead_skip_one h hahead)]
      exact ⟨_, rfl⟩
  | @unknown opening name rest hopening hname hunknown =>
      rw [recogniseBlock_of_name h hahead hopening hname]
      simp only [Tag.lookup_builtinReaders_eq_none hunknown]
      exact ⟨_, rfl⟩
  | @count opening name _ rest error henabled hopening hname hvalue hkind hread hclosed =>
      have hreader := Tag.lookup_builtinReaders_eq_some_iff.2 ⟨hvalue ▸ henabled, .inl ⟨hvalue, rfl⟩⟩
      refine recogniseBlock_of_reader h hahead hopening hname hclosed hreader ?_
      rintro args hargs ⟨closing, rest', htokens, hclosing⟩
      obtain ⟨more, hmore, -⟩ := @Part.exists_append_of_kind_ne .blockEnd [token] _ _ _ _
        (by simp [hkind]) hclosing htokens
      exact Tag.lorem_of_count (h.skip 2) hargs hmore hkind hread
  | @arguments opening name token count front rest complaint henabled hopening hname hvalue hcount hfirst
      hmisplaced hkind hclosed =>
      have hreader := Tag.lookup_builtinReaders_eq_some_iff.2 ⟨hvalue ▸ henabled, .inl ⟨hvalue, rfl⟩⟩
      refine recogniseBlock_of_reader h (by simpa using hahead) hopening hname hclosed hreader ?_
      rintro args hargs ⟨closing, rest', htokens, hclosing⟩
      have hfront := hmisplaced.kind_ne_blockEnd (fun number hmem => (hcount number hmem).1) hkind
      obtain ⟨more, hmore, -⟩ := Part.exists_append_of_kind_ne hfront hclosing (by simpa using htokens)
      exact Tag.lorem_of_misplaced (h.skip 2) hargs (by simpa using hmore) hcount hfirst hmisplaced
  | @unterminated opening name token rest henabled hopening hname hvalue hclosed hchain =>
      have hreader := Tag.lookup_builtinReaders_eq_some_iff.2 ⟨hvalue ▸ henabled, .inr ⟨hvalue, rfl⟩⟩
      refine recogniseBlock_of_reader h hahead hopening hname hclosed hreader fun args _ _ => ?_
      have hahead₂ := Cursor.ahead_skip h hahead
      rw [← Cursor.here_of_ahead (h.skip 2) hahead₂]
      exact Tag.comment_of_isChain (h.skip 2) (hahead₂ ▸ hchain)
  | @commentArguments opening name token rest henabled hopening hname hvalue hkind hclosed hchain =>
      have hreader := Tag.lookup_builtinReaders_eq_some_iff.2 ⟨hvalue ▸ henabled, .inr ⟨hvalue, rfl⟩⟩
      refine recogniseBlock_of_reader h hahead hopening hname hclosed hreader ?_
      rintro args hargs ⟨closing, rest', htokens, hclosing⟩
      have hahead₂ := Cursor.ahead_skip h hahead
      obtain ⟨more, hmore, -⟩ := @Part.exists_append_of_kind_ne .blockEnd [token] _ _ _ _
        (by simpa using hkind) hclosing htokens
      exact Tag.comment_of_cons (h.skip 2) hargs hmore (hahead₂ ▸ hchain)
  | @commentEnd opening name closing opening' name' token body rest henabled hopening hname hvalue hclosing
      hbody hmarks hkind =>
      have hahead' : cursor.ahead = opening :: name :: closing :: (body ++ opening' :: name' :: token :: rest) := by
        simp [hahead]
      have hreached : (cursor.skip (body.length + 5)).ahead = token :: rest := by
        have hsplit : cursor.ahead = (opening :: name :: closing :: (body ++ [opening', name'])) ++ token :: rest := by
          simp [hahead]
        simpa using Cursor.ahead_skip h hsplit
      have hend : Cursor.take? [.blockEnd] (cursor.skip (body.length + 5)) =
          .ok none (cursor.skip (body.length + 5)) :=
        (Cursor.take?_eq_none_iff (h.skip _)).2 ⟨rfl, by simpa [hreached] using hkind⟩
      rw [recogniseBlock_of_marked h hahead' henabled hopening hname hvalue hclosing hbody hmarks,
        bind_of_error (Cursor.expect_of_none (h.skip _) hend), Cursor.here_of_ahead (h.skip _) hreached]
      exact ⟨_, rfl⟩

end Block

/-! ### Whole runs -/

section Run

variable {disabled : List String} {nested : Tag.Nested} {cursor : Cursor} {fault : Fault}

theorem recogniseNext_of_blockBegin (h : cursor.Placed) {opening : Token} {tokens : List Token} {cursor' : Cursor}
    (hahead : cursor.ahead = opening :: tokens) (hopening : opening.kind = .blockBegin)
    (hblock : recogniseBlock (Tag.builtinReaders disabled) nested cursor = .error fault cursor') :
    recogniseNext (Tag.builtinReaders disabled) nested cursor = .error fault cursor' := by
  rw [recogniseNext, bind_of_ok (Cursor.current_apply h), Cursor.here_of_ahead h hahead]
  simp only [hopening]
  exact bind_of_error hblock

theorem recogniseNext_of_flaw (h : cursor.Placed) {inside rest : List Token} {token : Token}
    (hahead : cursor.ahead = inside ++ token :: rest) (hflaw : Flaw disabled inside token rest fault) :
    ∃ cursor', recogniseNext (Tag.builtinReaders disabled) nested cursor = .error fault cursor' := by
  obtain ⟨cursor', hblock⟩ := @recogniseBlock_of_flaw nested _ _ _ h _ _ _ hahead hflaw
  obtain ⟨opening, tokens, rfl, hopening⟩ := hflaw.exists_cons
  exact ⟨cursor', recogniseNext_of_blockBegin h hahead hopening hblock⟩

/-- Behind constructs that derive, recognition goes on as if it had started there, and what stops it there stops it. -/
theorem recogniseSteps_of_derives_append (h : cursor.Placed) {steps : Nat} (hsteps : cursor.ahead.length ≤ steps)
    {before rest : List Token} {nodes : List Node} {cursor' : Cursor} (hahead : cursor.ahead = before ++ rest)
    (hbefore : Derives disabled before nodes) (hne : rest ≠ [])
    (hnext : recogniseNext (Tag.builtinReaders disabled) nested (cursor.skip before.length) = .error fault cursor') :
    (recogniseSteps (Tag.builtinReaders disabled) nested steps cursor).fault = some fault ∧
      (recogniseSteps (Tag.builtinReaders disabled) nested steps cursor).cursor = cursor' := by
  induction hbefore generalizing cursor steps with
  | nil =>
      rw [List.nil_append] at hahead
      rw [List.length_nil, Cursor.skip_zero] at hnext
      rw [hahead] at hsteps
      obtain ⟨steps, rfl⟩ := Nat.exists_eq_add_one.2 ((List.length_pos_iff.2 hne).trans_le hsteps)
      rw [recogniseSteps, Cursor.atEnd_apply h, hahead, List.isEmpty_eq_false_iff.2 hne]
      simp only [hnext, and_self]
  | @cons construct before node _ _ hconstruct _ _ ih =>
      rw [List.append_assoc] at hahead
      have hrest := Cursor.ahead_skip h hahead
      have hfirst : recogniseNext (Tag.builtinReaders disabled) nested cursor =
          .ok node (cursor.skip construct.length) := recogniseNext_of_construct h hahead hconstruct
      obtain ⟨first, construct', rfl⟩ := hconstruct.exists_cons
      have hcons : cursor.ahead ≠ [] := by simp [hahead]
      obtain ⟨steps, rfl⟩ := Nat.exists_eq_add_one.2 ((List.length_pos_iff.2 hcons).trans_le hsteps)
      rw [hahead, List.length_append, List.length_cons] at hsteps
      have hstops := @ih (cursor.skip (first :: construct').length) (h.skip _) steps
        (by rw [hrest]; omega) hrest (by rwa [Cursor.skip_skip, ← List.length_append])
      rw [recogniseSteps, Cursor.atEnd_apply h, List.isEmpty_eq_false_iff.2 hcons]
      simp only [hfirst]
      cases node with
      | none => exact hstops
      | some node => exact hstops

theorem outcome_recogniseSteps_of_flawed (h : cursor.Placed) {steps : Nat}
    (hsteps : cursor.ahead.length ≤ steps) (hflawed : Flawed disabled cursor.ahead fault) :
    (recogniseSteps (Tag.builtinReaders disabled) nested steps cursor).outcome = .error fault := by
  obtain ⟨before, nodes, inside, token, rest, hahead, hbefore, hflaw⟩ := hflawed
  obtain ⟨cursor', hnext⟩ := @recogniseNext_of_flaw _ nested _ _ (h.skip before.length) _ _ _
    (Cursor.ahead_skip h hahead) hflaw
  have hne : inside ++ token :: rest ≠ [] := List.append_ne_nil_of_right_ne_nil inside (List.cons_ne_nil _ _)
  rw [Recognition.outcome, (recogniseSteps_of_derives_append h hsteps hahead hbefore hne hnext).1]

/-- Recognition fails as the first flaw ahead says. -/
theorem Cursor.outcome_recognise_of_flawed (h : cursor.Placed) (hflawed : Flawed disabled cursor.ahead fault) :
    (cursor.recognise (Tag.builtinReaders disabled)).outcome = .error fault :=
  outcome_recogniseSteps_of_flawed h length_ahead_le_room hflawed

end Run

end TagTemplate
