import TagTemplate.Proofs.Meaning

/-!
# Flaws

A list of tokens that does not derive from the grammar derives up to some construct, and in that construct
there is a token that cannot stand where it does. Which token that is, and what is said about it, is put
down here for the tokens of a text, in which every tag that opens is closed before another one opens.
-/

namespace TagTemplate

open Cursor (Inner Marks)

namespace Grammar

/-- The tag in which the tokens start is closed before any other opens. -/
def Closed (tokens : List Token) : Prop :=
  ∃ arguments closing rest, tokens = arguments ++ closing :: rest ∧ closing.kind = .blockEnd ∧ Inner arguments

/-- A token that does not go on with the letter of a mode and the word for a random choice, where these stop
in front of it. -/
inductive Misplaced : List Token → Token → Complaint → Prop
  | mode {token : Token} :
      token.kind = .name → token.value ∉ ["w", "p", "b"] → Misplaced [] token .loremMethod
  | argument {token : Token} : token.kind ≠ .name → Misplaced [] token .loremArguments
  | word {letter token : Token} :
      letter.kind = .name → letter.value ∈ ["w", "p", "b"] → ¬(token.kind = .name ∧ token.value = "random") →
      Misplaced [letter] token .loremArguments
  | extra {letter word token : Token} :
      letter.kind = .name → letter.value ∈ ["w", "p", "b"] → word.kind = .name → word.value = "random" →
      Misplaced [letter, word] token .loremArguments

/-- What can be wrong with the first construct of a list of tokens: a token, what stands before it in the
construct, what stands behind it, and the fault. -/
inductive Flaw (disabled : List String) : List Token → Token → List Token → Fault → Prop
  | statementName {opening token : Token} {rest : List Token} :
      opening.kind = .blockBegin → token.kind ≠ .name →
      Flaw disabled [opening] token rest (.grammar .general .expectedStatementName token)
  | unknown {opening name : Token} {rest : List Token} :
      opening.kind = .blockBegin → name.kind = .name →
      (name.value ∈ disabled ∨ name.value ∉ ["lorem", "comment"]) →
      Flaw disabled [opening] name rest (.grammar .general (.unknownStatement name.value) name)
  | count {opening name number : Token} {rest : List Token} {error : IntegerError} :
      "lorem" ∉ disabled → opening.kind = .blockBegin → name.kind = .name → name.value = "lorem" →
      number.kind = .integer → Number.readInteger number.value = .error error → Closed (number :: rest) →
      Flaw disabled [opening, name] number rest (.defect (.integer error))
  | arguments {opening name token : Token} {count : Option Token} {front rest : List Token}
      {complaint : Complaint} :
      "lorem" ∉ disabled → opening.kind = .blockBegin → name.kind = .name → name.value = "lorem" →
      (∀ number ∈ count, number.kind = .integer ∧ ∃ n, Number.readInteger number.value = .ok n) →
      (count.toList ++ front = [] → token.kind ≠ .integer) → Misplaced front token complaint →
      token.kind ≠ .blockEnd → Closed (count.toList ++ front ++ token :: rest) →
      Flaw disabled (opening :: name :: (count.toList ++ front)) token rest
        (.grammar .malformedArguments complaint token)
  | unterminated {opening name token : Token} {rest : List Token} :
      "comment" ∉ disabled → opening.kind = .blockBegin → name.kind = .name → name.value = "comment" →
      Closed (token :: rest) → ((token :: rest).IsChain fun token next => ¬Marks ["endcomment"] token next) →
      Flaw disabled [opening, name] token rest
        (.grammar .unterminatedBlock (.unexpectedEnd ["endcomment"]) token)
  | commentArguments {opening name token : Token} {rest : List Token} :
      "comment" ∉ disabled → opening.kind = .blockBegin → name.kind = .name → name.value = "comment" →
      token.kind ≠ .blockEnd → Closed (token :: rest) →
      ¬((token :: rest).IsChain fun token next => ¬Marks ["endcomment"] token next) →
      Flaw disabled [opening, name] token rest (.grammar .malformedArguments .commentArguments token)
  | commentEnd {opening name closing opening' name' token : Token} {body rest : List Token} :
      "comment" ∉ disabled → opening.kind = .blockBegin → name.kind = .name → name.value = "comment" →
      closing.kind = .blockEnd → (body.IsChain fun token next => ¬Marks ["endcomment"] token next) →
      Marks ["endcomment"] opening' name' → token.kind ≠ .blockEnd →
      Flaw disabled (opening :: name :: closing :: (body ++ [opening', name'])) token rest
        (.grammar .general (.expectedEndOfTag "comment") token)

variable {disabled : List String} {front rest : List Token} {token : Token} {complaint : Complaint}

theorem Flaw.exists_cons {inside : List Token} {fault : Fault} (h : Flaw disabled inside token rest fault) :
    ∃ opening tokens, inside = opening :: tokens ∧ opening.kind = .blockBegin := by
  cases h with
  | statementName hopening | unknown hopening => exact ⟨_, _, rfl, hopening⟩
  | count _ hopening | arguments _ hopening | unterminated _ hopening | commentArguments _ hopening
  | commentEnd _ hopening => exact ⟨_, _, rfl, hopening⟩

/-- A flaw is blamed on its token, unless that is a number that cannot be read. -/
theorem Flaw.fault_cases {inside : List Token} {fault : Fault} (h : Flaw disabled inside token rest fault) :
    (∃ kind complaint, fault = .grammar kind complaint token) ∨
      ∃ error, fault = .defect (.integer error) ∧ token.kind = .integer ∧
        Number.readInteger token.value = .error error := by
  cases h with
  | count _ _ _ _ hkind hread => exact .inr ⟨_, rfl, hkind, hread⟩
  | statementName | unknown | arguments | unterminated | commentArguments | commentEnd =>
      exact .inl ⟨_, _, rfl⟩

theorem closed_of_inner {closing : Token} {arguments : List Token} (h : Inner arguments)
    (hclosing : closing.kind = .blockEnd) (rest : List Token) : Closed (arguments ++ closing :: rest) :=
  ⟨arguments, closing, rest, rfl, hclosing, h⟩

theorem Misplaced.kind_eq_name (h : Misplaced front token complaint) :
    ∀ token' ∈ front, token'.kind = .name := by
  cases h with
  | mode | argument => simp
  | word hletter => simpa using hletter
  | extra hletter _ hword => simpa using ⟨hletter, hword⟩

theorem Misplaced.kind_ne_blockEnd (h : Misplaced front token complaint) {count : Option Token}
    (hcount : ∀ number ∈ count, number.kind = .integer) (hkind : token.kind ≠ .blockEnd) :
    ∀ token' ∈ count.toList ++ front ++ [token], token'.kind ≠ .blockEnd := by
  intro token' hmem
  simp only [List.mem_append, Option.mem_toList, List.mem_singleton] at hmem
  rcases hmem with (hmem | hmem) | rfl
  · simp [hcount token' hmem]
  · simp [h.kind_eq_name token' hmem]
  · exact hkind

/-! ### Every list of tokens is flawed or derives -/

/-- The letter of a mode and the word for a random choice are all that there is, or something is in their
place. -/
theorem choice_or_misplaced (tokens : List Token) :
    (∃ letter random, Choice tokens letter random) ∨
      ∃ front token rest complaint, tokens = front ++ token :: rest ∧ Misplaced front token complaint := by
  rcases tokens with _ | ⟨letter, tokens⟩
  · exact .inl ⟨_, _, .default⟩
  by_cases hkind : letter.kind = .name
  swap
  · exact .inr ⟨[], letter, tokens, _, rfl, .argument hkind⟩
  by_cases hvalue : letter.value ∈ ["w", "p", "b"]
  swap
  · exact .inr ⟨[], letter, tokens, _, rfl, .mode hkind hvalue⟩
  rcases tokens with _ | ⟨word, tokens⟩
  · exact .inl ⟨_, _, .mode hkind hvalue⟩
  by_cases hword : word.kind = .name ∧ word.value = "random"
  swap
  · exact .inr ⟨[letter], word, tokens, _, rfl, .word hkind hvalue hword⟩
  rcases tokens with _ | ⟨token, tokens⟩
  · exact .inl ⟨_, _, .random hkind hvalue hword.1 hword.2⟩
  · exact .inr ⟨[letter, word], token, tokens, _, rfl, .extra hkind hvalue hword.1 hword.2⟩

section Tag

variable {opening name closing : Token} {arguments : List Token}

/-- A tag for filler text is a construct, or has a flaw. -/
theorem lorem_or_flaw (henabled : "lorem" ∉ disabled) (hopening : opening.kind = .blockBegin)
    (hname : name.kind = .name) (hvalue : name.value = "lorem") (harguments : Inner arguments)
    (hclosing : closing.kind = .blockEnd) (rest : List Token) :
    (∃ node, Construct disabled (opening :: name :: (arguments ++ [closing])) (some node)) ∨
      ∃ inside token rest' fault, opening :: name :: (arguments ++ closing :: rest) =
        inside ++ token :: rest' ∧ Flaw disabled inside token rest' fault := by
  obtain ⟨location, hlocation⟩ : ∃ location, (arguments ++ [closing]).head? = some location := by
    cases arguments <;> exact ⟨_, rfl⟩
  -- What a flaw behind the optional count says, once what stands before the flaw is known.
  have hmisplaced : ∀ {count : Option Token} {choice : List Token}, arguments = count.toList ++ choice →
      (∀ number ∈ count, number.kind = .integer ∧ ∃ n, Number.readInteger number.value = .ok n) →
      (count.toList = [] → ∀ number, choice.head? = some number → number.kind ≠ .integer) →
      (∃ letter random, Choice choice letter random) ∨
        ∃ inside token rest' fault, opening :: name :: (arguments ++ closing :: rest) =
          inside ++ token :: rest' ∧ Flaw disabled inside token rest' fault := by
    rintro count choice rfl hcount hinteger
    rcases choice_or_misplaced choice with hchoice | ⟨front, token, more, complaint, rfl, hmisplaced⟩
    · exact .inl hchoice
    have htoken := harguments token (by simp)
    have hclosed := closed_of_inner harguments hclosing
    refine .inr ⟨opening :: name :: (count.toList ++ front), token, more ++ closing :: rest, _, by simp,
      .arguments henabled hopening hname hvalue hcount ?_ hmisplaced htoken.1 (by simpa using hclosed rest)⟩
    intro hnil
    obtain ⟨hnone, rfl⟩ := List.append_eq_nil_iff.1 hnil
    exact hinteger hnone token rfl
  rcases arguments with _ | ⟨number, choice⟩
  · exact .inl ⟨_, .lorem henabled hopening hname hvalue (.uncounted .default) hclosing hlocation⟩
  by_cases hnumber : number.kind = .integer
  · cases hread : Number.readInteger number.value with
    | error error =>
        exact .inr ⟨[opening, name], number, choice ++ closing :: rest, _, rfl,
          .count henabled hopening hname hvalue hnumber hread (closed_of_inner harguments hclosing rest)⟩
    | ok count =>
        rcases @hmisplaced (some number) choice rfl (by simpa using ⟨hnumber, count, hread⟩) (by simp) with
          ⟨letter, random, hchoice⟩ | hflaw
        · exact .inl ⟨_, .lorem henabled hopening hname hvalue (.counted hnumber hread hchoice) hclosing
            hlocation⟩
        · exact .inr hflaw
  · rcases @hmisplaced none (number :: choice) rfl (by simp) (by simpa using hnumber) with
      ⟨letter, random, hchoice⟩ | hflaw
    · exact .inl ⟨_, .lorem henabled hopening hname hvalue (.uncounted hchoice) hclosing hlocation⟩
    · exact .inr hflaw

/-- A tag is one for filler text, or opens a block comment that ends somewhere, or has a flaw. -/
theorem tag_or_flaw (disabled : List String) (hopening : opening.kind = .blockBegin)
    (harguments : Inner arguments) (hclosing : closing.kind = .blockEnd) (rest : List Token) :
    (∃ node, Construct disabled (opening :: (arguments ++ [closing])) (some node)) ∨
      (∃ name, arguments = [name] ∧ "comment" ∉ disabled ∧ name.kind = .name ∧ name.value = "comment" ∧
        ¬(rest.IsChain fun token next => ¬Marks ["endcomment"] token next)) ∨
      ∃ inside token rest' fault, opening :: (arguments ++ closing :: rest) = inside ++ token :: rest' ∧
        Flaw disabled inside token rest' fault := by
  rcases arguments with _ | ⟨name, arguments⟩
  · exact .inr (.inr ⟨[opening], closing, rest, _, rfl, .statementName hopening (by simp [hclosing])⟩)
  by_cases hname : name.kind = .name
  swap
  · exact .inr (.inr ⟨[opening], name, arguments ++ closing :: rest, _, rfl,
      .statementName hopening hname⟩)
  by_cases hknown : name.value ∈ disabled ∨ name.value ∉ ["lorem", "comment"]
  · exact .inr (.inr ⟨[opening], name, arguments ++ closing :: rest, _, rfl,
      .unknown hopening hname hknown⟩)
  obtain ⟨henabled, hvalue⟩ := not_or.1 hknown
  replace harguments : Inner arguments := fun token hmem => harguments token (List.mem_cons_of_mem _ hmem)
  have hvalue' : name.value = "lorem" ∨ name.value = "comment" := by simpa using not_not.1 hvalue
  rcases hvalue' with hvalue | hvalue
  · rw [hvalue] at henabled
    rcases lorem_or_flaw henabled hopening hname hvalue harguments hclosing rest with hconstruct | hflaw
    · exact .inl hconstruct
    · exact .inr (.inr hflaw)
  · rw [hvalue] at henabled
    obtain ⟨token, tokens, htokens⟩ : ∃ token tokens, arguments ++ closing :: rest = token :: tokens := by
      cases arguments <;> exact ⟨_, _, rfl⟩
    have hclosed : Closed (token :: tokens) := htokens ▸ closed_of_inner harguments hclosing rest
    by_cases hchain : (token :: tokens).IsChain fun token next => ¬Marks ["endcomment"] token next
    · exact .inr (.inr ⟨[opening, name], token, tokens, _, by simp [htokens],
        .unterminated henabled hopening hname hvalue hclosed hchain⟩)
    rcases arguments with _ | ⟨argument, arguments⟩
    · obtain ⟨rfl, rfl⟩ := List.cons.inj htokens
      refine .inr (.inl ⟨name, rfl, henabled, hname, hvalue, fun hrest => hchain ?_⟩)
      exact hrest.cons fun next _ hmarks => absurd (hclosing.symm.trans hmarks.1) (by decide)
    · obtain ⟨rfl, rfl⟩ := List.cons.inj htokens
      have htoken := harguments argument List.mem_cons_self
      exact .inr (.inr ⟨[opening, name], argument, _, _, rfl,
        .commentArguments henabled hopening hname hvalue htoken.1 hclosed hchain⟩)

end Tag

end Grammar

namespace Part

variable {d : Delimiters} {start : Location} {parts : List Part}

/-- Behind the delimiter that opens a tag come the lexemes of the tag, the delimiter that closes it, and
more parts. -/
theorem exists_of_tokens_eq (hlexical : ∀ part ∈ parts, part.Lexical) {front rest : List Token}
    {opening : Token} (h : tokens d start parts = front ++ opening :: rest)
    (hopening : opening.kind = .blockBegin) :
    ∃ lexemes closing place parts', rest = lexemes ++ closing :: tokens d place parts' ∧
      closing.kind = .blockEnd ∧ Inner lexemes ∧ parts'.length < parts.length ∧
      ∀ part ∈ parts', part.Lexical := by
  induction parts generalizing start front with
  | nil => simp [tokens] at h
  | cons part parts ih =>
      obtain ⟨hpart, hparts⟩ := List.forall_mem_cons.1 hlexical
      rw [tokens_cons] at h
      have hbehind : ∀ {front' : List Token},
          tokens d (start.after (part.source d)) parts = front' ++ opening :: rest →
          ∃ lexemes closing place parts', rest = lexemes ++ closing :: tokens d place parts' ∧
            closing.kind = .blockEnd ∧ Inner lexemes ∧ parts'.length < (part :: parts).length ∧
            ∀ part ∈ parts', part.Lexical := by
        intro front' htokens
        obtain ⟨lexemes, closing, place, parts', hrest, hclosing, hinner, hlength, hparts'⟩ :=
          ih hparts htokens
        exact ⟨lexemes, closing, place, parts', hrest, hclosing, hinner, hlength.trans (Nat.lt_succ_self _),
          hparts'⟩
      cases part with
      | text value =>
          obtain ⟨front', -, htokens⟩ := exists_append_of_kind_ne (by simp [pieces, Piece.tokens]) hopening h
          exact hbehind htokens
      | comment content =>
          obtain ⟨front', -, htokens⟩ := exists_append_of_kind_ne
            (by cases content <;> simp [pieces, body, Piece.tokens]) hopening h
          exact hbehind htokens
      | tag lexemes gap =>
          obtain ⟨opening', closing, place, -, hclosing, htag⟩ :=
            exists_tokens_tag (d := d) start lexemes gap
          have hinner := hpart.inner place
          rw [htag, List.cons_append] at h
          cases front with
          | nil =>
              obtain ⟨-, hrest⟩ := List.cons.inj h
              exact ⟨_, closing, _, parts, by simpa using hrest.symm, hclosing, hinner,
                Nat.lt_succ_self _, hparts⟩
          | cons token front =>
              obtain ⟨-, htail⟩ := List.cons.inj h
              obtain ⟨front', -, htokens⟩ :=
                exists_append_of_kind_ne (hinner.kind_ne_blockBegin hclosing) hopening htail
              exact hbehind htokens

end Part

namespace Grammar

/-- A list of tokens has a flaw behind what derives from the grammar. -/
def Flawed (disabled : List String) (tokens : List Token) (fault : Fault) : Prop :=
  ∃ before nodes inside token rest, tokens = before ++ (inside ++ token :: rest) ∧
    Derives disabled before nodes ∧ Flaw disabled inside token rest fault

variable {disabled : List String}

theorem Flaw.flawed {inside rest : List Token} {token : Token} {fault : Fault}
    (h : Flaw disabled inside token rest fault) : Flawed disabled (inside ++ token :: rest) fault :=
  ⟨[], [], inside, token, rest, rfl, .nil, h⟩

theorem Flawed.behind {construct rest : List Token} {node : Option Node} {fault : Fault}
    (h : Flawed disabled rest fault) (hconstruct : Construct disabled construct node) :
    Flawed disabled (construct ++ rest) fault := by
  obtain ⟨before, nodes, inside, token, rest, rfl, hbefore, hflaw⟩ := h
  exact ⟨construct ++ before, _, inside, token, rest, by simp, .cons hconstruct hbefore (joins_iff.2 rfl),
    hflaw⟩

theorem Derives.behind {construct rest : List Token} {node : Option Node} {nodes : List Node}
    (h : Derives disabled rest nodes) (hconstruct : Construct disabled construct node) :
    ∃ nodes', Derives disabled (construct ++ rest) nodes' :=
  ⟨_, .cons hconstruct h (joins_iff.2 rfl)⟩

theorem Derives.append {tokens rest : List Token} {nodes nodes' : List Node}
    (h : Derives disabled tokens nodes) (hrest : Derives disabled rest nodes') :
    ∃ nodes, Derives disabled (tokens ++ rest) nodes := by
  induction h with
  | nil => exact ⟨nodes', hrest⟩
  | cons hconstruct _ _ ih =>
      obtain ⟨nodes, hnodes⟩ := ih
      rw [List.append_assoc]
      exact hnodes.behind hconstruct

/-- The tokens of a text derive from the grammar or have a flaw. -/
theorem derives_or_flawed (disabled : List String) {d : Delimiters} {start : Location} {parts : List Part}
    (hlexical : ∀ part ∈ parts, part.Lexical) :
    (∃ nodes, Derives disabled (Part.tokens d start parts) nodes) ∨
      ∃ fault, Flawed disabled (Part.tokens d start parts) fault := by
  -- A block comment takes parts from the middle of the list, so the induction is on the length.
  induction hlength : parts.length using Nat.strong_induction_on generalizing parts start with
  | _ length ih =>
    rcases parts with _ | ⟨part, parts⟩
    · exact .inl ⟨[], .nil⟩
    obtain ⟨hpart, hparts⟩ := List.forall_mem_cons.1 hlexical
    rw [List.length_cons] at hlength
    have hbehind : ∀ {construct : List Token} {node : Option Node} {parts' : List Part} (place : Location),
        parts'.length < length → (∀ part ∈ parts', part.Lexical) → Construct disabled construct node →
        (∃ nodes, Derives disabled (construct ++ Part.tokens d place parts') nodes) ∨
          ∃ fault, Flawed disabled (construct ++ Part.tokens d place parts') fault := by
      intro construct node parts' place hshorter hparts' hconstruct
      rcases ih parts'.length hshorter hparts' rfl with ⟨nodes, hnodes⟩ | ⟨fault, hfault⟩
      · exact .inl (hnodes.behind hconstruct)
      · exact .inr ⟨fault, hfault.behind hconstruct⟩
    rw [Part.tokens_cons]
    cases part with
    | text value => exact hbehind _ (by omega) hparts (.data rfl)
    | comment content =>
        obtain ⟨opening, body, closing, hopening, hbody, hclosing, hcomment⟩ :=
          Part.exists_tokens_comment (d := d) start content
        rw [hcomment]
        exact hbehind _ (by omega) hparts (.shortComment hopening hbody hclosing)
    | tag lexemes gap =>
        obtain ⟨opening, closing, place, hopening, hclosing, htag⟩ :=
          Part.exists_tokens_tag (d := d) start lexemes gap
        rw [htag]
        generalize start.after ((Part.tag lexemes gap).source d) = stop
        rcases tag_or_flaw disabled hopening (hpart.inner place) hclosing (Part.tokens d stop parts) with
          ⟨node, hconstruct⟩ | ⟨name, hlexemes, henabled, hname, hvalue, hmarked⟩ |
          ⟨inside, token, rest, fault, heq, hflaw⟩
        · exact hbehind _ (by omega) hparts hconstruct
        · obtain ⟨body, opening', name', rest, hrest, hmarks, hbody⟩ :=
            Cursor.exists_of_not_isChain hmarked
          obtain ⟨lexemes', closing', place', parts', htail, hclosing', hinner', hshorter, hparts'⟩ :=
            Part.exists_of_tokens_eq hparts hrest hmarks.1
          rcases lexemes' with _ | ⟨name'', _ | ⟨token, lexemes'⟩⟩
          · obtain ⟨rfl, -⟩ := List.cons.inj htail
            exact absurd (hclosing'.symm.trans hmarks.2.1) (by decide)
          · obtain ⟨rfl, rfl⟩ := List.cons.inj htail
            have hconstruct := Construct.comment henabled hopening hname hvalue hclosing hbody hmarks.1
              hmarks.2.1 (List.mem_singleton.1 hmarks.2.2) hclosing'
            have := hbehind place' (by omega) hparts' hconstruct
            simpa [hlexemes, hrest] using this
          · obtain ⟨rfl, rfl⟩ := List.cons.inj htail
            have htoken := hinner' token (by simp)
            have hflaw : Flaw disabled _ token (lexemes' ++ closing' :: Part.tokens d place' parts') _ :=
              .commentEnd henabled hopening hname hvalue hclosing hbody hmarks htoken.1
            exact .inr ⟨_, by simpa [hlexemes, hrest] using hflaw.flawed⟩
        · rw [List.cons_append, List.append_assoc, List.cons_append, List.nil_append, heq]
          exact .inr ⟨fault, hflaw.flawed⟩

end Grammar

end TagTemplate
