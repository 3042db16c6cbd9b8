import TagTemplate.Proofs.Integer
import TagTemplate.Proofs.Refusal
import TagTemplate.Proofs.Rendering

/-!
# How compilation fails

A text that does not compile cannot be read, or has a flaw. Almost every flaw is a mistake in the template,
which is reported under the template's name. The exception is a number with more digits than can be read.
-/

namespace TagTemplate

open Grammar

variable {d : Delimiters} {parts : List Part}

theorem Lexeme.Fits.digits {value rest : List Char} (h : Fits .integer value rest) :
    value ≠ [] ∧ ∀ c ∈ value, Text.isDigit c = true := by
  cases h with
  | integer hne hrun => exact ⟨hne, hrun.all⟩

theorem Part.Stands.digits {part : Part} {rest : List Char} (h : part.Stands d rest) {piece : Piece}
    (hmem : piece ∈ part.pieces d) (hkind : piece.kind = .integer) :
    piece.value ≠ [] ∧ ∀ c ∈ piece.value, Text.isDigit c = true := by
  cases part with
  | text value =>
      obtain rfl := List.mem_singleton.1 hmem
      simp at hkind
  | comment content =>
      have hkinds : ∀ piece ∈ (comment content).pieces d, piece.kind ≠ .integer := by
        cases content <;> simp [pieces, body]
      exact absurd hkind (hkinds piece hmem)
  | tag lexemes gap =>
      simp only [pieces, List.cons_append, List.mem_cons, List.mem_append, List.not_mem_nil, or_false] at hmem
      rcases hmem with rfl | hmem | rfl
      · simp at hkind
      · obtain ⟨rest', -, hleads⟩ := h.2.1.exists_leads hmem
        exact (hkind ▸ hleads.fits).digits
      · simp at hkind

namespace Delimiters.Reads

theorem digits {s rest : List Char} (h : d.Reads parts s rest) {piece : Piece}
    (hmem : piece ∈ Part.allPieces d parts) (hkind : piece.kind = .integer) :
    piece.value ≠ [] ∧ ∀ c ∈ piece.value, Text.isDigit c = true := by
  induction h with
  | done => simp at hmem
  | part hstands _ ih =>
      rw [Part.allPieces_cons, List.mem_append] at hmem
      exact hmem.elim (hstands.digits · hkind) ih

/-- A number in a text is read unless it has too many digits. -/
theorem readInteger {s rest : List Char} (h : d.Reads parts s rest) {start : Location} {number : Token}
    (hmem : number ∈ Part.tokens d start parts) (hkind : number.kind = .integer) :
    Number.readInteger number.value =
      if Number.maxDigits < number.value.length then .error (.tooLong number.value.length)
      else .ok (Number.ofDigits number.value.toList : Int) := by
  obtain ⟨front, piece, back, hpieces, rfl⟩ := Piece.exists_of_mem_tokens hmem
  have hpiece : piece ∈ Part.allPieces d parts := by simp [hpieces]
  obtain ⟨hne, hdigits⟩ := h.digits hpiece hkind
  rw [Number.readInteger_of_digits hne hdigits, String.length_ofList, String.toList_ofList]

theorem eq_tooLong {s rest : List Char} (h : d.Reads parts s rest) {start : Location} {number : Token}
    (hmem : number ∈ Part.tokens d start parts) (hkind : number.kind = .integer) {error : IntegerError}
    (hread : Number.readInteger number.value = .error error) :
    Number.maxDigits < number.value.length ∧ error = .tooLong number.value.length := by
  rw [h.readInteger hmem hkind] at hread
  split at hread
  · rename_i hlong
    exact ⟨hlong, (Except.error.inj hread).symm⟩
  · simp at hread

theorem nonneg_of_readInteger {s rest : List Char} (h : d.Reads parts s rest) {start : Location} {number : Token}
    (hmem : number ∈ Part.tokens d start parts) (hkind : number.kind = .integer) {n : Int}
    (hread : Number.readInteger number.value = .ok n) : 0 ≤ n := by
  rw [h.readInteger hmem hkind] at hread
  split at hread
  · simp at hread
  · rw [← Except.ok.inj hread]
    exact Int.natCast_nonneg _

end Delimiters.Reads

theorem Compiler.nodesOf_of_flawed (config : Config) {text : String}
    (hreads : config.delimiters.Reads parts text.toList []) {fault : Fault}
    (hflawed : Flawed config.disabled (Part.tokens config.delimiters Location.start parts) fault) :
    (Compiler.ofConfig config).nodesOf text = .error fault := by
  rw [← hreads.ahead_whole] at hflawed
  rw [nodesOf_of_reads config hreads]
  exact Cursor.outcome_recognise_of_flawed (Cursor.placed_whole _) hflawed

/-- With the built-in tags a text compiles, or there is a mistake in it that is reported under the
template's name, or one of its numbers has more digits than can be read. -/
theorem compile_eq_ok_or_processing_or_tooLong (config : Config) (text name : String) :
    (∃ template, (Compiler.ofConfig config).compile text name = .ok template ∧ template.name = name) ∨
    (∃ cause : UserError, ((∃ error, cause = .scan error) ∨ ∃ error, cause = .grammar error) ∧
      (Compiler.ofConfig config).compile text name = .error (.processing ⟨cause.message, name, some cause⟩)) ∨
    ∃ tokens number, (config.delimiters.scan text).outcome = .ok tokens ∧ number ∈ tokens ∧
      number.kind = .integer ∧ Number.maxDigits < number.value.length ∧
      (Compiler.ofConfig config).compile text name =
        .error (.defect (.integer (.tooLong number.value.length))) := by
  have hcompile : ∀ {fault}, (Compiler.ofConfig config).nodesOf text = .error fault →
      (Compiler.ofConfig config).compile text name = .error (Compiler.underName name fault) := by
    intro fault hnodes
    rw [Compiler.compile, hnodes]
  cases hscan : (config.delimiters.scan text).outcome with
  | error error =>
      have hnodes : (Compiler.ofConfig config).nodesOf text = .error (.user (.scan error)) := by
        rw [Compiler.nodesOf, Compiler.scan, Compiler.ofConfig, hscan]
      exact .inr (.inl ⟨.scan error, .inl ⟨error, rfl⟩, hcompile hnodes⟩)
  | ok tokens =>
      obtain ⟨parts, hreads, rfl⟩ := Mode.outcome_eq_ok_iff.1 hscan
      rcases @derives_or_flawed config.disabled config.delimiters Location.start parts hreads.lexical with
        ⟨nodes, hderives⟩ | ⟨fault, hflawed⟩
      · refine .inl ⟨⟨name, nodes, config.seed⟩, ?_, rfl⟩
        rw [Compiler.compile, (Compiler.nodesOf_eq_ok_iff config hreads).2 hderives]
        rfl
      · have hfault := hcompile (Compiler.nodesOf_of_flawed config hreads hflawed)
        obtain ⟨before, nodes, inside, token, rest, htokens, -, hflaw⟩ := hflawed
        rcases hflaw.fault_cases with ⟨kind, complaint, rfl⟩ | ⟨error, rfl, hkind, hread⟩
        · exact .inr (.inl ⟨.grammar ⟨kind, complaint, token⟩, .inr ⟨_, rfl⟩, hfault⟩)
        · have hmem : token ∈ Part.tokens config.delimiters Location.start parts := by simp [htokens]
          obtain ⟨hlong, rfl⟩ := hreads.eq_tooLong hmem hkind hread
          refine .inr (.inr ⟨_, token, rfl, ?_, hkind, hlong, hfault⟩)
          rw [Piece.tokens_append]
          exact List.mem_append_left _ hmem

/-! ### What is wrong with the tokens of a text -/

/-- A text whose tokens are refused has a flaw in them. -/
theorem Delimiters.Reads.flawed_of_recognise {disabled : List String} {text : String} {fault : Fault}
    (h : d.Reads parts text.toList [])
    (hfault : ((Cursor.whole (Piece.tokens Location.start (Part.allPieces d parts ++ [Piece.final])).toArray).recognise
      (Tag.builtinReaders disabled)).outcome = .error fault) :
    Grammar.Flawed disabled (Part.tokens d Location.start parts) fault := by
  have hahead := h.ahead_whole Location.start
  have hplaced := Cursor.placed_whole (Piece.tokens Location.start (Part.allPieces d parts ++ [Piece.final])).toArray
  rcases @Grammar.derives_or_flawed disabled d Location.start parts h.lexical with ⟨nodes, hderives⟩ | ⟨_, hflawed⟩
  · rw [← hahead, ← Cursor.outcome_recognise_eq_ok_iff hplaced, hfault] at hderives
    simp at hderives
  · rw [← hahead] at hflawed
    rw [Cursor.outcome_recognise_of_flawed hplaced hflawed] at hfault
    rwa [hahead, Except.error.inj hfault] at hflawed

/-- What recognition finds wrong with a token of a text. Most complaints cannot be made about a text, since every tag
and short comment in it is closed and nothing else stands outside of tags but plain text. -/
inductive TextFault (disabled : List String) (token : Token) : Fault → Prop
  | statementName :
      token.kind ≠ .name → TextFault disabled token (.grammar .general .expectedStatementName token)
  | unknown :
      token.kind = .name → (token.value ∈ disabled ∨ token.value ∉ ["lorem", "comment"]) →
      TextFault disabled token (.grammar .general (.unknownStatement token.value) token)
  | commentEnd :
      "comment" ∉ disabled → token.kind ≠ .blockEnd →
      TextFault disabled token (.grammar .general (.expectedEndOfTag "comment") token)
  | loremMethod :
      "lorem" ∉ disabled → token.kind = .name → token.value ∉ ["w", "p", "b"] →
      TextFault disabled token (.grammar .malformedArguments .loremMethod token)
  | loremArguments :
      "lorem" ∉ disabled → token.kind ≠ .blockEnd →
      TextFault disabled token (.grammar .malformedArguments .loremArguments token)
  | commentArguments :
      "comment" ∉ disabled → token.kind ≠ .blockEnd →
      TextFault disabled token (.grammar .malformedArguments .commentArguments token)
  | unterminated :
      "comment" ∉ disabled →
      TextFault disabled token (.grammar .unterminatedBlock (.unexpectedEnd ["endcomment"]) token)
  | count :
      "lorem" ∉ disabled → token.kind = .integer → Number.maxDigits < token.value.length →
      TextFault disabled token (.defect (.integer (.tooLong token.value.length)))

/-- A flaw is what recognition finds wrong with its token, since a number of a text can only be too long. -/
theorem Grammar.Flaw.textFault {disabled : List String} {inside rest : List Token} {token : Token} {fault : Fault}
    (h : Flaw disabled inside token rest fault)
    (hcount : ∀ error, token.kind = .integer → Number.readInteger token.value = .error error →
      Number.maxDigits < token.value.length ∧ error = .tooLong token.value.length) :
    TextFault disabled token fault := by
  cases h with
  | statementName _ hkind => exact .statementName hkind
  | unknown _ hname hunknown => exact .unknown hname hunknown
  | count henabled _ _ _ hkind hread =>
      obtain ⟨hlong, rfl⟩ := hcount _ hkind hread
      exact .count henabled hkind hlong
  | arguments henabled _ _ _ _ _ hmisplaced hkind =>
      cases hmisplaced with
      | mode hname hvalue => exact .loremMethod henabled hname hvalue
      | argument | word | extra => exact .loremArguments henabled hkind
  | unterminated henabled => exact .unterminated henabled
  | commentArguments henabled _ _ _ hkind => exact .commentArguments henabled hkind
  | commentEnd henabled _ _ _ _ _ _ hkind => exact .commentEnd henabled hkind

/-- The tokens of a text are recognised with the built-in tags, or a tag in the text is wrong. It is never an end of
the text that is to blame, nor anything that the text does not hold. -/
theorem recognise_eq_ok_or_textFault (d : Delimiters) (disabled : List String) (text : String) (tokens : List Token)
    (hscan : (d.scan text).outcome = .ok tokens) :
    (∃ nodes, ((Cursor.whole tokens.toArray).recognise (Tag.builtinReaders disabled)).outcome = .ok nodes) ∨
      ∃ token ∈ tokens, token.kind ≠ .eof ∧ ∃ fault, TextFault disabled token fault ∧
        ((Cursor.whole tokens.toArray).recognise (Tag.builtinReaders disabled)).outcome = .error fault := by
  obtain ⟨parts, hreads, rfl⟩ := Mode.outcome_eq_ok_iff.1 hscan
  cases houtcome : ((Cursor.whole (Piece.tokens Location.start (Part.allPieces d parts ++ [Piece.final])).toArray).recognise
      (Tag.builtinReaders disabled)).outcome with
  | ok nodes => exact .inl ⟨nodes, rfl⟩
  | error fault =>
      right
      obtain ⟨before, nodes, inside, token, rest, htokens, -, hflaw⟩ := hreads.flawed_of_recognise houtcome
      have hmem : token ∈ Part.tokens d Location.start parts := by simp [htokens]
      have hkind : token.kind ≠ .eof := Cursor.kind_ne_eof (hreads.ahead_whole Location.start ▸ hmem)
      refine ⟨token, ?_, hkind, fault, hflaw.textFault fun _ => (hreads.eq_tooLong hmem ·), rfl⟩
      rw [Piece.tokens_append]
      exact List.mem_append_left _ hmem

/-- The end of a block comment has an argument. -/
theorem recognise_eq_ok_or_textFault_comment_end :
    ∃ tokens, (Delimiters.standard.scan
        "\x7b% comment %\x7d\x7b% 1 %\x7d\x7b% endcomment x %\x7d").outcome = .ok tokens ∧
      ∃ token ∈ tokens, token.kind ≠ .eof ∧ ∃ fault, TextFault [] token fault ∧
        ((Cursor.whole tokens.toArray).recognise (Tag.builtinReaders [])).outcome = .error fault := by
  obtain ⟨tokens, hscan, hrefused⟩ : ∃ tokens, (Delimiters.standard.scan
        "\x7b% comment %\x7d\x7b% 1 %\x7d\x7b% endcomment x %\x7d").outcome = .ok tokens ∧
      ((Cursor.whole tokens.toArray).recognise (Tag.builtinReaders [])).outcome =
        .error (.grammar .general (.expectedEndOfTag "comment") ⟨.name, "x", ⟨34, 1, 35⟩⟩) := by
    refine ⟨[⟨.blockBegin, "\x7b%", ⟨0, 1, 1⟩⟩, ⟨.name, "comment", ⟨3, 1, 4⟩⟩, ⟨.blockEnd, "%\x7d", ⟨11, 1, 12⟩⟩,
      ⟨.blockBegin, "\x7b%", ⟨13, 1, 14⟩⟩, ⟨.integer, "1", ⟨16, 1, 17⟩⟩, ⟨.blockEnd, "%\x7d", ⟨18, 1, 19⟩⟩,
      ⟨.blockBegin, "\x7b%", ⟨20, 1, 21⟩⟩, ⟨.name, "endcomment", ⟨23, 1, 24⟩⟩, ⟨.name, "x", ⟨34, 1, 35⟩⟩,
      ⟨.blockEnd, "%\x7d", ⟨36, 1, 37⟩⟩, ⟨.eof, "", ⟨38, 1, 39⟩⟩], ?_, ?_⟩
    all_goals cbv
  exact ⟨tokens, hscan, (recognise_eq_ok_or_textFault _ [] _ _ hscan).resolve_left (by simp [hrefused])⟩

end TagTemplate
