import Mathlib
import TagTemplate.Proofs.Meaning
import TagTemplate.Proofs.Scan
import TagTemplate.Template

/-!
# What a template renders to

A text that compiles falls into parts that have a meaning, and rendering gives that meaning: the output and
the source of randomness as the parts leave them. Conversely every text whose parts have a meaning compiles.
-/

namespace TagTemplate

open Cursor (Inner Marks)
open Grammar

/-! ### Execution -/

/-- Executing nodes adds what is drawn to the output and leaves the source as drawing it does. -/
def Node.Executes (nodes : List Node) (meaning : Draw String) : Prop :=
  ∀ renderer : Renderer, Node.executeAll nodes renderer =
    .ok () ⟨renderer.output ++ (meaning renderer.source).1, (meaning renderer.source).2⟩

namespace Node

variable {nodes : List Node} {meaning : Draw String}

theorem executeAll_cons_of_ok {node : Node} {renderer renderer' : Renderer}
    (h : node.execute renderer = .ok () renderer') :
    executeAll (node :: nodes) renderer = executeAll nodes renderer' := by
  rw [executeAll, bind_of_ok h]

theorem executeAll_joinTo (value : String) (nodes : List Node) (renderer : Renderer) :
    executeAll ((data value).joinTo nodes) renderer =
      executeAll nodes ⟨renderer.output ++ value, renderer.source⟩ := by
  unfold joinTo
  split
  · rename_i before after nodes hdata
    obtain rfl := Node.data.inj hdata
    refine (executeAll_cons_of_ok rfl).trans ?_
    rw [← String.append_assoc]
    exact (executeAll_cons_of_ok rfl).symm
  · exact executeAll_cons_of_ok rfl

theorem executes_nil : Executes [] (pure "") := by
  intro renderer
  simp [executeAll, pure, EStateM.pure, StateT.pure]

theorem Executes.text (h : Executes nodes meaning) (value : String) :
    Executes ((data value).joinTo nodes) (do
      let rest ← meaning
      return value ++ rest) := by
  intro renderer
  rw [executeAll_joinTo, h, String.append_assoc]
  rfl

theorem execute_lorem (opening location : Token) (name : String) (count : Int) (mode : Lorem.Mode)
    (random : Bool) (renderer : Renderer) :
    (block opening name (.lorem location count mode.letter random)).execute renderer =
      .ok () ⟨renderer.output ++ (Lorem.generate count mode random renderer.source).1,
        (Lorem.generate count mode random renderer.source).2⟩ := by
  rw [execute, Statement.execute, Lorem.Mode.ofLetter?_letter]
  rfl

theorem Executes.lorem (h : Executes nodes meaning) (opening location : Token) (name : String) (count : Int)
    (mode : Lorem.Mode) (random : Bool) :
    Executes (block opening name (.lorem location count mode.letter random) :: nodes) (do
      let filler ← Lorem.generate count mode random
      let rest ← meaning
      return filler ++ rest) := by
  intro renderer
  rw [executeAll_cons_of_ok (execute_lorem opening location name count mode random renderer), h,
    String.append_assoc]
  rfl

theorem Executes.comment (h : Executes nodes meaning) (opening location : Token) (name : String) :
    Executes (.block opening name (.comment location) :: nodes) meaning := by
  intro renderer
  rw [executeAll_cons_of_ok rfl]
  exact h renderer

end Node

/-! ### From meanings to derivations -/

namespace Grammar

variable {pieces : List Piece} {place : Location} {count : Int} {letter : String} {random : Bool}

theorem Choice.change_place (h : Choice (Piece.tokens place pieces) letter random) (place' : Location) :
    Choice (Piece.tokens place' pieces) letter random := by
  rcases pieces with _ | ⟨piece, _ | ⟨piece', _ | ⟨piece'', pieces⟩⟩⟩
  · exact h
  · cases h with
    | mode hkind hvalue => exact .mode hkind hvalue
  · cases h with
    | random hkind hvalue hkind' hvalue' => exact .random hkind hvalue hkind' hvalue'
  · cases h

theorem Arguments.change_place (h : Arguments (Piece.tokens place pieces) count letter random)
    (place' : Location) : Arguments (Piece.tokens place' pieces) count letter random := by
  generalize htokens : Piece.tokens place pieces = tokens at h
  cases h with
  | uncounted hchoice => exact .uncounted (Choice.change_place (htokens ▸ hchoice) place')
  | counted hkind hnumber hchoice =>
      cases pieces with
      | nil => simp at htokens
      | cons piece pieces =>
          obtain ⟨rfl, rfl⟩ := List.cons.inj htokens
          exact .counted hkind hnumber (hchoice.change_place _)

end Grammar

namespace Part

variable {d : Delimiters} {start : Location}

theorem isChain_of_kind_ne {names : List String} {tokens : List Token}
    (h : ∀ token ∈ tokens, token.kind ≠ .blockBegin) :
    tokens.IsChain fun token next => ¬Marks names token next := by
  induction tokens with
  | nil => exact .nil
  | cons token tokens ih =>
      rw [List.forall_mem_cons] at h
      exact (ih h.2).cons fun _ _ hmarks => h.1 hmarks.1

theorem kind_ne_name_of_head? {parts : List Part} {token : Token}
    (h : (tokens d start parts).head? = some token) : token.kind ≠ .name := by
  cases parts with
  | nil => simp [tokens] at h
  | cons part parts =>
      rw [tokens_cons] at h
      cases part with
      | text | comment | tag =>
          obtain rfl := Option.some.inj h
          simp

/-- Parts that do not end a block comment have no mark of its end. -/
theorem isChain_tokens {parts : List Part} (hlexical : ∀ part ∈ parts, part.Lexical)
    (hends : ∀ part ∈ parts, ¬part.EndsComment) :
    (tokens d start parts).IsChain fun token next => ¬Marks ["endcomment"] token next := by
  induction parts generalizing start with
  | nil => exact .nil
  | cons part parts ih =>
      obtain ⟨hpart, hparts⟩ := List.forall_mem_cons.1 hlexical
      obtain ⟨hend, hrest⟩ := List.forall_mem_cons.1 hends
      rw [tokens_cons]
      refine List.IsChain.append ?_ (ih hparts hrest) fun token _ next hnext hmarks =>
        kind_ne_name_of_head? hnext hmarks.2.1
      cases part with
      | text value => exact .singleton _
      | comment content =>
          apply isChain_of_kind_ne
          cases content <;> simp [pieces, body, Piece.tokens]
      | tag lexemes gap =>
          obtain ⟨opening, closing, place, -, hclosing, htag⟩ :=
            exists_tokens_tag (d := d) start lexemes gap
          rw [htag]
          refine (isChain_of_kind_ne ?_).cons ?_
          · exact (hpart.inner place).kind_ne_blockBegin hclosing
          · intro next hnext hmarks
            cases lexemes with
            | nil =>
                obtain rfl := Option.some.inj hnext
                exact absurd (hclosing.symm.trans hmarks.2.1) (by decide)
            | cons lexeme lexemes =>
                obtain rfl := Option.some.inj hnext
                exact hend ⟨lexeme, lexemes, gap, rfl, hmarks.2.1, List.mem_singleton.1 hmarks.2.2⟩

/-- A tag for filler text is a construct, wherever it stands. -/
theorem construct_lorem {disabled : List String} {name : Piece} {arguments : List Piece} {gap : List Char}
    {place : Location} {count : Int} {letter : String} {random : Bool} (henabled : "lorem" ∉ disabled)
    (hname : name.kind = .name) (hvalue : String.ofList name.value = "lorem")
    (harguments : Arguments (Piece.tokens place arguments) count letter random) :
    ∃ opening location, Construct disabled (Piece.tokens start ((tag (name :: arguments) gap).pieces d))
      (some (.block opening "lorem" (.lorem location count letter random))) := by
  obtain ⟨opening, closing, place', hopening, hclosing, htag⟩ :=
    exists_tokens_tag (d := d) start (name :: arguments) gap
  have harguments' := harguments.change_place (place'.after name.source)
  obtain ⟨location, tokens, hlocation⟩ := List.exists_cons_of_ne_nil
    (List.append_ne_nil_of_right_ne_nil (Piece.tokens (place'.after name.source) arguments)
      (List.cons_ne_nil closing []))
  have hhead : (Piece.tokens (place'.after name.source) arguments ++ [closing]).head? = some location := by
    rw [hlocation]
    rfl
  rw [htag]
  exact ⟨_, _, .lorem henabled hopening hname hvalue harguments' hclosing hhead⟩

/-- A block comment with everything in it is a construct, wherever it stands. -/
theorem construct_comment {disabled : List String} {name endName : Piece} {gap gap' : List Char}
    {body : List Part} (henabled : "comment" ∉ disabled) (hname : name.kind = .name)
    (hvalue : String.ofList name.value = "comment") (hlexical : ∀ part ∈ body, part.Lexical)
    (hbody : ∀ part ∈ body, ¬part.EndsComment) (hendName : endName.kind = .name)
    (hendValue : String.ofList endName.value = "endcomment") :
    ∃ opening location, Construct disabled (tokens d start (tag [name] gap :: (body ++ [tag [endName] gap'])))
      (some (.block opening "comment" (.comment location))) := by
  obtain ⟨opening, closing, place, hopening, hclosing, htag⟩ := exists_tokens_tag (d := d) start [name] gap
  rw [tokens_cons, tokens_append, tokens_cons, htag]
  generalize start.after ((tag [name] gap).source d) = start'
  obtain ⟨opening', closing', place', hopening', hclosing', htag'⟩ :=
    exists_tokens_tag (d := d) (start'.after (sources d body)) [endName] gap'
  have hchain : (tokens d start' body).IsChain fun token next => ¬Marks ["endcomment"] token next :=
    isChain_tokens hlexical hbody
  have hconstruct : Construct disabled
      (opening :: ⟨name.kind, String.ofList name.value, place.after name.gap⟩ :: closing ::
        (tokens d start' body ++
          [opening', ⟨endName.kind, String.ofList endName.value, place'.after endName.gap⟩, closing']))
      (some (.block opening "comment" (.comment closing))) :=
    .comment henabled hopening hname hvalue hclosing hchain hopening' hendName hendValue hclosing'
  refine ⟨opening, closing, ?_⟩
  simpa [htag', Piece.tokens, tokens] using hconstruct

end Part

variable {disabled : List String} {parts : List Part} {meaning : Draw String}

/-- The tokens of parts with a meaning derive from the grammar, as nodes that do what the parts mean. -/
theorem Means.exists_derives (h : Means disabled parts meaning) (hlexical : ∀ part ∈ parts, part.Lexical)
    (d : Delimiters) (start : Location) :
    ∃ nodes, Derives disabled (Part.tokens d start parts) nodes ∧ Node.Executes nodes meaning := by
  induction h generalizing start with
  | nil => exact ⟨[], .nil, Node.executes_nil⟩
  | @text value parts meaning hmeans ih =>
      obtain ⟨-, hparts⟩ := List.forall_mem_cons.1 hlexical
      obtain ⟨nodes, hderives, hexecutes⟩ := ih hparts (start.after ((Part.text value).source d))
      rw [Part.tokens_cons]
      exact ⟨_, .cons (.data rfl) hderives (joins_iff.2 rfl), hexecutes.text (String.ofList value)⟩
  | @shortComment content parts meaning hmeans ih =>
      obtain ⟨-, hparts⟩ := List.forall_mem_cons.1 hlexical
      obtain ⟨nodes, hderives, hexecutes⟩ := ih hparts (start.after ((Part.comment content).source d))
      obtain ⟨opening, body, closing, hopening, hbody, hclosing, hcomment⟩ :=
        Part.exists_tokens_comment (d := d) start content
      rw [Part.tokens_cons, hcomment]
      exact ⟨nodes, .cons (.shortComment hopening hbody hclosing) hderives .silent, hexecutes⟩
  | @lorem name arguments gap place count mode random parts meaning henabled hname hvalue harguments hmeans
      ih =>
      obtain ⟨-, hparts⟩ := List.forall_mem_cons.1 hlexical
      obtain ⟨nodes, hderives, hexecutes⟩ :=
        ih hparts (start.after ((Part.tag (name :: arguments) gap).source d))
      obtain ⟨opening, location, hconstruct⟩ := Part.construct_lorem henabled hname hvalue harguments
      rw [Part.tokens_cons]
      exact ⟨_, .cons hconstruct hderives (joins_iff.2 rfl), hexecutes.lorem opening location _ count mode random⟩
  | @comment name endName gap gap' body parts meaning henabled hname hvalue hbody hendName hendValue hmeans
      ih =>
      have hinside : ∀ part ∈ body, part.Lexical := fun part hmem => hlexical part (by simp [hmem])
      have hparts : ∀ part ∈ parts, part.Lexical := fun part hmem => hlexical part (by simp [hmem])
      rw [List.append_cons, ← List.cons_append, Part.tokens_append]
      obtain ⟨opening, location, hconstruct⟩ :=
        Part.construct_comment henabled hname hvalue hinside hbody hendName hendValue
      obtain ⟨nodes, hderives, hexecutes⟩ := ih hparts _
      exact ⟨_, .cons hconstruct hderives (joins_iff.2 rfl), hexecutes.comment opening location "comment"⟩

/-! ### The whole way -/

namespace Delimiters.Reads

variable {d : Delimiters} {text : String}

theorem outcome_scan (h : d.Reads parts text.toList []) :
    (d.scan text).outcome = .ok (Piece.tokens Location.start (Part.allPieces d parts ++ [Piece.final])) :=
  Mode.outcome_eq_ok_iff.2 ⟨parts, h, rfl⟩

/-- What a cursor over the tokens of a text sees is all of them but the end. -/
theorem ahead_whole (h : d.Reads parts text.toList []) (start : Location) :
    (Cursor.whole (Piece.tokens start (Part.allPieces d parts ++ [Piece.final])).toArray).ahead =
      Part.tokens d start parts := by
  rw [Cursor.ahead_whole, Piece.tokens_append, List.takeWhile_append_of_pos]
  · exact List.append_nil _
  · intro token hmem
    obtain ⟨front, piece, back, hpieces, rfl⟩ := Piece.exists_of_mem_tokens hmem
    have hpiece : piece ∈ Part.allPieces d parts := by simp [hpieces]
    simpa using (h.piece hpiece).1

end Delimiters.Reads

theorem Compiler.nodesOf_of_reads (config : Config) {text : String}
    (hreads : config.delimiters.Reads parts text.toList []) :
    (Compiler.ofConfig config).nodesOf text =
      ((Cursor.whole (Piece.tokens Location.start
        (Part.allPieces config.delimiters parts ++ [Piece.final])).toArray).recognise
          (Tag.builtinReaders config.disabled)).outcome := by
  rw [nodesOf, scan, ofConfig, hreads.outcome_scan]
  rfl

theorem Compiler.nodesOf_eq_ok_iff (config : Config) {text : String} {parts : List Part}
    (hreads : config.delimiters.Reads parts text.toList []) {nodes : List Node} :
    (Compiler.ofConfig config).nodesOf text = .ok nodes ↔
      Derives config.disabled (Part.tokens config.delimiters Location.start parts) nodes := by
  rw [nodesOf_of_reads config hreads, ← hreads.ahead_whole]
  exact Cursor.outcome_recognise_eq_ok_iff (Cursor.placed_whole _)

section

variable {config : Config} {text : String}

/-- A text whose parts have a meaning compiles, and renders to what they mean. -/
theorem compile_of_means (name : String) (hreads : config.delimiters.Reads parts text.toList [])
    (hmeans : Means config.disabled parts meaning) :
    ∃ template, (Compiler.ofConfig config).compile text name = .ok template ∧ ∀ given fresh,
      template.render given fresh =
        ⟨.ok (meaning (template.sourceOf given fresh)).1, (meaning (template.sourceOf given fresh)).2⟩ := by
  obtain ⟨nodes, hderives, hexecutes⟩ :=
    hmeans.exists_derives hreads.lexical config.delimiters Location.start
  refine ⟨⟨name, nodes, config.seed⟩, ?_, fun given fresh => ?_⟩
  · rw [Compiler.compile, (Compiler.nodesOf_eq_ok_iff config hreads).2 hderives]
    rfl
  · rw [Template.render, Template.renderFrom, hexecutes]
    simp [Renderer.ofSource]

/-- The nodes of a template derive from the tokens of its text. -/
theorem exists_derives_of_compile {name : String} {template : Template}
    (h : (Compiler.ofConfig config).compile text name = .ok template) :
    ∃ parts, config.delimiters.Reads parts text.toList [] ∧
      Derives config.disabled (Part.tokens config.delimiters Location.start parts) template.nodes := by
  cases hnodes : (Compiler.ofConfig config).nodesOf text with
  | error fault => simp [Compiler.compile, hnodes] at h
  | ok nodes =>
      have htemplate : ⟨name, nodes, config.seed⟩ = template := by
        rw [Compiler.compile, hnodes] at h
        exact Except.ok.inj h
      subst htemplate
      cases hscan : (config.delimiters.scan text).outcome with
      | error error => simp [Compiler.nodesOf, Compiler.scan, Compiler.ofConfig, hscan] at hnodes
      | ok tokens =>
          obtain ⟨parts, hreads, -⟩ := Mode.outcome_eq_ok_iff.1 hscan
          exact ⟨parts, hreads, (Compiler.nodesOf_eq_ok_iff config hreads).1 hnodes⟩

theorem exists_means_of_compile {name : String} {template : Template}
    (h : (Compiler.ofConfig config).compile text name = .ok template) :
    ∃ parts meaning, config.delimiters.Reads parts text.toList [] ∧
      Means config.disabled parts meaning := by
  obtain ⟨parts, hreads, hderives⟩ := exists_derives_of_compile h
  obtain ⟨meaning, hmeans⟩ := exists_means_of_derives hreads.lexical hderives
  exact ⟨parts, meaning, hreads, hmeans⟩

end

/-- A template that compiles renders to what the parts of its text mean. A text in which nothing opens
compiles, and renders to itself. -/
theorem render_eq_meaning_of_compile (config : Config) (text name : String) :
    (∀ template, (Compiler.ofConfig config).compile text name = .ok template →
      ∃ parts meaning, config.delimiters.Reads parts text.toList [] ∧
        Means config.disabled parts meaning ∧ ∀ given fresh,
          template.render given fresh =
            ⟨.ok (meaning (template.sourceOf given fresh)).1, (meaning (template.sourceOf given fresh)).2⟩) ∧
    ((∀ i, ¬config.delimiters.Opens (text.toList.drop i)) →
      ∃ template, (Compiler.ofConfig config).compile text name = .ok template ∧ ∀ given fresh,
        template.render given fresh = ⟨.ok text, template.sourceOf given fresh⟩) := by
  refine ⟨?_, ?_⟩
  · intro template h
    obtain ⟨parts, meaning, hreads, hmeans⟩ := exists_means_of_compile h
    obtain ⟨template', htemplate, hrender⟩ := compile_of_means name hreads hmeans
    obtain rfl : template = template' := Except.ok.inj (h.symm.trans htemplate)
    exact ⟨parts, meaning, hreads, hmeans, hrender⟩
  · intro hopens
    by_cases hempty : text = ""
    · subst hempty
      exact compile_of_means name .done .nil
    · have hclear : Text.Clear config.delimiters.Opens text.toList [] := by
        intro before after hsplit hne hfound
        apply hopens before.length
        rwa [hsplit, List.drop_left, ← List.append_nil after]
      have hstands : (Part.text text.toList).Stands config.delimiters [] :=
        ⟨mt String.toList_eq_nil_iff.1 hempty, hclear, .inl rfl⟩
      have hreads : config.delimiters.Reads [.text text.toList] text.toList [] := by
        have hpart := Delimiters.Reads.part hstands .done
        rwa [Part.source_text, List.append_nil] at hpart
      have hmeans : Means config.disabled [.text text.toList] _ := .text .nil
      obtain ⟨template, htemplate, hrender⟩ := compile_of_means name hreads hmeans
      refine ⟨template, htemplate, fun given fresh => (hrender given fresh).trans ?_⟩
      simp [bind, StateT.bind, pure, StateT.pure]

/-- Random words, a block comment with a tag that nobody knows in it, and plain text. -/
theorem render_eq_meaning_of_compile_random_words :
    (∃ template parts meaning,
      (Compiler.ofConfig {}).compile
          "a\x7b% lorem 2 w random %\x7d\x7b% comment %\x7d\x7b% x %\x7d\x7b% endcomment %\x7db" "t" =
        .ok template ∧
      Delimiters.standard.Reads parts
        "a\x7b% lorem 2 w random %\x7d\x7b% comment %\x7d\x7b% x %\x7d\x7b% endcomment %\x7db".toList [] ∧
      Means [] parts meaning ∧ ∀ given fresh, template.render given fresh =
        ⟨.ok (meaning (template.sourceOf given fresh)).1, (meaning (template.sourceOf given fresh)).2⟩) ∧
    ∃ template, (Compiler.ofConfig {}).compile "\x7b" "t" = .ok template ∧ ∀ given fresh,
      template.render given fresh = ⟨.ok "\x7b", template.sourceOf given fresh⟩ := by
  refine ⟨?_, (render_eq_meaning_of_compile {} "\x7b" "t").2 ?_⟩
  · have hcompile : (Compiler.ofConfig {}).compile
        "a\x7b% lorem 2 w random %\x7d\x7b% comment %\x7d\x7b% x %\x7d\x7b% endcomment %\x7db" "t" =
      .ok ⟨"t", [.data "a",
        .block ⟨.blockBegin, "\x7b%", ⟨1, 1, 2⟩⟩ "lorem" (.lorem ⟨.integer, "2", ⟨10, 1, 11⟩⟩ 2 "w" true),
        .block ⟨.blockBegin, "\x7b%", ⟨23, 1, 24⟩⟩ "comment" (.comment ⟨.blockEnd, "%\x7d", ⟨34, 1, 35⟩⟩),
        .data "b"], none⟩ := by
      cbv
    obtain ⟨parts, meaning, hmeaning⟩ := (render_eq_meaning_of_compile {} _ "t").1 _ hcompile
    exact ⟨_, parts, meaning, hcompile, hmeaning⟩
  · rintro i (h | h)
    all_goals
      have hlength := h.length_le
      rw [List.length_drop] at hlength
      change 2 ≤ 1 - i at hlength
      omega

end TagTemplate
