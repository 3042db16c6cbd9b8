import Mathlib
import TagTemplate.Proofs.Acceptance
import TagTemplate.Proofs.Passage

/-!
# What nodes are recognised from

Whatever tags there are, as long as their readers only drive the outer cursor: recognition takes the tokens of its
region in spans that follow each other without a gap. A span is a text, a short comment, or a tag together with what its
reader has passed. The blocks are those of the tags, in their order, and the texts are what stands between two of them.
-/

namespace TagTemplate

/-- Text that is part of a template. -/
def Node.isData : Node → Bool
  | .data _ => true
  | _ => false

/-- Some texts as one node, if there are any. -/
def Node.ofTexts : List String → List Node
  | [] => []
  | texts => [.data (String.join texts)]

/-- What is recognised in one step, with the tokens that it takes. A tag takes those that its reader has passed as
well. -/
inductive Span where
  | text (token : Token)
  | comment (tokens : List Token)
  | tag (opening name : Token) (rest : List Token) (statement : Statement)

namespace Span

def tokens : Span → List Token
  | text token => [token]
  | comment tokens => tokens
  | tag opening name rest _ => opening :: name :: rest

/-- What a span is recognised as. A short comment is no node. -/
def node? : Span → Option Node
  | text token => some (.data token.value)
  | comment _ => none
  | tag opening name _ statement => some (.block opening name.value statement)

/-- The text of a span that is nothing but text. -/
def text? : Span → Option String
  | text token => some token.value
  | _ => none

/-- The block of a span that is a tag. -/
def block? : Span → Option Node
  | tag opening name _ statement => some (.block opening name.value statement)
  | _ => none

/-- The tokens of a span are such as to be recognised like this. Those of a tag begin with its own, up to the delimiter
that closes it, and they end with such a delimiter. -/
inductive Stands (registry : Registry Tag.Reader) : Span → Prop
  | text {token : Token} : token.kind = .data → Stands registry (text token)
  | comment {opening closing : Token} {content : Option Token} :
      opening.kind = .commentBegin → (∀ token ∈ content, token.kind = .data) → closing.kind = .commentEnd →
      Stands registry (comment (opening :: (content.toList ++ [closing])))
  | tag {opening name : Token} {arguments body : List Token} {statement : Statement} :
      opening.kind = .blockBegin → name.kind = .name → (registry.lookup name.value).isSome → Cursor.Inner arguments →
      (∃ closing ∈ body.head?, closing.kind = .blockEnd) → (∃ ending ∈ body.getLast?, ending.kind = .blockEnd) →
      Stands registry (tag opening name (arguments ++ body) statement)

/-- The node of a gap between two tags: all texts in it as one, if there are any. -/
def gapNodes (gap : List Span) : List Node :=
  Node.ofTexts (gap.filterMap text?)

/-- Nodes have the form of some spans: the tags, and in each gap between them its text. -/
inductive Forms : List Span → List Node → Prop
  | gap {gap : List Span} : (∀ span ∈ gap, span.block? = none) → Forms gap (gapNodes gap)
  | block {gap spans : List Span} {nodes : List Node} {opening name : Token} {rest : List Token}
      {statement : Statement} :
      (∀ span ∈ gap, span.block? = none) → Forms spans nodes →
      Forms (gap ++ tag opening name rest statement :: spans)
        (gapNodes gap ++ .block opening name.value statement :: nodes)

end Span

open TagTemplate.Span

variable {registry : Registry Tag.Reader} {nested : Tag.Nested} {cursor cursor' final : Cursor} {span : Span}
  {gap spans : List Span} {node : Node} {nodes : List Node}

/-! ### One node for each gap -/

/-- The nodes of spans as recognition puts them together. -/
def Span.nodesOf (spans : List Span) : List Node :=
  spans.foldr (fun span nodes => span.node?.elim nodes (·.joinTo nodes)) []

theorem Span.gapNodes_comment (tokens : List Token) (gap : List Span) :
    gapNodes (comment tokens :: gap) = gapNodes gap := rfl

theorem Node.ofTexts_cons (text : String) (texts : List String) :
    ofTexts (text :: texts) = [.data (text ++ String.join texts)] := by
  rw [ofTexts, String.join_cons]
  exact List.cons_ne_nil _ _

/-- A text in front of a gap is part of the gap. -/
theorem Span.joinTo_gapNodes (token : Token) (gap : List Span) (hnodes : ∀ node ∈ nodes.head?, node.isData = false) :
    (Node.data token.value).joinTo (gapNodes gap ++ nodes) = gapNodes (text token :: gap) ++ nodes := by
  have htexts : gapNodes (text token :: gap) = Node.ofTexts (token.value :: gap.filterMap text?) := rfl
  rw [htexts, Node.ofTexts_cons, gapNodes]
  cases gap.filterMap text? with
  | cons after texts => rw [Node.ofTexts_cons, String.join_cons]; rfl
  | nil =>
      rw [String.join_nil, String.append_empty]
      cases nodes with
      | nil => rfl
      | cons node nodes =>
          have hnode := hnodes node rfl
          cases node with
          | data => cases hnode
          | _ => rfl

theorem Span.Forms.text (h : Forms spans nodes) (token : Token) :
    Forms (text token :: spans) ((Node.data token.value).joinTo nodes) := by
  cases h with
  | gap hgap =>
      have hjoin : (Node.data token.value).joinTo (gapNodes spans ++ []) = gapNodes (text token :: spans) ++ [] :=
        joinTo_gapNodes token spans nofun
      rw [List.append_nil, List.append_nil] at hjoin
      rw [hjoin]
      exact .gap (List.forall_mem_cons.2 ⟨rfl, hgap⟩)
  | block hgap hforms =>
      rw [joinTo_gapNodes _ _ (by simp [Node.isData])]
      exact .block (List.forall_mem_cons.2 ⟨rfl, hgap⟩) hforms

theorem Span.Forms.comment (h : Forms spans nodes) (tokens : List Token) : Forms (comment tokens :: spans) nodes := by
  cases h with
  | gap hgap =>
      rw [← gapNodes_comment tokens spans]
      exact .gap (List.forall_mem_cons.2 ⟨rfl, hgap⟩)
  | @block gap _ _ _ _ _ _ hgap hforms =>
      rw [← gapNodes_comment tokens gap]
      exact .block (List.forall_mem_cons.2 ⟨rfl, hgap⟩) hforms

theorem Span.forms_nodesOf (spans : List Span) : Forms spans (nodesOf spans) := by
  induction spans with
  | nil => exact .gap nofun
  | cons span spans ih =>
      cases span with
      | text token => exact ih.text token
      | comment tokens => exact ih.comment tokens
      | tag opening name rest statement =>
          have hgap : ∀ span ∈ ([] : List Span), span.block? = none := nofun
          exact .block hgap ih

theorem Span.isData_of_mem_gapNodes (h : node ∈ gapNodes gap) : node.isData := by
  rw [gapNodes] at h
  cases htexts : gap.filterMap text? with
  | nil =>
      rw [htexts] at h
      cases h
  | cons text texts =>
      rw [htexts, Node.ofTexts_cons] at h
      rw [List.mem_singleton.1 h]
      rfl

theorem Span.isChain_gapNodes (gap : List Span) :
    (gapNodes gap).IsChain fun node next => ¬(node.isData ∧ next.isData) := by
  rw [gapNodes]
  cases gap.filterMap text? with
  | nil => exact .nil
  | cons text texts => exact .singleton _

/-- No two texts follow each other. -/
theorem Span.Forms.isChain (h : Forms spans nodes) :
    nodes.IsChain fun node next => ¬(node.isData ∧ next.isData) := by
  induction h with
  | gap => exact isChain_gapNodes _
  | block _ _ ih =>
      refine List.isChain_append.2 ⟨isChain_gapNodes _, List.isChain_cons.2 ⟨?_, ih⟩, ?_⟩
      · simp [Node.isData]
      · simp [Node.isData]

/-- What is no text is the block of a tag. -/
theorem Span.Forms.filter_not_isData (h : Forms spans nodes) :
    nodes.filter (!·.isData) = spans.filterMap block? := by
  have hgapNodes : ∀ gap, (gapNodes gap).filter (!·.isData) = [] := by
    intro gap
    apply List.filter_eq_nil_iff.2
    intro node hnode
    simp [isData_of_mem_gapNodes hnode]
  induction h with
  | gap hgap => rw [hgapNodes, List.filterMap_eq_nil_iff.2 hgap]
  | block hgap _ ih =>
      rw [List.filter_append, hgapNodes, List.filterMap_append, List.filterMap_eq_nil_iff.2 hgap, List.nil_append,
        List.nil_append, List.filter_cons_of_pos rfl, ih]
      rfl

/-! ### One step -/

section Steps

variable (hreaders : ∀ name reader, registry.lookup name = some reader → Tag.Scope.passage.Carries (reader nested))

include hreaders

theorem exists_tag_of_recogniseBlock (h : recogniseBlock registry nested cursor = .ok node final) :
    ∃ span : Span, span.Stands registry ∧ span.node? = some node ∧ cursor.Passes span.tokens final := by
  rw [recogniseBlock] at h
  obtain ⟨opening, _, hopening, h⟩ := bind_eq_ok_iff.1 h
  obtain ⟨hopeningFaces, hopeningKind, rfl⟩ := Cursor.faces_of_expect hopening
  obtain ⟨name?, _, hname, h⟩ := bind_eq_ok_iff.1 h
  cases name? with
  | none => exact absurd h Cursor.refuse_ne_ok
  | some name =>
      obtain ⟨hnameFaces, hnameKind, rfl⟩ := Cursor.faces_of_take? hname
      cases hreader : registry.lookup name.value with
      | none =>
          simp only [hreader] at h
          exact absurd h throw_ne_ok
      | some reader =>
          simp only [hreader] at h
          obtain ⟨close?, _, hclose, h⟩ := bind_eq_ok_iff.1 h
          cases close? with
          | none => exact absurd h throw_ne_ok
          | some close =>
              obtain ⟨rfl, arguments, closing, behind, hpasses, hclosingFaces, hclosingKind, hinner, rfl⟩ :=
                Cursor.passes_of_closing? hclose
              obtain ⟨statement, reached, hread, h⟩ := bind_eq_ok_iff.1 h
              obtain ⟨rest, hrest⟩ := reaches_of_readTag (hreaders _ _ hreader) hpasses hread
              obtain ⟨ending, _, hending, h⟩ := bind_eq_ok_iff.1 h
              obtain ⟨hendingFaces, hendingKind, rfl⟩ := Cursor.faces_of_expect hending
              obtain ⟨rfl, rfl⟩ := pure_eq_ok_iff.1 h
              -- What is behind the arguments begins with `closing`, which is `ending` if the reader did not go on.
              have hbehind := hrest.append hendingFaces.passes
              have hclosing : closing ∈ (rest ++ [ending]).head? := by
                cases hbody : rest ++ [ending] with
                | nil => simp at hbody
                | cons token body =>
                    rw [hbody] at hbehind
                    cases hbehind with
                    | cons hfaces => rw [hclosingFaces.unique hfaces]; rfl
              refine ⟨.tag opening name (arguments ++ (rest ++ [ending])) statement, ?_, rfl,
                .cons hopeningFaces (.cons hnameFaces (hpasses.append hbehind))⟩
              exact .tag hopeningKind (List.mem_singleton.1 hnameKind) (by rw [hreader]; rfl) hinner
                ⟨closing, hclosing, hclosingKind⟩ ⟨ending, by simp, hendingKind⟩

omit hreaders in
theorem exists_comment_of_skipShortComment (h : skipShortComment cursor = .ok () final) :
    ∃ tokens, (Span.comment tokens).Stands registry ∧ cursor.Passes tokens final := by
  rw [skipShortComment] at h
  obtain ⟨opening, _, hopening, h⟩ := bind_eq_ok_iff.1 h
  obtain ⟨hopeningFaces, hopeningKind, rfl⟩ := Cursor.faces_of_expect hopening
  obtain ⟨content, behind, hcontent, h⟩ := bind_eq_ok_iff.1 h
  obtain ⟨closing, _, hclosing, h⟩ := bind_eq_ok_iff.1 h
  obtain ⟨hclosingFaces, hclosingKind, rfl⟩ := Cursor.faces_of_expect hclosing
  obtain ⟨-, rfl⟩ := pure_eq_ok_iff.1 h
  refine ⟨opening :: (content.toList ++ [closing]), ?_, .cons hopeningFaces ?_⟩
  · refine .comment hopeningKind (fun token htoken => ?_) hclosingKind
    obtain rfl := Option.mem_def.1 htoken
    exact List.mem_singleton.1 (Cursor.faces_of_take? hcontent).2.1
  · cases content with
    | none =>
        obtain rfl := Cursor.eq_of_take?_eq_none hcontent
        exact hclosingFaces.passes
    | some token =>
        obtain ⟨hfaces, -, rfl⟩ := Cursor.faces_of_take? hcontent
        exact .cons hfaces hclosingFaces.passes

theorem exists_span_of_recogniseNext (hfaces : ∃ token, cursor.Faces token) {node? : Option Node}
    (h : recogniseNext registry nested cursor = .ok node? final) :
    ∃ span : Span, span.Stands registry ∧ span.node? = node? ∧ cursor.Passes span.tokens final := by
  obtain ⟨token, hfaces⟩ := hfaces
  rw [recogniseNext, bind_of_ok hfaces.current_eq] at h
  cases hkind : token.kind with
  | data =>
      simp only [hkind, bind_of_ok hfaces.advance_eq] at h
      obtain ⟨rfl, rfl⟩ := pure_eq_ok_iff.1 h
      exact ⟨.text token, .text hkind, rfl, hfaces.passes⟩
  | blockBegin =>
      simp only [hkind] at h
      obtain ⟨node, _, hblock, h⟩ := bind_eq_ok_iff.1 h
      obtain ⟨rfl, rfl⟩ := pure_eq_ok_iff.1 h
      exact exists_tag_of_recogniseBlock hreaders hblock
  | commentBegin =>
      simp only [hkind] at h
      obtain ⟨_, _, hcomment, h⟩ := bind_eq_ok_iff.1 h
      obtain ⟨rfl, rfl⟩ := pure_eq_ok_iff.1 h
      obtain ⟨tokens, hstands, hpasses⟩ := exists_comment_of_skipShortComment hcomment
      exact ⟨.comment tokens, hstands, rfl, hpasses⟩
  | _ =>
      simp only [hkind] at h
      exact absurd h Cursor.refuse_ne_ok

end Steps

/-! ### All steps -/

/-- Recognition goes from one span to the next, until the cursor is at its bound or at the end of the text. -/
inductive Travels (registry : Registry Tag.Reader) (nested : Tag.Nested) : Cursor → List Span → Cursor → Prop
  | ended {cursor : Cursor} : Cursor.atEnd cursor = .ok true cursor → Travels registry nested cursor [] cursor
  | step {cursor cursor' final : Cursor} {span : Span} {spans : List Span} :
      recogniseNext registry nested cursor = .ok span.node? cursor' → span.Stands registry →
      cursor.Passes span.tokens cursor' → Travels registry nested cursor' spans final →
      Travels registry nested cursor (span :: spans) final

theorem Travels.passes (h : Travels registry nested cursor spans final) :
    cursor.Passes (spans.flatMap Span.tokens) final := by
  induction h with
  | ended => exact .nil _
  | step _ _ hpasses _ ih => exact hpasses.append ih

theorem Travels.atEnd (h : Travels registry nested cursor spans final) : Cursor.atEnd final = .ok true final := by
  induction h with
  | ended hend => exact hend
  | step _ _ _ _ ih => exact ih

theorem Span.Stands.length_pos (h : span.Stands registry) : 0 < span.tokens.length := by
  cases h <;> exact Nat.succ_pos _

/-- The bound on the steps of recognition is never met. -/
theorem exists_travels
    (hreaders : ∀ name reader, registry.lookup name = some reader → Tag.Scope.passage.Carries (reader nested))
    {steps : Nat} (hsteps : cursor.room ≤ steps)
    (hok : (recogniseSteps registry nested steps cursor).outcome = .ok nodes) :
    ∃ spans, Travels registry nested cursor spans (recogniseSteps registry nested steps cursor).cursor ∧
      nodes = nodesOf spans := by
  induction steps generalizing cursor nodes with
  | zero =>
      have hend : Cursor.atEnd cursor = .ok true cursor := by
        rw [Cursor.room] at hsteps
        rw [Cursor.atEnd, get_bind, if_pos (by omega)]
        rfl
      exact ⟨[], .ended hend, (Except.ok.inj hok).symm⟩
  | succ steps ih =>
      rw [recogniseSteps] at hok ⊢
      cases hend : Cursor.atEnd cursor with
      | error fault cursor' =>
          rw [hend] at hok
          cases hok
      | ok ended cursor' =>
          obtain ⟨rfl, hfaces⟩ := Cursor.atEnd_eq_ok hend
          rw [hend] at hok
          cases ended with
          | true => exact ⟨[], .ended hend, (Except.ok.inj hok).symm⟩
          | false =>
              dsimp only at hok ⊢
              cases hnext : recogniseNext registry nested cursor' with
              | error fault cursor₁ =>
                  rw [hnext] at hok
                  cases hok
              | ok node? cursor₁ =>
                  obtain ⟨span, hstands, rfl, hpasses⟩ := exists_span_of_recogniseNext hreaders (hfaces rfl) hnext
                  -- Every span has a token, so there are steps enough for the room that is left.
                  have hroom : cursor₁.room ≤ steps := by
                    have hlength := hpasses.length_le_room
                    have hpos := hstands.length_pos
                    omega
                  rw [hnext] at hok
                  cases hnode : span.node? with
                  | none =>
                      rw [hnode] at hok
                      obtain ⟨spans, htravels, rfl⟩ := ih hroom hok
                      refine ⟨span :: spans, .step hnext hstands hpasses htravels, ?_⟩
                      rw [nodesOf, nodesOf, List.foldr_cons, hnode]
                      rfl
                  | some node =>
                      rw [hnode] at hok
                      obtain ⟨nodes', hok', rfl⟩ := Recognition.outcome_cons_eq_ok_iff.1 hok
                      obtain ⟨spans, htravels, rfl⟩ := ih hroom hok'
                      refine ⟨span :: spans, .step hnext hstands hpasses htravels, ?_⟩
                      rw [nodesOf, nodesOf, List.foldr_cons, hnode]
                      rfl

/-- A block is where its tag is: at an index, with the tag's name behind it, which is one of the registry. -/
structure BlockAt (registry : Registry Tag.Reader) (cursor : Cursor) (node : Node) (index : Int) : Prop where
  position_le : cursor.position ≤ index
  lt_bound : index + 1 < cursor.bound
  exists_tokens : ∃ opening name statement, node = .block opening name.value statement ∧
    Cursor.tokenAt? cursor.tokens index = .ok opening ∧ opening.kind = .blockBegin ∧
    Cursor.tokenAt? cursor.tokens (index + 1) = .ok name ∧ name.kind = .name ∧ (registry.lookup name.value).isSome

theorem BlockAt.of_skip {index : Int} {count : Nat} (h : BlockAt registry (cursor.skip count) node index) :
    BlockAt registry cursor node index where
  position_le := by
    have hposition := h.position_le
    simp only [Cursor.skip] at hposition
    omega
  lt_bound := h.lt_bound
  exists_tokens := h.exists_tokens

theorem Span.Stands.blockAt (h : span.Stands registry) (hpasses : cursor.Passes span.tokens cursor')
    (hblock : span.block? = some node) : BlockAt registry cursor node cursor.position := by
  cases h with
  | text | comment => cases hblock
  | tag hopening hname hregistry _ _ _ =>
      cases hpasses with
      | cons hopeningFaces hpasses =>
          cases hpasses with
          | cons hnameFaces _ =>
              obtain rfl := Option.some.inj hblock
              exact ⟨Int.le_refl _, hnameFaces.position_lt, _, _, _, rfl, hopeningFaces.tokenAt?_eq, hopening,
                hnameFaces.tokenAt?_eq, hname, hregistry⟩

/-- The blocks stand one behind the other. -/
theorem Travels.exists_indices (h : Travels registry nested cursor spans final) :
    ∃ indices : List Int, indices.Pairwise (· < ·) ∧
      List.Forall₂ (BlockAt registry cursor) (spans.filterMap block?) indices := by
  induction h with
  | ended => exact ⟨[], .nil, .nil⟩
  | @step cursor cursor' final span spans _ hstands hpasses _ ih =>
      obtain ⟨indices, hpairwise, hblocks⟩ := ih
      have hpos := hstands.length_pos
      rw [hpasses.eq_skip] at hblocks
      have hbehind : ∀ index ∈ indices, cursor.position < index := by
        intro index hindex
        obtain ⟨i, hi, rfl⟩ := List.mem_iff_getElem.1 hindex
        have hblock : BlockAt registry _ _ indices[i] := hblocks.get (hblocks.length_eq ▸ hi) hi
        have hposition := hblock.position_le
        simp only [Cursor.skip] at hposition
        omega
      have hblocks' := hblocks.imp fun _ _ => BlockAt.of_skip
      cases hblock : span.block? with
      | none =>
          rw [List.filterMap_cons_none hblock]
          exact ⟨indices, hpairwise, hblocks'⟩
      | some node =>
          rw [List.filterMap_cons_some hblock]
          exact ⟨cursor.position :: indices, .cons hbehind hpairwise, .cons (hstands.blockAt hpasses hblock) hblocks'⟩

/-- Recognition with any tags whose readers drive the outer cursor. No two texts follow each other; the blocks stand one
behind the other, each where its tag opens; and the tokens from the cursor to its bound or to the end of the text fall
into spans, one after the other, of which the nodes have the form. All of that holds however deep readers may ask for
regions and tags within each other, and so in particular of `Cursor.recognise`. -/
theorem Cursor.recognise_faithful (registry : Registry Tag.Reader) (depth : Nat) (cursor : Cursor) (nodes : List Node)
    (hreaders : ∀ name reader, registry.lookup name = some reader → Tag.Drives reader)
    (hok : (cursor.recogniseWithin registry depth).outcome = .ok nodes) :
    (nodes.IsChain fun node next => ¬(node.isData ∧ next.isData)) ∧
      (∃ indices : List Int, indices.Pairwise (· < ·) ∧
        List.Forall₂ (BlockAt registry cursor) (nodes.filter (!·.isData)) indices) ∧
      ∃ spans final, final = (cursor.recogniseWithin registry depth).cursor ∧
        Travels registry (recogniseNested registry depth) cursor spans final ∧
        cursor.Passes (spans.flatMap Span.tokens) final ∧ Cursor.atEnd final = .ok true final ∧ Forms spans nodes := by
  have hcarries := fun name reader hreader =>
    (hreaders name reader hreader).carries (carries_recogniseNested hreaders depth)
  obtain ⟨spans, htravels, rfl⟩ := exists_travels hcarries (Nat.le_refl _) hok
  have hforms := forms_nodesOf spans
  refine ⟨hforms.isChain, ?_, spans, _, rfl, htravels, htravels.passes, htravels.atEnd, hforms⟩
  rw [hforms.filter_not_isData]
  exact htravels.exists_indices

/-- Texts with a short comment between them, a tag that recognises its body, one that skips its body and the tag in it,
and a text in front of the end. -/
theorem Cursor.recognise_faithful_bodies :
    ∃ (registry : Registry Tag.Reader) (cursor : Cursor) (nodes : List Node) (opening place opening' place' : Token),
      registry.entries = [("comment", Tag.comment), ("wrap", Tag.wrap)] ∧
      nodes = [.data "ab", .block opening "wrap" (.wrap place [.data "cd"]),
        .block opening' "comment" (.comment place'), .data "e"] ∧
      (∀ name reader, registry.lookup name = some reader → Tag.Drives reader) ∧
      (cursor.recognise registry).outcome = .ok nodes ∧
      (nodes.IsChain fun node next => ¬(node.isData ∧ next.isData)) ∧
      (∃ indices : List Int, indices.Pairwise (· < ·) ∧
        List.Forall₂ (BlockAt registry cursor) (nodes.filter (!·.isData)) indices) ∧
      ∃ spans final, final = (cursor.recognise registry).cursor ∧
        Travels registry (recogniseNested registry cursor.depth) cursor spans final ∧
        cursor.Passes (spans.flatMap Span.tokens) final ∧ Cursor.atEnd final = .ok true final ∧ Forms spans nodes := by
  let registry : Registry Tag.Reader := ⟨[("comment", Tag.comment), ("wrap", Tag.wrap)], by simp⟩
  let cursor := Cursor.whole #[⟨.data, "a", ⟨0, 1, 1⟩⟩, ⟨.commentBegin, "<#", ⟨1, 1, 2⟩⟩,
    ⟨.commentEnd, "#>", ⟨3, 1, 4⟩⟩, ⟨.data, "b", ⟨5, 1, 6⟩⟩, ⟨.blockBegin, "<", ⟨6, 1, 7⟩⟩, ⟨.name, "wrap", ⟨7, 1, 8⟩⟩,
    ⟨.blockEnd, ">", ⟨11, 1, 12⟩⟩, ⟨.data, "c", ⟨12, 1, 13⟩⟩, ⟨.commentBegin, "<#", ⟨13, 1, 14⟩⟩,
    ⟨.data, "x", ⟨15, 1, 16⟩⟩, ⟨.commentEnd, "#>", ⟨16, 1, 17⟩⟩, ⟨.data, "d", ⟨18, 1, 19⟩⟩,
    ⟨.blockBegin, "<", ⟨19, 1, 20⟩⟩, ⟨.name, "endwrap", ⟨20, 1, 21⟩⟩, ⟨.blockEnd, ">", ⟨27, 1, 28⟩⟩,
    ⟨.blockBegin, "<", ⟨28, 1, 29⟩⟩, ⟨.name, "comment", ⟨29, 1, 30⟩⟩, ⟨.blockEnd, ">", ⟨36, 1, 37⟩⟩,
    ⟨.blockBegin, "<", ⟨37, 1, 38⟩⟩, ⟨.name, "other", ⟨38, 1, 39⟩⟩, ⟨.blockEnd, ">", ⟨43, 1, 44⟩⟩,
    ⟨.blockBegin, "<", ⟨44, 1, 45⟩⟩, ⟨.name, "endcomment", ⟨45, 1, 46⟩⟩, ⟨.blockEnd, ">", ⟨55, 1, 56⟩⟩,
    ⟨.data, "e", ⟨56, 1, 57⟩⟩, ⟨.eof, "", ⟨57, 1, 58⟩⟩]
  have hreaders : ∀ name reader, registry.lookup name = some reader → Tag.Drives reader := by
    intro name reader hreader
    have hmem : (name, reader) ∈ [("comment", Tag.comment), ("wrap", Tag.wrap)] := Registry.lookup_eq_some_iff.1 hreader
    simp only [List.mem_cons, Prod.mk.injEq, List.not_mem_nil, or_false] at hmem
    obtain ⟨-, rfl⟩ | ⟨-, rfl⟩ := hmem
    · exact Tag.drives_comment
    · exact Tag.drives_wrap
  have hok : (cursor.recognise registry).outcome = .ok [.data "ab",
      .block ⟨.blockBegin, "<", ⟨6, 1, 7⟩⟩ "wrap" (.wrap ⟨.blockEnd, ">", ⟨11, 1, 12⟩⟩ [.data "cd"]),
      .block ⟨.blockBegin, "<", ⟨28, 1, 29⟩⟩ "comment" (.comment ⟨.blockEnd, ">", ⟨36, 1, 37⟩⟩), .data "e"] := by
    cbv
  exact ⟨registry, cursor, _, _, _, _, _, rfl, rfl, hreaders, hok,
    recognise_faithful registry cursor.depth cursor _ hreaders hok⟩

end TagTemplate
