import TagTemplate.Proofs.Cursor
import TagTemplate.Tag.Builtin

/-!
# The grammar of templates

With the built-in tags a list of tokens is recognised exactly if it derives from a grammar, and then the
nodes are those of the derivation. The grammar is about lists of tokens alone: it has no cursors, and no
token is looked at twice.
-/

namespace TagTemplate

open Cursor (Inner Marks)

namespace Grammar

/-- The letter of a mode and the word that asks for a random choice. -/
inductive Choice : List Token → String → Bool → Prop
  | default : Choice [] "b" false
  | mode {letter : Token} :
      letter.kind = .name → letter.value ∈ ["w", "p", "b"] → Choice [letter] letter.value false
  | random {letter word : Token} :
      letter.kind = .name → letter.value ∈ ["w", "p", "b"] → word.kind = .name → word.value = "random" →
      Choice [letter, word] letter.value true

/-- The arguments of filler text. -/
inductive Arguments : List Token → Int → String → Bool → Prop
  | uncounted {tokens : List Token} {letter : String} {random : Bool} :
      Choice tokens letter random → Arguments tokens 1 letter random
  | counted {number : Token} {tokens : List Token} {count : Int} {letter : String} {random : Bool} :
      number.kind = .integer → Number.readInteger number.value = .ok count → Choice tokens letter random →
      Arguments (number :: tokens) count letter random

/-- The constructs of a template, each with the node it stands for, if any. -/
inductive Construct (disabled : List String) : List Token → Option Node → Prop
  | data {token : Token} : token.kind = .data → Construct disabled [token] (some (.data token.value))
  | shortComment {opening closing : Token} {content : Option Token} :
      opening.kind = .commentBegin → (∀ body ∈ content, body.kind = .data) → closing.kind = .commentEnd →
      Construct disabled (opening :: (content.toList ++ [closing])) none
  | lorem {opening name closing location : Token} {arguments : List Token} {count : Int}
      {letter : String} {random : Bool} :
      "lorem" ∉ disabled → opening.kind = .blockBegin → name.kind = .name → name.value = "lorem" →
      Arguments arguments count letter random → closing.kind = .blockEnd →
      (arguments ++ [closing]).head? = some location →
      Construct disabled (opening :: name :: (arguments ++ [closing]))
        (some (.block opening "lorem" (.lorem location count letter random)))
  | comment {opening name closing opening' name' closing' : Token} {body : List Token} :
      "comment" ∉ disabled → opening.kind = .blockBegin → name.kind = .name → name.value = "comment" →
      closing.kind = .blockEnd → (body.IsChain fun token next => ¬Marks ["endcomment"] token next) →
      opening'.kind = .blockBegin → name'.kind = .name → name'.value = "endcomment" →
      closing'.kind = .blockEnd →
      Construct disabled (opening :: name :: closing :: (body ++ [opening', name', closing']))
        (some (.block opening "comment" (.comment closing)))

/-- Nodes with the node of a construct before them, if it has one. Text before text is one node. -/
inductive Joins : Option Node → List Node → List Node → Prop
  | silent {nodes : List Node} : Joins none nodes nodes
  | text {before after : String} {nodes : List Node} :
      Joins (some (.data before)) (.data after :: nodes) (.data (before ++ after) :: nodes)
  | apart {node : Node} {nodes : List Node} :
      (∀ before after nodes', node = .data before → nodes ≠ .data after :: nodes') →
      Joins (some node) nodes (node :: nodes)

/-- Lists of tokens with the nodes they stand for. Stretches of text with nothing but short comments between
them are one node. -/
inductive Derives (disabled : List String) : List Token → List Node → Prop
  | nil : Derives disabled [] []
  | cons {tokens rest : List Token} {node : Option Node} {nodes nodes' : List Node} :
      Construct disabled tokens node → Derives disabled rest nodes → Joins node nodes nodes' →
      Derives disabled (tokens ++ rest) nodes'

end Grammar

theorem Grammar.Choice.kind_eq_name {tokens : List Token} {letter : String} {random : Bool}
    (h : Choice tokens letter random) : ∀ token ∈ tokens, token.kind = .name := by
  cases h with
  | default => simp
  | mode hletter => simpa using hletter
  | random hletter _ hword => simpa using ⟨hletter, hword⟩

theorem Grammar.Choice.head?_kind_ne {tokens : List Token} {letter : String} {random : Bool}
    (h : Choice tokens letter random) : ∀ token, tokens.head? = some token → token.kind ≠ .integer := by
  intro token hhead
  rw [h.kind_eq_name token (List.mem_of_mem_head? hhead)]
  decide

theorem Grammar.Arguments.inner {tokens : List Token} {count : Int} {letter : String} {random : Bool}
    (h : Arguments tokens count letter random) : Inner tokens := by
  intro token hmem
  cases h with
  | uncounted hchoice => rw [hchoice.kind_eq_name token hmem]; decide
  | counted hnumber _ hchoice =>
      rcases List.mem_cons.1 hmem with rfl | hmem
      · rw [hnumber]; decide
      · rw [hchoice.kind_eq_name token hmem]; decide

theorem Grammar.joins_iff {node : Option Node} {nodes nodes' : List Node} :
    Joins node nodes nodes' ↔ nodes' = node.elim nodes (·.joinTo nodes) := by
  constructor
  · intro h
    cases h with
    | silent => rfl
    | text => rfl
    | @apart node nodes hapart =>
        rw [Option.elim_some, Node.joinTo]
        exact hapart
  · rintro rfl
    cases node with
    | none => exact .silent
    | some node =>
        rw [Option.elim_some]
        unfold Node.joinTo
        split
        · exact .text
        · rename_i hapart
          exact .apart hapart

theorem Grammar.Derives.forall_mem {disabled : List String} {P : Node → Prop} {tokens : List Token}
    {nodes : List Node} (h : Derives disabled tokens nodes) (hdata : ∀ text, P (.data text))
    (hconstruct : ∀ construct node, construct <:+: tokens → Construct disabled construct (some node) → P node) :
    ∀ node ∈ nodes, P node := by
  induction h with
  | nil => simp
  | @cons construct rest node nodes nodes' hnode _ hjoins ih =>
      have hrest : ∀ node ∈ nodes, P node := by
        apply ih
        intro construct' node' hwithin
        exact hconstruct construct' node' (hwithin.trans (List.suffix_append _ _).isInfix)
      cases hjoins with
      | silent => exact hrest
      | text => exact List.forall_mem_cons.2 ⟨hdata _, (List.forall_mem_cons.1 hrest).2⟩
      | apart =>
          have hfirst := hconstruct construct _ (List.prefix_append _ _).isInfix hnode
          exact List.forall_mem_cons.2 ⟨hfirst, hrest⟩

namespace Grammar.Construct

variable {disabled : List String} {token : Token} {tokens : List Token} {node : Option Node}

theorem exists_cons (h : Construct disabled tokens node) : ∃ token tokens', tokens = token :: tokens' := by
  cases h with
  | data | shortComment | lorem | comment => exact ⟨_, _, rfl⟩

theorem of_data (h : Construct disabled (token :: tokens) node) (hkind : token.kind = .data) :
    tokens = [] := by
  cases h with
  | data => rfl
  | shortComment hopening => exact absurd (hkind.symm.trans hopening) (by decide)
  | lorem _ hopening | comment _ hopening => exact absurd (hkind.symm.trans hopening) (by decide)

theorem of_commentBegin (h : Construct disabled (token :: tokens) node) (hkind : token.kind = .commentBegin) :
    ∃ (content : Option Token) (closing : Token), tokens = content.toList ++ [closing] ∧
      (∀ body ∈ content, body.kind = .data) ∧ closing.kind = .commentEnd := by
  cases h with
  | data hdata => exact absurd (hkind.symm.trans hdata) (by decide)
  | shortComment _ hcontent hclosing => exact ⟨_, _, rfl, hcontent, hclosing⟩
  | lorem _ hopening | comment _ hopening => exact absurd (hkind.symm.trans hopening) (by decide)

theorem of_blockBegin (h : Construct disabled (token :: tokens) node) (hkind : token.kind = .blockBegin) :
    (∃ name arguments closing count letter random, tokens = name :: (arguments ++ [closing]) ∧
      "lorem" ∉ disabled ∧ name.kind = .name ∧ name.value = "lorem" ∧
      Arguments arguments count letter random ∧ closing.kind = .blockEnd) ∨
    (∃ name closing body opening' name' closing',
      tokens = name :: closing :: (body ++ [opening', name', closing']) ∧ "comment" ∉ disabled ∧
      name.kind = .name ∧ name.value = "comment" ∧ closing.kind = .blockEnd ∧
      (body.IsChain fun token next => ¬Marks ["endcomment"] token next) ∧
      Marks ["endcomment"] opening' name' ∧ closing'.kind = .blockEnd) := by
  cases h with
  | data hdata => exact absurd (hkind.symm.trans hdata) (by decide)
  | shortComment hopening => exact absurd (hkind.symm.trans hopening) (by decide)
  | lorem henabled _ hname hvalue harguments hclosing =>
      exact .inl ⟨_, _, _, _, _, _, rfl, henabled, hname, hvalue, harguments, hclosing⟩
  | comment henabled _ hname hvalue hclosing hbody hopening' hname' hvalue' hclosing' =>
      exact .inr ⟨_, _, _, _, _, _, rfl, henabled, hname, hvalue, hclosing, hbody,
        ⟨hopening', hname', List.mem_singleton.2 hvalue'⟩, hclosing'⟩

end Grammar.Construct

end TagTemplate
