import TagTemplate.Proofs.Rendering

/-!
# What random text depends on

The source of randomness is used by the tags for random words and paragraphs alone, and what such a tag draws
depends on its count and on which of the two it asks for. Hence two templates whose random tags ask for the same,
one after the other, draw the same and leave the same source, whatever else they consist of.
-/

namespace TagTemplate

open Grammar

/-! ### Demands -/

/-- What a tag asks of the source: so many random words, or so many random paragraphs. -/
structure Demand where
  count : Nat
  words : Bool
deriving DecidableEq, Repr

/-- The words or paragraphs that are drawn. -/
def Demand.draw (demand : Demand) : Draw (List String) :=
  if demand.words then Lorem.someWords demand.count true else Lorem.someParagraphs demand.count true

namespace Lorem.Mode

/-- Words or paragraphs as a mode writes them. -/
def write (mode : Mode) (items : List String) : String :=
  if mode = .words then " ".intercalate items else paragraphSeparator.intercalate (items.map mode.wrap)

/-- The canonical words or paragraphs of a mode. -/
def canonical (mode : Mode) (count : Nat) : List String :=
  cycle (if mode = .words then Lorem.words else paragraphs) count

end Lorem.Mode

namespace Node

/-- What a node asks of the source, if it is a tag for random text and not for none. -/
def demand? : Node → Option Demand
  | block _ _ (.lorem _ count letter true) =>
      if 0 < count then some ⟨count.toNat, Lorem.Mode.ofLetter? letter = some .words⟩ else none
  | _ => none

def demands (nodes : List Node) : List Demand :=
  nodes.filterMap demand?

/-- What a node writes, with the items that it has drawn if it is a tag for random text. -/
def textWith (items : List String) : Node → String
  | data text => text
  | block _ _ (.lorem _ count letter random) =>
      match Lorem.Mode.ofLetter? letter with
      | some mode => mode.write (if random then items else mode.canonical count.toNat)
      | none => ""
  | _ => ""

/-- What nodes write if the tags for random text among them have drawn these items, one list for each of them. -/
def fill : List Node → List (List String) → String
  | [], _ => ""
  | node :: nodes, drawn =>
      if node.demand?.isSome then node.textWith (drawn.headD []) ++ fill nodes drawn.tail
      else node.textWith [] ++ fill nodes drawn

/-- The source as a node leaves it. -/
def sourceAfter (node : Node) (source : Twister) : Twister :=
  match node.execute (.ofSource source) with
  | .ok _ renderer | .error _ renderer => renderer.source

/-- The items that the tags for random text draw while nodes are executed, one list for each of them. -/
def itemsFrom : List Node → Twister → List (List String)
  | [], _ => []
  | node :: nodes, source =>
      (node.demand?.map fun demand => (demand.draw source).1).toList ++ itemsFrom nodes (node.sourceAfter source)

/-- The nodes that recognition yields with the built-in tags. -/
inductive Ordinary : Node → Prop
  | data (text : String) : Ordinary (data text)
  | lorem (opening location : Token) (name : String) (count : Int) (mode : Lorem.Mode) (random : Bool) :
      Ordinary (block opening name (.lorem location count mode.letter random))
  | comment (opening location : Token) (name : String) : Ordinary (block opening name (.comment location))

end Node

/-! ### Drawing -/

theorem Draw.length_repeated {α : Type} (draw : Draw α) (count : Nat) (source : Twister) :
    (Draw.repeated draw count source).1.length = count := by
  induction count generalizing source with
  | zero => rfl
  | succ count ih => exact congrArg (· + 1) (ih _)

theorem Demand.length_draw (demand : Demand) (source : Twister) :
    (demand.draw source).1.length = demand.count := by
  unfold draw Lorem.someWords Lorem.someParagraphs
  split <;> exact Draw.length_repeated _ _ _

namespace Lorem

variable {count : Int} {mode : Mode}

theorem generate_of_canonical (count : Int) (mode : Mode) :
    generate count mode false = pure (mode.write (mode.canonical count.toNat)) := by
  by_cases hcount : count ≤ 0
  · rw [generate, if_pos hcount, Int.toNat_of_nonpos hcount]
    cases mode <;> rfl
  · rw [generate, if_neg hcount]
    cases mode <;> rfl

theorem generate_of_nonpos (hcount : count ≤ 0) : generate count mode true = pure (mode.write []) := by
  rw [generate, if_pos hcount]
  cases mode <;> rfl

theorem generate_of_pos (hcount : 0 < count) : generate count mode true = (do
    let items ← Demand.draw ⟨count.toNat, mode = .words⟩
    return mode.write items) := by
  rw [generate, if_neg (Int.not_le.2 hcount)]
  cases mode <;> rfl

end Lorem

/-! ### Executing ordinary nodes -/

namespace Node

variable {node : Node} {nodes : List Node}

/-- An ordinary node without a demand leaves the source alone. -/
theorem Ordinary.execute_of_none (h : node.Ordinary) (hdemand : node.demand? = none)
    (renderer : Renderer) :
    node.execute renderer = .ok () ⟨renderer.output ++ node.textWith [], renderer.source⟩ := by
  cases h with
  | data text => rfl
  | comment opening location name => simp [execute, Statement.execute, textWith, pure, EStateM.pure]
  | lorem opening location name count mode random =>
      rw [execute_lorem, textWith, Lorem.Mode.ofLetter?_letter]
      cases random with
      | false =>
          rw [Lorem.generate_of_canonical]
          rfl
      | true =>
          have hcount : ¬0 < count := by
            intro hcount
            simp [demand?, hcount] at hdemand
          rw [Lorem.generate_of_nonpos (Int.not_lt.1 hcount)]
          rfl

/-- An ordinary node with a demand writes what it has drawn. -/
theorem Ordinary.execute_of_some (h : node.Ordinary) {demand : Demand} (hdemand : node.demand? = some demand)
    (renderer : Renderer) :
    node.execute renderer = .ok () ⟨renderer.output ++ node.textWith (demand.draw renderer.source).1,
      (demand.draw renderer.source).2⟩ := by
  cases h with
  | data text | comment opening location name => cases hdemand
  | lorem opening location name count mode random =>
      cases random with
      | false => cases hdemand
      | true =>
          have hcount : 0 < count := by
            by_contra hcount
            simp [demand?, hcount] at hdemand
          obtain rfl : ⟨count.toNat, mode = .words⟩ = demand := by
            simpa [demand?, hcount] using hdemand
          rw [execute_lorem, textWith, Lorem.Mode.ofLetter?_letter, Lorem.generate_of_pos hcount]
          rfl

/-! ### Executing ordinary nodes one after the other -/

theorem demands_cons_of_none (hdemand : node.demand? = none) : demands (node :: nodes) = demands nodes :=
  List.filterMap_cons_none hdemand

theorem demands_cons_of_some {demand : Demand} (hdemand : node.demand? = some demand) :
    demands (node :: nodes) = demand :: demands nodes :=
  List.filterMap_cons_some hdemand

theorem fill_cons_of_none (hdemand : node.demand? = none) (drawn : List (List String)) :
    fill (node :: nodes) drawn = node.textWith [] ++ fill nodes drawn := by
  simp [fill, hdemand]

theorem fill_cons_of_some {demand : Demand} (hdemand : node.demand? = some demand) (items : List String)
    (drawn : List (List String)) :
    fill (node :: nodes) (items :: drawn) = node.textWith items ++ fill nodes drawn := by
  simp [fill, hdemand]

theorem itemsFrom_cons_of_none (h : node.Ordinary) (hdemand : node.demand? = none) (source : Twister) :
    itemsFrom (node :: nodes) source = itemsFrom nodes source := by
  rw [itemsFrom, sourceAfter, h.execute_of_none hdemand, hdemand]
  rfl

theorem itemsFrom_cons_of_some (h : node.Ordinary) {demand : Demand} (hdemand : node.demand? = some demand)
    (source : Twister) :
    itemsFrom (node :: nodes) source = (demand.draw source).1 :: itemsFrom nodes (demand.draw source).2 := by
  rw [itemsFrom, sourceAfter, h.execute_of_some hdemand, hdemand]
  rfl

/-- The items are what is drawn on demand, one demand after the other. -/
theorem itemsFrom_eq_mapM (h : ∀ node ∈ nodes, node.Ordinary) (source : Twister) :
    itemsFrom nodes source = ((demands nodes).mapM Demand.draw source).1 := by
  induction nodes generalizing source with
  | nil => rfl
  | cons node nodes ih =>
      obtain ⟨hnode, hnodes⟩ := List.forall_mem_cons.1 h
      cases hdemand : node.demand? with
      | none => rw [itemsFrom_cons_of_none hnode hdemand, demands_cons_of_none hdemand, ih hnodes]
      | some demand =>
          rw [itemsFrom_cons_of_some hnode hdemand, demands_cons_of_some hdemand, ih hnodes, List.mapM_cons]
          rfl

/-- Executing nodes writes them with the items they draw, and leaves the source as their demands do. -/
theorem executeAll_eq_fill (h : ∀ node ∈ nodes, node.Ordinary) (renderer : Renderer) :
    executeAll nodes renderer = .ok () ⟨renderer.output ++ fill nodes (itemsFrom nodes renderer.source),
      ((demands nodes).mapM Demand.draw renderer.source).2⟩ := by
  induction nodes generalizing renderer with
  | nil => simp [executeAll, fill, demands, pure, EStateM.pure, StateT.pure]
  | cons node nodes ih =>
      obtain ⟨hnode, hnodes⟩ := List.forall_mem_cons.1 h
      cases hdemand : node.demand? with
      | none =>
          rw [executeAll_cons_of_ok (hnode.execute_of_none hdemand renderer), ih hnodes,
            itemsFrom_cons_of_none hnode hdemand, fill_cons_of_none hdemand, demands_cons_of_none hdemand,
            String.append_assoc]
      | some demand =>
          rw [executeAll_cons_of_ok (hnode.execute_of_some hdemand renderer), ih hnodes,
            itemsFrom_cons_of_some hnode hdemand, fill_cons_of_some hdemand, demands_cons_of_some hdemand,
            List.mapM_cons, String.append_assoc]
          rfl

theorem forall₂_length_itemsFrom (h : ∀ node ∈ nodes, node.Ordinary) (source : Twister) :
    List.Forall₂ (fun (demand : Demand) items => items.length = demand.count) (demands nodes)
      (itemsFrom nodes source) := by
  rw [itemsFrom_eq_mapM h]
  generalize demands nodes = all
  induction all generalizing source with
  | nil => exact .nil
  | cons demand all ih =>
      rw [List.mapM_cons]
      exact .cons (demand.length_draw source) (ih _)

end Node

/-! ### Nodes of a template -/

namespace Grammar

variable {disabled : List String} {tokens : List Token} {nodes : List Node}

theorem Construct.ordinary {node : Node} (h : Construct disabled tokens (some node)) : node.Ordinary := by
  cases h with
  | data => exact .data _
  | lorem _ _ _ _ harguments =>
      obtain ⟨mode, rfl⟩ := harguments.exists_mode
      exact .lorem ..
  | comment => exact .comment ..

theorem Derives.ordinary (h : Derives disabled tokens nodes) : ∀ node ∈ nodes, node.Ordinary := by
  apply h.forall_mem Node.Ordinary.data
  intro construct node _ hconstruct
  exact hconstruct.ordinary

end Grammar

variable {config config' : Config} {text text' name name' : String} {template template' : Template}

theorem ordinary_of_compile (h : (Compiler.ofConfig config).compile text name = .ok template) :
    ∀ node ∈ template.nodes, node.Ordinary := by
  obtain ⟨parts, -, hderives⟩ := exists_derives_of_compile h
  exact hderives.ordinary

theorem renderFrom_eq_fill (h : ∀ node ∈ template.nodes, node.Ordinary) (source : Twister) :
    template.renderFrom source = ⟨.ok (Node.fill template.nodes (Node.itemsFrom template.nodes source)),
      ((Node.demands template.nodes).mapM Demand.draw source).2⟩ := by
  rw [Template.renderFrom, Node.executeAll_eq_fill h]
  simp [Renderer.ofSource]

/-- Two templates whose tags for random text ask for the same, one after the other. From the same source they
draw the same items, tag by tag and as many as were asked for, write these and whatever else they consist of, and
leave the same source. A template that asks for nothing renders to one text, whatever the source or the seed, and
leaves the source alone. -/
theorem renderFrom_of_demands_eq
    (h : (Compiler.ofConfig config).compile text name = .ok template)
    (h' : (Compiler.ofConfig config').compile text' name' = .ok template')
    (hdemands : Node.demands template.nodes = Node.demands template'.nodes) :
    (∀ source, Node.itemsFrom template.nodes source = Node.itemsFrom template'.nodes source ∧
      List.Forall₂ (fun (demand : Demand) items => items.length = demand.count) (Node.demands template.nodes)
        (Node.itemsFrom template.nodes source) ∧
      ∃ source',
        template.renderFrom source =
          ⟨.ok (Node.fill template.nodes (Node.itemsFrom template.nodes source)), source'⟩ ∧
        template'.renderFrom source =
          ⟨.ok (Node.fill template'.nodes (Node.itemsFrom template'.nodes source)), source'⟩) ∧
    (Node.demands template.nodes = [] → ∃ output, ∀ (seed : Option Int) (given : Option Twister) (fresh : Twister),
      ({ template with seed := seed } : Template).render given fresh =
        ⟨.ok output, ({ template with seed := seed } : Template).sourceOf given fresh⟩) := by
  have hordinary := ordinary_of_compile h
  have hordinary' := ordinary_of_compile h'
  refine ⟨fun source => ⟨?_, Node.forall₂_length_itemsFrom hordinary source, ?_⟩, ?_⟩
  · rw [Node.itemsFrom_eq_mapM hordinary, Node.itemsFrom_eq_mapM hordinary', hdemands]
  · refine ⟨_, renderFrom_eq_fill hordinary source, ?_⟩
    rw [renderFrom_eq_fill hordinary', hdemands]
  · intro hnone
    refine ⟨Node.fill template.nodes [], fun seed given fresh => ?_⟩
    have hrender := @renderFrom_eq_fill { template with seed := seed } hordinary
    rw [Template.render, hrender, Node.itemsFrom_eq_mapM hordinary, hnone]
    rfl

/-- Two random words and a random paragraph, once with plain text before them, once with a comment and an empty tag
between them and the paragraph as markup; and canonical words alone. -/
theorem renderFrom_of_demands_eq_words_and_paragraph :
    (∃ template template',
      (Compiler.ofConfig {}).compile "a\x7b% lorem 2 w random %\x7d\x7b% lorem 1 b random %\x7d" "t" = .ok template ∧
      (Compiler.ofConfig { seed := some 7 }).compile
        "\x7b% lorem 2 w random %\x7d\x7b# #\x7d\x7b% lorem 0 p random %\x7d\x7b% lorem p random %\x7d"
        "u" = .ok template' ∧
      Node.demands template.nodes = [⟨2, true⟩, ⟨1, false⟩] ∧
      Node.demands template.nodes = Node.demands template'.nodes ∧ ∀ source,
        Node.itemsFrom template.nodes source = Node.itemsFrom template'.nodes source ∧
        (template.renderFrom source).source = (template'.renderFrom source).source) ∧
    ∃ template output, (Compiler.ofConfig {}).compile "a\x7b% lorem 2 w %\x7d" "t" = .ok template ∧
      Node.demands template.nodes = [] ∧ ∀ given fresh,
        template.render given fresh = ⟨.ok output, template.sourceOf given fresh⟩ := by
  constructor
  · have hplain : (Compiler.ofConfig {}).compile
        "a\x7b% lorem 2 w random %\x7d\x7b% lorem 1 b random %\x7d" "t" = .ok ⟨"t", [.data "a",
          .block ⟨.blockBegin, "\x7b%", ⟨1, 1, 2⟩⟩ "lorem" (.lorem ⟨.integer, "2", ⟨10, 1, 11⟩⟩ 2 "w" true),
          .block ⟨.blockBegin, "\x7b%", ⟨23, 1, 24⟩⟩ "lorem" (.lorem ⟨.integer, "1", ⟨32, 1, 33⟩⟩ 1 "b" true)],
          none⟩ := by
      cbv
    have hother : (Compiler.ofConfig { seed := some 7 }).compile
        "\x7b% lorem 2 w random %\x7d\x7b# #\x7d\x7b% lorem 0 p random %\x7d\x7b% lorem p random %\x7d"
        "u" = .ok ⟨"u", [
          .block ⟨.blockBegin, "\x7b%", ⟨0, 1, 1⟩⟩ "lorem" (.lorem ⟨.integer, "2", ⟨9, 1, 10⟩⟩ 2 "w" true),
          .block ⟨.blockBegin, "\x7b%", ⟨27, 1, 28⟩⟩ "lorem" (.lorem ⟨.integer, "0", ⟨36, 1, 37⟩⟩ 0 "p" true),
          .block ⟨.blockBegin, "\x7b%", ⟨49, 1, 50⟩⟩ "lorem" (.lorem ⟨.name, "p", ⟨58, 1, 59⟩⟩ 1 "p" true)],
          some 7⟩ := by
      cbv
    refine ⟨_, _, hplain, hother, rfl, rfl, fun source => ?_⟩
    obtain ⟨hitems, -, source', hrender, hrender'⟩ := (renderFrom_of_demands_eq hplain hother rfl).1 source
    exact ⟨hitems, by rw [hrender, hrender']⟩
  · have hcompile : (Compiler.ofConfig {}).compile "a\x7b% lorem 2 w %\x7d" "t" = .ok ⟨"t", [.data "a",
        .block ⟨.blockBegin, "\x7b%", ⟨1, 1, 2⟩⟩ "lorem" (.lorem ⟨.integer, "2", ⟨10, 1, 11⟩⟩ 2 "w" false)],
        none⟩ := by
      cbv
    obtain ⟨output, houtput⟩ := (renderFrom_of_demands_eq hcompile hcompile rfl).2 rfl
    exact ⟨_, output, hcompile, rfl, houtput none⟩

end TagTemplate
