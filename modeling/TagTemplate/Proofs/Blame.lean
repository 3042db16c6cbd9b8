import TagTemplate.Proofs.Failure

/-!
# Which token is blamed

The token that a refusal names is the first one that cannot stand where it does: with the tokens before it,
but not with that token as well, a list of tokens begins that is recognised. A block that is never closed is
blamed on the token behind the name of its tag.
-/

namespace TagTemplate

open Cursor (Inner Marks)

/-- Recognition with the built-in tags takes these tokens, up to their end. -/
def Accepted (disabled : List String) (tokens : List Token) : Prop :=
  ∃ nodes, ((Cursor.whole tokens.toArray).recognise (Tag.builtinReaders disabled)).outcome = .ok nodes

/-- Some list of tokens that begins with these is accepted. -/
def Viable (disabled : List String) (front : List Token) : Prop :=
  ∃ more, Accepted disabled (front ++ more)

/-- A tag with one of the given names opens among the tokens. -/
def Marked (names : List String) (tokens : List Token) : Prop :=
  ∃ before opening name after, tokens = before ++ opening :: name :: after ∧ Marks names opening name

/-- There is no end of the text among the tokens. -/
def Endless (tokens : List Token) : Prop :=
  ∀ token ∈ tokens, token.kind ≠ .eof

variable {disabled : List String} {tokens tokens' front more rest rest' : List Token}

theorem Viable.of_prefix (h : Viable disabled tokens) (hfront : front <+: tokens) : Viable disabled front := by
  obtain ⟨more, haccepted⟩ := h
  obtain ⟨between, rfl⟩ := hfront
  exact ⟨between ++ more, by rwa [← List.append_assoc]⟩

namespace Endless

theorem append_iff : Endless (tokens ++ rest) ↔ Endless tokens ∧ Endless rest :=
  List.forall_mem_append

theorem cons_iff {token : Token} : Endless (token :: tokens) ↔ token.kind ≠ .eof ∧ Endless tokens :=
  List.forall_mem_cons

theorem ahead_whole (h : Endless tokens) : (Cursor.whole tokens.toArray).ahead = tokens := by
  rw [Cursor.ahead_whole, List.takeWhile_eq_self_iff]
  exact fun token hmem => bne_iff_ne.2 (h token hmem)

theorem takeWhile (tokens : List Token) : Endless (tokens.takeWhile (·.kind != .eof)) := by
  intro token hmem
  simpa using List.mem_takeWhile_imp hmem

end Endless

theorem accepted_iff :
    Accepted disabled tokens ↔ ∃ nodes, Grammar.Derives disabled (tokens.takeWhile (·.kind != .eof)) nodes := by
  simp only [Accepted, Cursor.outcome_recognise_eq_ok_iff (Cursor.placed_whole _), Cursor.ahead_whole]

theorem Endless.accepted_iff (h : Endless tokens) :
    Accepted disabled tokens ↔ ∃ nodes, Grammar.Derives disabled tokens nodes := by
  rw [TagTemplate.accepted_iff, ← Cursor.ahead_whole, h.ahead_whole]

theorem Endless.exists_derives_of_viable (h : Endless front) (hviable : Viable disabled front) :
    ∃ more nodes, Endless (front ++ more) ∧ Grammar.Derives disabled (front ++ more) nodes := by
  obtain ⟨more, haccepted⟩ := hviable
  obtain ⟨nodes, hderives⟩ := TagTemplate.accepted_iff.1 haccepted
  have hfront : ∀ token ∈ front, (token.kind != .eof) = true := fun token hmem => bne_iff_ne.2 (h token hmem)
  rw [List.takeWhile_append_of_pos hfront] at hderives
  exact ⟨_, nodes, append_iff.2 ⟨h, Endless.takeWhile more⟩, hderives⟩

/-- Behind the first tag with one of the given names there is always the same. -/
theorem Cursor.rest_eq_of_marks {names : List String} {body body' : List Token}
    {opening name opening' name' : Token} (hmarks : Marks names opening name)
    (hbody : body.IsChain fun token next => ¬Marks names token next) (hmarks' : Marks names opening' name')
    (hbody' : body'.IsChain fun token next => ¬Marks names token next)
    (h : body ++ opening :: name :: rest = body' ++ opening' :: name' :: rest') : rest = rest' := by
  have hfirst := firstMarker?_eq_some_iff.2 ⟨body, opening, name, rest, rfl, rfl, hmarks, hbody⟩
  have hfirst' := firstMarker?_eq_some_iff.2 ⟨body', opening', name', rest', h, rfl, hmarks', hbody'⟩
  have hlength : body.length = body'.length := Option.some.inj (hfirst.symm.trans hfirst')
  obtain ⟨-, htail⟩ := List.append_inj h hlength
  exact (List.cons.inj (List.cons.inj htail).2).2

namespace Grammar

/-! ### Constructs do not overlap -/

/-- Two constructs at the start of the same tokens are the same, since recognition takes both. -/
theorem Construct.append_inj {construct construct' : List Token} {node node' : Option Node}
    (h : Construct disabled construct node) (h' : Construct disabled construct' node')
    (hend : Endless (construct ++ rest)) (heq : construct ++ rest = construct' ++ rest') :
    construct = construct' ∧ rest = rest' := by
  have hahead := hend.ahead_whole
  have hplaced := Cursor.placed_whole (construct ++ rest).toArray
  have hnext := @recogniseNext_of_construct disabled (pure []) _ hplaced _ _ _ hahead h
  have hnext' := @recogniseNext_of_construct disabled (pure []) _ hplaced _ _ _ (hahead.trans heq) h'
  have hcursor := (EStateM.Result.ok.inj (hnext.symm.trans hnext')).2
  have hlength : construct.length = construct'.length := by
    have hposition := congrArg Cursor.position hcursor
    simp only [Cursor.skip] at hposition
    omega
  exact List.append_inj heq hlength

/-- What follows tokens that derive derives as well, if all of it does. -/
theorem Derives.of_append {nodes nodes' : List Node} (h : Derives disabled tokens nodes)
    (hend : Endless (tokens ++ rest)) (hall : Derives disabled (tokens ++ rest) nodes') :
    ∃ nodes, Derives disabled rest nodes := by
  induction h generalizing nodes' with
  | nil => exact ⟨nodes', hall⟩
  | @cons construct tokens _ _ _ hconstruct _ _ ih =>
      rw [List.append_assoc] at hall hend
      obtain ⟨token, construct', hcons⟩ := hconstruct.exists_cons
      obtain ⟨_, _, _, _, heq, hconstruct', hrest, -⟩ := hall.exists_construct (by simp [hcons])
      obtain ⟨rfl, rfl⟩ := hconstruct.append_inj hconstruct' hend heq
      exact ih (Endless.append_iff.1 hend).2 hrest

theorem Derives.exists_flatten {nodes : List Node} (h : Derives disabled tokens nodes) :
    ∃ constructs : List (List Token), tokens = constructs.flatten ∧
      ∀ construct ∈ constructs, ∃ node, Construct disabled construct node := by
  induction h with
  | nil => exact ⟨[], rfl, by simp⟩
  | @cons construct _ node _ _ hconstruct _ _ ih =>
      obtain ⟨constructs, rfl, hconstructs⟩ := ih
      exact ⟨construct :: constructs, rfl, List.forall_mem_cons.2 ⟨⟨node, hconstruct⟩, hconstructs⟩⟩

theorem Construct.derives {node : Option Node} (h : Construct disabled tokens node) :
    ∃ nodes, Derives disabled tokens nodes := by
  simpa using Derives.nil.behind h

/-! ### Tags by their names -/

section Tag

variable {opening name : Token} {node : Option Node}

theorem Construct.exists_name (h : Construct disabled (opening :: tokens) node)
    (hkind : opening.kind = .blockBegin) :
    ∃ name tokens', tokens = name :: tokens' ∧ name.kind = .name ∧ name.value ∉ disabled ∧
      name.value ∈ ["lorem", "comment"] := by
  rcases h.of_blockBegin hkind with ⟨name, _, _, _, _, _, rfl, henabled, hname, hvalue, -⟩ |
    ⟨name, _, _, _, _, _, rfl, henabled, hname, hvalue, -⟩
  all_goals exact ⟨name, _, rfl, hname, hvalue ▸ henabled, by simp [hvalue]⟩

theorem Construct.of_lorem (h : Construct disabled (opening :: name :: tokens) node)
    (hkind : opening.kind = .blockBegin) (hvalue : name.value = "lorem") :
    ∃ arguments closing count letter random, tokens = arguments ++ [closing] ∧
      Arguments arguments count letter random ∧ closing.kind = .blockEnd := by
  rcases h.of_blockBegin hkind with
    ⟨_, arguments, closing, count, letter, random, heq, -, -, -, harguments, hclosing⟩ |
    ⟨_, _, _, _, _, _, heq, -, -, hvalue', -⟩
  · exact ⟨arguments, closing, count, letter, random, (List.cons.inj heq).2, harguments, hclosing⟩
  · rw [(List.cons.inj heq).1, hvalue'] at hvalue
    exact absurd hvalue (by decide)

theorem Construct.of_comment (h : Construct disabled (opening :: name :: tokens) node)
    (hkind : opening.kind = .blockBegin) (hvalue : name.value = "comment") :
    ∃ closing body opening' name' closing', tokens = closing :: (body ++ [opening', name', closing']) ∧
      closing.kind = .blockEnd ∧ (body.IsChain fun token next => ¬Marks ["endcomment"] token next) ∧
      Marks ["endcomment"] opening' name' ∧ closing'.kind = .blockEnd := by
  rcases h.of_blockBegin hkind with ⟨_, _, _, _, _, _, heq, -, -, hvalue', -⟩ |
    ⟨_, closing, body, opening', name', closing', heq, -, -, -, hcomment⟩
  · rw [(List.cons.inj heq).1, hvalue'] at hvalue
    exact absurd hvalue (by decide)
  · exact ⟨closing, body, opening', name', closing', (List.cons.inj heq).2, hcomment⟩

end Tag

/-! ### What a flaw leaves possible -/

variable {inside : List Token} {token : Token} {complaint : Complaint} {fault : Fault}

theorem Misplaced.exists_choice (h : Misplaced front token complaint) :
    ∃ letter random, Choice front letter random := by
  cases h with
  | mode | argument => exact ⟨_, _, .default⟩
  | word hkind hvalue => exact ⟨_, _, .mode hkind hvalue⟩
  | extra hkind hvalue hkind' hvalue' => exact ⟨_, _, .random hkind hvalue hkind' hvalue'⟩

theorem Misplaced.not_choice (h : Misplaced front token complaint) {letter : String} {random : Bool} :
    ¬Choice (front ++ token :: more) letter random := by
  intro hchoice
  cases h with
  | mode hkind hvalue =>
      cases hchoice with
      | mode _ hvalue' | random _ hvalue' => exact hvalue hvalue'
  | argument hkind =>
      cases hchoice with
      | mode hkind' | random hkind' => exact hkind hkind'
  | word _ _ hword =>
      cases hchoice with
      | random _ _ hkind' hvalue' => exact hword ⟨hkind', hvalue'⟩
  | extra => cases hchoice

theorem exists_lorem (henabled : "lorem" ∉ disabled) {opening name : Token} (hopening : opening.kind = .blockBegin)
    (hname : name.kind = .name) (hvalue : name.value = "lorem") {arguments : List Token} {count : Int}
    {letter : String} {random : Bool} (harguments : Arguments arguments count letter random) :
    ∃ (closing : Token) (node : Node), closing.kind = .blockEnd ∧
      Construct disabled (opening :: name :: (arguments ++ [closing])) (some node) := by
  let closing : Token := ⟨.blockEnd, "", Location.start⟩
  obtain ⟨location, hlocation⟩ : ∃ location, (arguments ++ [closing]).head? = some location := by
    cases arguments <;> exact ⟨_, rfl⟩
  exact ⟨closing, _, rfl, .lorem henabled hopening hname hvalue harguments rfl hlocation⟩

theorem exists_comment (henabled : "comment" ∉ disabled) {opening name : Token}
    (hopening : opening.kind = .blockBegin) (hname : name.kind = .name) (hvalue : name.value = "comment") :
    ∃ more node, Endless more ∧ Construct disabled (opening :: name :: more) (some node) := by
  have hconstruct : Construct disabled (opening :: name :: ⟨.blockEnd, "", Location.start⟩ :: ([] ++
      [⟨.blockBegin, "", Location.start⟩, ⟨.name, "endcomment", Location.start⟩,
        ⟨.blockEnd, "", Location.start⟩])) _ :=
    .comment henabled hopening hname hvalue rfl .nil rfl rfl rfl rfl
  exact ⟨_, _, by simp [Endless], hconstruct⟩

/-- Before the token that is to blame, a construct has begun. -/
theorem Flaw.exists_construct (h : Flaw disabled inside token rest fault)
    (henabled : "lorem" ∉ disabled ∨ "comment" ∉ disabled) :
    ∃ more node, Endless more ∧ Construct disabled (inside ++ more) (some node) := by
  have htag : ∀ {opening : Token}, opening.kind = .blockBegin →
      ∃ more node, Endless more ∧ Construct disabled ([opening] ++ more) (some node) := by
    intro opening hopening
    rcases henabled with henabled | henabled
    · let name : Token := ⟨.name, "lorem", Location.start⟩
      obtain ⟨closing, node, hclosing, hlorem⟩ :=
        @exists_lorem disabled henabled opening name hopening rfl rfl _ _ _ _ (.uncounted .default)
      exact ⟨_, node, by simp [Endless, name, hclosing], hlorem⟩
    · let name : Token := ⟨.name, "comment", Location.start⟩
      obtain ⟨more, node, hmore, hcomment⟩ := @exists_comment disabled henabled opening name hopening rfl rfl
      exact ⟨_, node, Endless.cons_iff.2 ⟨by simp [name], hmore⟩, hcomment⟩
  cases h with
  | statementName hopening | unknown hopening => exact htag hopening
  | count henabled hopening hname hvalue =>
      obtain ⟨closing, node, hclosing, hlorem⟩ :=
        exists_lorem henabled hopening hname hvalue (.uncounted .default)
      exact ⟨_, node, by simp [Endless, hclosing], hlorem⟩
  | @arguments opening name _ count _ _ _ henabled hopening hname hvalue hcount _ hmisplaced =>
      obtain ⟨letter, random, hchoice⟩ := hmisplaced.exists_choice
      obtain ⟨n, harguments⟩ : ∃ n, Arguments (count.toList ++ _) n letter random := by
        cases count with
        | none => exact ⟨1, .uncounted hchoice⟩
        | some number =>
            obtain ⟨hkind, n, hread⟩ := hcount number rfl
            exact ⟨n, .counted hkind hread hchoice⟩
      obtain ⟨closing, node, hclosing, hlorem⟩ := exists_lorem henabled hopening hname hvalue harguments
      exact ⟨[closing], node, by simp [Endless, hclosing], hlorem⟩
  | unterminated henabled hopening hname hvalue | commentArguments henabled hopening hname hvalue =>
      exact exists_comment henabled hopening hname hvalue
  | @commentEnd opening name closing opening' name' _ body _ henabled hopening hname hvalue hclosing hbody
      hmarks =>
      have hcomment : Construct disabled (opening :: name :: closing :: (body ++
          [opening', name', ⟨.blockEnd, "", Location.start⟩])) _ :=
        .comment henabled hopening hname hvalue hclosing hbody hmarks.1 hmarks.2.1
          (List.mem_singleton.1 hmarks.2.2) rfl
      exact ⟨[⟨.blockEnd, "", Location.start⟩], _, by simp [Endless], by simpa using hcomment⟩

theorem Arguments.not_of_count {number : Token} (hkind : number.kind = .integer) {error : IntegerError}
    (hread : Number.readInteger number.value = .error error) {count : Int} {letter : String} {random : Bool} :
    ¬Arguments (number :: more) count letter random := by
  intro h
  cases h with
  | uncounted hchoice => exact hchoice.head?_kind_ne number rfl hkind
  | counted _ hread' => simp [hread] at hread'

theorem Arguments.not_of_misplaced {count : Option Token} (hcount : ∀ number ∈ count, number.kind = .integer)
    (hfirst : count.toList ++ front = [] → token.kind ≠ .integer) (hmisplaced : Misplaced front token complaint)
    {n : Int} {letter : String} {random : Bool} :
    ¬Arguments (count.toList ++ front ++ token :: more) n letter random := by
  intro h
  generalize htokens : count.toList ++ front ++ token :: more = tokens at h
  cases h with
  | uncounted hchoice =>
      cases count with
      | none => exact hmisplaced.not_choice (htokens ▸ hchoice)
      | some number => exact hchoice.head?_kind_ne number (by simp [← htokens]) (hcount number rfl)
  | counted hkind _ hchoice =>
      cases count with
      | none =>
          cases front with
          | nil =>
              obtain ⟨rfl, -⟩ := List.cons.inj htokens
              exact hfirst rfl hkind
          | cons first front =>
              obtain ⟨rfl, -⟩ := List.cons.inj htokens
              have hname := hmisplaced.kind_eq_name first List.mem_cons_self
              exact absurd (hname.symm.trans hkind) (by decide)
      | some number =>
          obtain ⟨-, rfl⟩ := List.cons.inj htokens
          exact hmisplaced.not_choice hchoice

/-- With the token that is to blame, no construct begins. -/
theorem Flaw.not_construct (h : Flaw disabled inside token rest fault)
    (hfault : ∀ complaint token, fault ≠ .grammar .unterminatedBlock complaint token) {construct : List Token}
    {node : Option Node} (hconstruct : Construct disabled construct node) :
    construct ++ rest' ≠ inside ++ token :: more := by
  intro heq
  obtain ⟨opening, inside', rfl, hopening⟩ := h.exists_cons
  obtain ⟨first, construct, rfl⟩ := hconstruct.exists_cons
  obtain ⟨rfl, htail⟩ := List.cons.inj heq
  obtain ⟨name, construct, rfl, hname, henabled, hvalue⟩ := hconstruct.exists_name hopening
  cases h with
  | statementName _ hkind =>
      obtain ⟨rfl, -⟩ := List.cons.inj htail
      exact hkind hname
  | unknown _ _ hunknown =>
      obtain ⟨rfl, -⟩ := List.cons.inj htail
      exact hunknown.elim henabled fun hunknown => hunknown hvalue
  | count _ _ _ hlorem hkind hread =>
      obtain ⟨rfl, htokens⟩ := List.cons.inj htail
      obtain ⟨arguments, closing, count, letter, random, rfl, harguments, hclosing⟩ :=
        hconstruct.of_lorem hopening hlorem
      replace htokens : [token] ++ more = arguments ++ closing :: rest' := by simpa using htokens.symm
      obtain ⟨more, rfl, -⟩ := Part.exists_append_of_kind_ne (by simp [hkind]) hclosing htokens
      exact harguments.not_of_count hkind hread
  | @arguments _ _ _ count front _ _ _ _ _ hlorem hcount hfirst hmisplaced hkind =>
      obtain ⟨rfl, htokens⟩ := List.cons.inj htail
      obtain ⟨arguments, closing, n, letter, random, rfl, harguments, hclosing⟩ :=
        hconstruct.of_lorem hopening hlorem
      have hintegers : ∀ number ∈ count, number.kind = .integer := fun number hmem => (hcount number hmem).1
      replace htokens : count.toList ++ front ++ [token] ++ more = arguments ++ closing :: rest' := by
        simpa using htokens.symm
      obtain ⟨more, rfl, -⟩ :=
        Part.exists_append_of_kind_ne (hmisplaced.kind_ne_blockEnd hintegers hkind) hclosing htokens
      rw [List.append_assoc _ [token]] at harguments
      exact Arguments.not_of_misplaced hintegers hfirst hmisplaced harguments
  | unterminated => exact hfault _ _ rfl
  | commentArguments _ _ _ hcomment hkind =>
      obtain ⟨rfl, htokens⟩ := List.cons.inj htail
      obtain ⟨closing, _, _, _, _, rfl, hclosing, -⟩ := hconstruct.of_comment hopening hcomment
      obtain ⟨rfl, -⟩ := List.cons.inj (show closing :: _ = token :: more from htokens)
      exact hkind hclosing
  | @commentEnd _ _ _ opening' name' _ body _ _ _ _ hcomment _ hbody hmarks hkind =>
      obtain ⟨rfl, htokens⟩ := List.cons.inj htail
      obtain ⟨_, body', opening'', name'', closing'', rfl, -, hbody', hmarks', hclosing'⟩ :=
        hconstruct.of_comment hopening hcomment
      obtain ⟨-, htokens⟩ := List.cons.inj htokens
      replace htokens : body ++ opening' :: name' :: token :: more =
          body' ++ opening'' :: name'' :: closing'' :: rest' := by simpa using htokens.symm
      have hrest := Cursor.rest_eq_of_marks hmarks hbody hmarks' hbody' htokens
      exact hkind ((List.cons.inj hrest).1 ▸ hclosing')

/-! ### Block comments in what derives -/

theorem exists_of_append_eq {construct back : List Token} {opening : Token}
    (hlength : front.length < construct.length) (h : construct ++ rest = front ++ opening :: back) :
    ∃ more, construct = front ++ opening :: more ∧ back = more ++ rest := by
  rcases List.append_eq_append_iff.1 h with ⟨more, rfl, -⟩ | ⟨more, rfl, hmore⟩
  · rw [List.length_append] at hlength
    omega
  · cases more with
    | nil => simp at hlength
    | cons token more =>
        obtain ⟨rfl, rfl⟩ := List.cons.inj hmore
        exact ⟨more, rfl, rfl⟩

theorem exists_behind_of_append_eq {construct back : List Token} (hlength : construct.length ≤ front.length)
    (h : construct ++ rest = front ++ back) :
    ∃ front', front = construct ++ front' ∧ rest = front' ++ back := by
  obtain ⟨front', rfl⟩ : construct <+: front :=
    List.prefix_of_prefix_length_le (List.prefix_append construct rest) (h ▸ List.prefix_append front back) hlength
  rw [List.append_assoc] at h
  exact ⟨front', rfl, List.append_cancel_left h⟩

theorem Construct.marked_of_comment {construct : List Token} {node : Option Node} {opening name : Token}
    (h : Construct disabled construct node) (heq : construct ++ rest = front ++ opening :: name :: rest')
    (hmarks : Marks ["comment"] opening name) (hlength : front.length < construct.length) :
    Marked ["endcomment"] rest' := by
  obtain ⟨more, hconstruct, hmore⟩ := exists_of_append_eq hlength heq
  have hmem : opening ∈ construct := by simp [hconstruct]
  cases h with
  | data hkind =>
      rw [List.mem_singleton.1 hmem] at hmarks
      exact absurd (hkind.symm.trans hmarks.1) (by decide)
  | @shortComment opening' closing content hopening hcontent hclosing =>
      have hkinds : ∀ token ∈ opening' :: (content.toList ++ [closing]), token.kind ≠ .blockBegin := by
        cases content with
        | none => simp [hopening, hclosing]
        | some body => simp [hopening, hclosing, hcontent body rfl]
      exact absurd hmarks.1 (hkinds opening hmem)
  | @lorem _ name' closing _ arguments _ _ _ _ _ hname hvalue harguments hclosing =>
      cases front with
      | nil =>
          obtain ⟨rfl, rfl⟩ := List.cons.inj hconstruct
          obtain ⟨rfl, -⟩ := List.cons.inj hmore
          have hvalue' := List.mem_singleton.1 hmarks.2.2
          exact absurd (hvalue'.symm.trans hvalue) (by decide)
      | cons token front =>
          obtain ⟨-, htail⟩ := List.cons.inj hconstruct
          have hkinds : ∀ token ∈ name' :: (arguments ++ [closing]), token.kind ≠ .blockBegin := by
            refine List.forall_mem_cons.2 ⟨by simp [hname], ?_⟩
            exact harguments.inner.kind_ne_blockBegin hclosing
          exact absurd hmarks.1 (hkinds opening (by rw [htail]; simp))
  | @comment opening₀ name₀ closing opening' name' closing' body _ _ _ _ _ _ hopening' hname' hvalue'
      hclosing' =>
      have hmarks' : Marks ["endcomment"] opening' name' := ⟨hopening', hname', by simp [hvalue']⟩
      replace heq : (opening₀ :: name₀ :: closing :: body) ++ (opening' :: name' :: closing' :: rest) =
          front ++ opening :: name :: rest' := by simpa using heq
      by_cases hbody : front.length < (opening₀ :: name₀ :: closing :: body).length
      · obtain ⟨between, -, hbetween⟩ := exists_of_append_eq hbody heq
        cases between with
        | nil =>
            obtain ⟨rfl, -⟩ := List.cons.inj hbetween
            exact absurd (hmarks.2.1.symm.trans hopening') (by decide)
        | cons token between =>
            obtain ⟨-, rfl⟩ := List.cons.inj hbetween
            exact ⟨between, opening', name', _, rfl, hmarks'⟩
      · obtain ⟨front', rfl, hfront'⟩ := exists_behind_of_append_eq (Nat.not_lt.1 hbody) heq
        rcases front' with _ | ⟨token, _ | ⟨token', _ | ⟨token'', front'⟩⟩⟩
        · obtain ⟨-, hname⟩ := List.cons.inj hfront'
          obtain ⟨rfl, -⟩ := List.cons.inj hname
          exact absurd ((List.mem_singleton.1 hmarks.2.2).symm.trans hvalue') (by decide)
        · obtain ⟨rfl, -⟩ := List.cons.inj (List.cons.inj hfront').2
          exact absurd (hmarks.1.symm.trans hname') (by decide)
        · obtain ⟨rfl, -⟩ := List.cons.inj (List.cons.inj (List.cons.inj hfront').2).2
          exact absurd (hmarks.1.symm.trans hclosing') (by decide)
        · simp only [List.length_append, List.length_cons, List.length_nil] at hlength
          omega

/-- Each block comment in tokens that derive is ended somewhere behind. -/
theorem Derives.marked_of_comment {nodes : List Node} {opening name : Token} (h : Derives disabled tokens nodes)
    (heq : tokens ++ rest = front ++ opening :: name :: rest') (hmarks : Marks ["comment"] opening name)
    (hlength : front.length < tokens.length) : Marked ["endcomment"] rest' := by
  induction h generalizing front with
  | nil => simp at hlength
  | @cons construct tokens _ _ _ hconstruct _ _ ih =>
      rw [List.append_assoc] at heq
      by_cases hinside : front.length < construct.length
      · exact hconstruct.marked_of_comment heq hmarks hinside
      · obtain ⟨front', rfl, hfront'⟩ := exists_behind_of_append_eq (Nat.not_lt.1 hinside) heq
        exact ih hfront' (by simpa using hlength)

end Grammar

/-! ### The token to blame -/

theorem not_marked_of_isChain {names : List String}
    (h : tokens.IsChain fun token next => ¬Marks names token next) : ¬Marked names tokens := by
  rintro ⟨before, opening, name, after, rfl, hmarks⟩
  exact (List.isChain_cons_cons.1 (List.isChain_append.1 h).2.1).1 hmarks

namespace Grammar

variable {inside : List Token} {token : Token} {fault : Fault} {nodes : List Node}

theorem Flaw.of_unterminatedBlock {complaint : Complaint} {token' : Token}
    (h : Flaw disabled inside token rest fault)
    (hfault : fault = .grammar .unterminatedBlock complaint token') :
    ∃ opening name, inside = [opening, name] ∧ Marks ["comment"] opening name ∧
      (token :: rest).IsChain fun token next => ¬Marks ["endcomment"] token next := by
  cases h with
  | unterminated _ hopening hname hvalue _ hchain =>
      exact ⟨_, _, rfl, ⟨hopening, hname, by simp [hvalue]⟩, hchain⟩
  | statementName | unknown | count | arguments | commentArguments | commentEnd =>
      simp [Fault.grammar] at hfault

/-- The tokens up to a flaw are the longest front that is viable. -/
theorem Flaw.viable_iff (h : Flaw disabled inside token rest fault)
    (hfault : ∀ complaint token, fault ≠ .grammar .unterminatedBlock complaint token)
    (henabled : "lorem" ∉ disabled ∨ "comment" ∉ disabled) (hbefore : Derives disabled tokens nodes)
    (hend : Endless (tokens ++ inside ++ [token]))
    (hfront : front <+: tokens ++ inside ++ token :: more) :
    Viable disabled front ↔ front.length ≤ (tokens ++ inside).length := by
  constructor
  · intro hviable
    by_contra hlength
    have hlong : tokens ++ inside ++ [token] <+: front := by
      refine List.prefix_of_prefix_length_le ⟨more, by simp⟩ hfront ?_
      rw [List.length_append, List.length_singleton]
      exact Nat.not_le.1 hlength
    obtain ⟨more', nodes', hend', hderives⟩ := hend.exists_derives_of_viable (hviable.of_prefix hlong)
    have hsplit : tokens ++ inside ++ [token] ++ more' = tokens ++ (inside ++ token :: more') := by simp
    rw [hsplit] at hend' hderives
    obtain ⟨nodes'', hrest⟩ := hbefore.of_append hend' hderives
    obtain ⟨construct, rest', _, _, heq, hconstruct, -⟩ := hrest.exists_construct (by simp)
    exact h.not_construct hfault hconstruct heq.symm
  · intro hlength
    obtain ⟨more', node, hmore', hconstruct⟩ := h.exists_construct henabled
    obtain ⟨nodes', hinside⟩ := hconstruct.derives
    obtain ⟨nodes'', hderives⟩ := hbefore.append hinside
    have hend' : Endless (tokens ++ (inside ++ more')) := by
      rw [← List.append_assoc]
      exact Endless.append_iff.2 ⟨(Endless.append_iff.1 hend).1, hmore'⟩
    have hviable : Viable disabled (tokens ++ inside) :=
      ⟨more', by rw [List.append_assoc]; exact hend'.accepted_iff.2 ⟨nodes'', hderives⟩⟩
    exact hviable.of_prefix (List.prefix_of_prefix_length_le hfront (List.prefix_append _ _) hlength)

/-- Nothing that is accepted begins where the tag with a flaw opens. -/
theorem Flaw.not_accepted (h : Flaw disabled inside token rest fault)
    (hfault : ∀ complaint token, fault ≠ .grammar .unterminatedBlock complaint token)
    (hfront : front <+: inside ++ token :: more) (hne : front ≠ []) : ¬Accepted disabled front := by
  rw [TagTemplate.accepted_iff]
  rintro ⟨nodes, hderives⟩
  obtain ⟨opening, inside, rfl, hopening⟩ := h.exists_cons
  obtain ⟨first, front, rfl⟩ := List.exists_cons_of_ne_nil hne
  obtain ⟨after, hafter⟩ := hfront
  obtain ⟨rfl, -⟩ := List.cons.inj hafter
  rw [List.takeWhile_cons_of_pos (by simp [hopening])] at hderives
  obtain ⟨construct, rest', _, _, heq, hconstruct, -⟩ := hderives.exists_construct (List.cons_ne_nil _ _)
  have hwhole : construct ++ (rest' ++ front.dropWhile (·.kind != .eof) ++ after) =
      first :: inside ++ token :: more := by
    rw [← hafter, ← List.append_assoc, ← List.append_assoc, ← heq, List.cons_append, List.takeWhile_append_dropWhile]
  exact h.not_construct hfault hconstruct hwhole

end Grammar

/-- A token in a tag behind constructs that are accepted alone, and the first with which no list of tokens
begins that is accepted. The tag is not one of the constructs, nor is anything else that begins where it opens. -/
def FirstUnfit (disabled : List String) (tokens : List Token) (token : Token) : Prop :=
  ∃ (constructs : List (List Token)) (opening : Token) (inside after : List Token),
    tokens = constructs.flatten ++ (opening :: inside) ++ token :: after ∧
    (∀ construct ∈ constructs, Accepted disabled construct) ∧ opening.kind = .blockBegin ∧
    (∀ front, front <+: opening :: inside ++ token :: after → front ≠ [] → ¬Accepted disabled front) ∧
    ∀ front, front <+: tokens →
      (Viable disabled front ↔ front.length ≤ (constructs.flatten ++ (opening :: inside)).length)

/-- The token behind the name of the first tag for a block comment that no tag to end one follows. -/
def BehindUnended (tokens : List Token) (token : Token) : Prop :=
  ∃ before opening name after, tokens = before ++ opening :: name :: token :: after ∧
    Marks ["comment"] opening name ∧ ¬Marked ["endcomment"] (token :: after) ∧
    ∀ before' opening' name' after', tokens = before' ++ opening' :: name' :: after' →
      before'.length < before.length → Marks ["comment"] opening' name' → Marked ["endcomment"] after'

namespace Grammar.Flaw

variable {before inside : List Token} {token last : Token} {fault : Fault} {nodes : List Node}

/-- A flaw is in the first token that cannot stand where it does. -/
theorem firstUnfit (h : Flaw disabled inside token rest fault)
    (hfault : ∀ complaint token, fault ≠ .grammar .unterminatedBlock complaint token)
    (henabled : "lorem" ∉ disabled ∨ "comment" ∉ disabled) (hbefore : Derives disabled before nodes)
    (hend : Endless (before ++ (inside ++ token :: rest))) :
    FirstUnfit disabled (before ++ (inside ++ token :: rest) ++ [last]) token := by
  have hsplit : before ++ (inside ++ token :: rest) = before ++ inside ++ [token] ++ rest := by simp
  have hfront : Endless (before ++ inside ++ [token]) := (Endless.append_iff.1 (hsplit ▸ hend)).1
  have htokens : before ++ (inside ++ token :: rest) ++ [last] = before ++ inside ++ token :: (rest ++ [last]) := by
    simp
  obtain ⟨constructs, rfl, hconstructs⟩ := hbefore.exists_flatten
  obtain ⟨opening, inside, rfl, hopening⟩ := h.exists_cons
  refine ⟨constructs, opening, inside, rest ++ [last], htokens, ?_, hopening, ?_, ?_⟩
  · intro construct hmem
    obtain ⟨node, hconstruct⟩ := hconstructs construct hmem
    have hconstructEnd : Endless construct := fun token' htoken' =>
      hend token' (List.mem_append_left _ (List.mem_flatten_of_mem hmem htoken'))
    exact hconstructEnd.accepted_iff.2 hconstruct.derives
  · exact fun front hprefix hne => h.not_accepted hfault hprefix hne
  · intro front hprefix
    exact h.viable_iff hfault henabled hbefore hfront (htokens ▸ hprefix)

/-- A block comment without an end is the first one. -/
theorem behindUnended {complaint : Complaint} {token' : Token} (h : Flaw disabled inside token rest fault)
    (hfault : fault = .grammar .unterminatedBlock complaint token') (hbefore : Derives disabled before nodes)
    (hlast : last.kind = .eof) : BehindUnended (before ++ (inside ++ token :: rest) ++ [last]) token := by
  obtain ⟨opening, name, rfl, hmarks, hchain⟩ := h.of_unterminatedBlock hfault
  refine ⟨before, opening, name, rest ++ [last], by simp, hmarks, not_marked_of_isChain ?_, ?_⟩
  · rw [← List.cons_append]
    refine hchain.append (.singleton _) fun _ _ next hnext hmarked => ?_
    obtain rfl : last = next := Option.some.inj hnext
    exact absurd (hlast.symm.trans hmarked.2.1) (by decide)
  · intro before' opening' name' after' heq hlength hmarks'
    rw [List.append_assoc] at heq
    exact hbefore.marked_of_comment heq hmarks' hlength

end Grammar.Flaw

/-- The token that is to blame when the tokens of a text are refused. -/
theorem blame_of_recognise (d : Delimiters) (disabled : List String) (text : String) (tokens : List Token)
    (error : SyntaxError) (henabled : "lorem" ∉ disabled ∨ "comment" ∉ disabled)
    (hscan : (d.scan text).outcome = .ok tokens)
    (herror : ((Cursor.whole tokens.toArray).recognise (Tag.builtinReaders disabled)).outcome =
      .error (.user (.grammar error))) :
    (error.kind ≠ .unterminatedBlock → FirstUnfit disabled tokens error.token) ∧
    (error.kind = .unterminatedBlock → BehindUnended tokens error.token) := by
  obtain ⟨parts, hreads, rfl⟩ := Mode.outcome_eq_ok_iff.1 hscan
  have hend : Endless (Part.tokens d Location.start parts) := fun token hmem =>
    Cursor.kind_ne_eof (hreads.ahead_whole Location.start ▸ hmem)
  obtain ⟨before, nodes, inside, token, rest, htokens, hbefore, hflaw⟩ := hreads.flawed_of_recognise herror
  obtain ⟨last, hlast, hall⟩ : ∃ last : Token, last.kind = .eof ∧
      Piece.tokens Location.start (Part.allPieces d parts ++ [Piece.final]) =
        before ++ (inside ++ token :: rest) ++ [last] := by
    rw [← htokens, Piece.tokens_append]
    exact ⟨_, rfl, rfl⟩
  rw [hall]
  rw [htokens] at hend
  obtain ⟨kind, complaint, rfl⟩ : ∃ kind complaint, error = ⟨kind, complaint, token⟩ := by
    rcases hflaw.fault_cases with ⟨kind, complaint, hfault⟩ | ⟨_, hfault, -⟩
    · exact ⟨kind, complaint, by simpa [Fault.grammar] using hfault⟩
    · simp at hfault
  constructor
  · intro hkind
    refine hflaw.firstUnfit (fun complaint' token' hfault => hkind ?_) henabled hbefore hend
    simp only [Fault.grammar, Fault.user.injEq, UserError.grammar.injEq, SyntaxError.mk.injEq] at hfault
    exact hfault.1
  · rintro rfl
    exact hflaw.behindUnended rfl hbefore hlast

/-- A word that is no mode, and a block comment that is not the first and never ends. -/
theorem blame_of_recognise_word_and_comment :
    (∃ tokens error, (Delimiters.standard.scan "a\x7b% lorem 2 x %\x7d").outcome = .ok tokens ∧
      ((Cursor.whole tokens.toArray).recognise (Tag.builtinReaders [])).outcome =
        .error (.user (.grammar error)) ∧ FirstUnfit [] tokens error.token) ∧
    ∃ tokens error, (Delimiters.standard.scan
        "\x7b% comment %\x7d\x7b% endcomment %\x7d\x7b% comment %\x7d").outcome = .ok tokens ∧
      ((Cursor.whole tokens.toArray).recognise (Tag.builtinReaders [])).outcome =
        .error (.user (.grammar error)) ∧ BehindUnended tokens error.token := by
  constructor
  · refine ⟨[⟨.data, "a", ⟨0, 1, 1⟩⟩, ⟨.blockBegin, "\x7b%", ⟨1, 1, 2⟩⟩, ⟨.name, "lorem", ⟨4, 1, 5⟩⟩,
      ⟨.integer, "2", ⟨10, 1, 11⟩⟩, ⟨.name, "x", ⟨12, 1, 13⟩⟩, ⟨.blockEnd, "%\x7d", ⟨14, 1, 15⟩⟩,
      ⟨.eof, "", ⟨16, 1, 17⟩⟩], ⟨.malformedArguments, .loremMethod, ⟨.name, "x", ⟨12, 1, 13⟩⟩⟩, ?scan, ?recognise,
      (blame_of_recognise _ [] _ _ _ (.inl (by simp)) ?scan ?recognise).1 (by simp)⟩
    all_goals cbv
  · refine ⟨[⟨.blockBegin, "\x7b%", ⟨0, 1, 1⟩⟩, ⟨.name, "comment", ⟨3, 1, 4⟩⟩, ⟨.blockEnd, "%\x7d", ⟨11, 1, 12⟩⟩,
      ⟨.blockBegin, "\x7b%", ⟨13, 1, 14⟩⟩, ⟨.name, "endcomment", ⟨16, 1, 17⟩⟩,
      ⟨.blockEnd, "%\x7d", ⟨27, 1, 28⟩⟩, ⟨.blockBegin, "\x7b%", ⟨29, 1, 30⟩⟩,
      ⟨.name, "comment", ⟨32, 1, 33⟩⟩, ⟨.blockEnd, "%\x7d", ⟨40, 1, 41⟩⟩, ⟨.eof, "", ⟨42, 1, 43⟩⟩],
      ⟨.unterminatedBlock, .unexpectedEnd ["endcomment"], ⟨.blockEnd, "%\x7d", ⟨40, 1, 41⟩⟩⟩, ?read, ?refuse,
      (blame_of_recognise _ [] _ _ _ (.inl (by simp)) ?read ?refuse).2 rfl⟩
    all_goals cbv

end TagTemplate
