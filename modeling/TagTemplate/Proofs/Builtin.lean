import TagTemplate.Proofs.Grammar
import TagTemplate.Proofs.Recognition

/-!
# What the built-in tags read

The reader of filler text takes exactly the arguments that the grammar has, and the reader of block comments
takes everything up to the first end tag. Where the grammar leaves an argument out, the token at the cursor
cannot be mistaken for it.
-/

namespace TagTemplate

open Cursor (Marks)

theorem Registry.lookup_eq_some_iff {α : Type} {registry : Registry α} {name : String} {value : α} :
    registry.lookup name = some value ↔ (name, value) ∈ registry.entries := by
  rw [lookup, Option.map_eq_some_iff]
  constructor
  · rintro ⟨⟨name', value'⟩, hfind, rfl⟩
    obtain rfl : name' = name := by simpa using List.find?_some hfind
    exact List.mem_of_find?_eq_some hfind
  · intro hmem
    obtain ⟨front, back, hentries⟩ := List.append_of_mem hmem
    refine ⟨(name, value), ?_, rfl⟩
    refine List.find?_eq_some_iff_append.2 ⟨beq_self_eq_true name, front, back, hentries, ?_⟩
    intro entry hentry
    have hnodup := registry.nodup
    rw [hentries, List.map_append, List.nodup_append] at hnodup
    simpa using hnodup.2.2 entry.1 (List.mem_map_of_mem hentry) name (by simp)

theorem Lorem.Mode.ofLetter?_eq_some_iff {letter : String} {mode : Lorem.Mode} :
    ofLetter? letter = some mode ↔ letter = mode.letter := by
  constructor
  · intro h
    unfold ofLetter? at h
    split at h <;> simp_all [Lorem.Mode.letter] <;> subst h <;> rfl
  · rintro rfl
    exact ofLetter?_letter mode

theorem Lorem.Mode.exists_letter_iff {letter : String} :
    (∃ mode : Lorem.Mode, letter = mode.letter) ↔ letter ∈ ["w", "p", "b"] := by
  constructor
  · rintro ⟨mode, rfl⟩
    cases mode <;> decide
  · intro h
    simp only [List.mem_cons, List.not_mem_nil, or_false] at h
    rcases h with rfl | rfl | rfl
    · exact ⟨.words, rfl⟩
    · exact ⟨.htmlParagraphs, rfl⟩
    · exact ⟨.plainParagraphs, rfl⟩

theorem Grammar.Choice.exists_mode {tokens : List Token} {letter : String} {random : Bool}
    (h : Choice tokens letter random) : ∃ mode : Lorem.Mode, letter = mode.letter := by
  cases h with
  | default => exact ⟨.plainParagraphs, rfl⟩
  | mode _ hvalue | random _ hvalue => exact Lorem.Mode.exists_letter_iff.2 hvalue

theorem Grammar.Arguments.exists_mode {tokens : List Token} {count : Int} {letter : String} {random : Bool}
    (h : Arguments tokens count letter random) : ∃ mode : Lorem.Mode, letter = mode.letter := by
  cases h with
  | uncounted hchoice | counted _ _ hchoice => exact hchoice.exists_mode

namespace Tag

variable {α : Type} {action : Cursor.Action α} {out args cursor : Cursor} {scope : Scope} {value : α}

theorem outer_of_ok (h : action out = .ok value cursor) :
    outer action ⟨out, args⟩ = .ok value ⟨cursor, args⟩ := by
  rw [outer, h]

theorem arguments_of_ok (h : action args = .ok value cursor) :
    arguments action ⟨out, args⟩ = .ok value ⟨out, cursor⟩ := by
  rw [arguments, h]

theorem outer_eq_ok_iff :
    outer action ⟨out, args⟩ = .ok value scope ↔
      ∃ cursor, action out = .ok value cursor ∧ scope = ⟨cursor, args⟩ := by
  rw [outer]
  cases action out <;> simp [eq_comm]

theorem arguments_eq_ok_iff :
    arguments action ⟨out, args⟩ = .ok value scope ↔
      ∃ cursor, action args = .ok value cursor ∧ scope = ⟨out, cursor⟩ := by
  rw [arguments]
  cases action args <;> simp [eq_comm]

/-- Reads an argument if it is of the kind that is read here. -/
def optional (kind : TokenKind) (read : Token → Reading α) (default : α) : Reading α := do
  match ← arguments (Cursor.take? [kind]) with
  | some token => read token
  | none => pure default

/-- Hands a value back if there are no more arguments. -/
def finish (complaint : Complaint) (value : α) : Reading α := do
  unless ← arguments Cursor.atEnd do
    arguments (Cursor.refuse .malformedArguments complaint)
  return value

/-- Reads the mode of filler text and the word for a random choice, and hands back what they make. -/
def choose (complaint : Complaint) (make : String → Bool → α) : Reading α := do
  let mode ← optional .name readMode .plainParagraphs
  let random ← arguments (Cursor.takeName? ["random"])
  finish complaint (make mode.letter random.isSome)

theorem lorem_eq (nested : Tag.Nested) :
    lorem nested = (do
      let location ← outer Cursor.current
      let count ← optional .integer readCount 1
      choose .loremArguments fun letter random => .statement (.lorem location count letter random)) := by
  simp only [lorem, choose, optional]
  simp only [bind_assoc]
  refine bind_congr fun location => bind_congr fun number => ?_
  cases number with
  | none => exact bind_congr fun count => bind_congr fun letter => by cases letter <;> rfl
  | some token => exact bind_congr fun count => bind_congr fun letter => by cases letter <;> rfl

theorem comment_eq (nested : Tag.Nested) :
    comment nested = (do
      let location ← outer Cursor.current
      outer (Cursor.skipUntil ["endcomment"])
      finish .commentArguments (.statement (.comment location))) := rfl

theorem optional_eq_ok_iff (h : args.Placed) {kind : TokenKind} {read : Token → Reading α} {default : α}
    {Meaning : Token → α → Prop}
    (hread : ∀ token value scope scope',
      read token scope = .ok value scope' ↔ Meaning token value ∧ scope' = scope) :
    optional kind read default ⟨out, args⟩ = .ok value scope ↔
      (∃ token rest, args.ahead = token :: rest ∧ token.kind = kind ∧ Meaning token value ∧
        scope = ⟨out, args.skip 1⟩) ∨
      ((∀ token, args.ahead.head? = some token → token.kind ≠ kind) ∧ value = default ∧
        scope = ⟨out, args⟩) := by
  rw [optional, bind_eq_ok_iff]
  constructor
  · rintro ⟨taken, scope₁, htaken, hok⟩
    obtain ⟨cursor, htake, rfl⟩ := arguments_eq_ok_iff.1 htaken
    cases taken with
    | some token =>
        obtain ⟨rest, hahead, hkind, rfl⟩ := (Cursor.take?_eq_some_iff h).1 htake
        obtain ⟨hmeaning, rfl⟩ := (hread _ _ _ _).1 hok
        exact .inl ⟨token, rest, hahead, hkind, hmeaning, rfl⟩
    | none =>
        obtain ⟨rfl, hhead⟩ := (Cursor.take?_eq_none_iff h).1 htake
        obtain ⟨rfl, rfl⟩ := pure_eq_ok_iff.1 hok
        exact .inr ⟨hhead, rfl, rfl⟩
  · rintro (⟨token, rest, hahead, hkind, hmeaning, rfl⟩ | ⟨hhead, rfl, rfl⟩)
    · have htake := (Cursor.take?_eq_some_iff h).2 ⟨rest, hahead, hkind, rfl⟩
      exact ⟨some token, _, arguments_of_ok htake, (hread _ _ _ _).2 ⟨hmeaning, rfl⟩⟩
    · have htake := (Cursor.take?_eq_none_iff h).2 ⟨rfl, hhead⟩
      exact ⟨none, _, arguments_of_ok htake, pure_eq_ok_iff.2 ⟨rfl, rfl⟩⟩

theorem readCount_eq_ok_iff (token : Token) (count : Int) (scope scope' : Scope) :
    readCount token scope = .ok count scope' ↔
      Number.readInteger token.value = .ok count ∧ scope' = scope := by
  rw [readCount]
  cases Number.readInteger token.value with
  | ok count' => simp [pure_eq_ok_iff, eq_comm]
  | error error => simp

theorem readMode_eq_ok_iff (token : Token) (mode : Lorem.Mode) (scope scope' : Scope) :
    readMode token scope = .ok mode scope' ↔ token.value = mode.letter ∧ scope' = scope := by
  rw [readMode, ← Lorem.Mode.ofLetter?_eq_some_iff]
  cases Lorem.Mode.ofLetter? token.value with
  | some mode' => simp [pure_eq_ok_iff, eq_comm]
  | none => simp

theorem finish_eq_ok_iff (h : args.Placed) {complaint : Complaint} {value' : α} :
    finish complaint value ⟨out, args⟩ = .ok value' scope ↔
      args.ahead = [] ∧ value' = value ∧ scope = ⟨out, args⟩ := by
  rw [finish, bind_of_ok (arguments_of_ok (Cursor.atEnd_apply h))]
  cases hahead : args.ahead with
  | nil =>
      rw [List.isEmpty_nil, if_pos rfl]
      simpa using pure_eq_ok_iff
  | cons token tokens =>
      rw [List.isEmpty_cons, if_neg (by simp), bind_eq_ok_iff]
      constructor
      · rintro ⟨_, _, hrefuse, -⟩
        simp [arguments, Cursor.refuse_apply h] at hrefuse
      · rintro ⟨hnil, -⟩
        simp at hnil

variable {nested : Tag.Nested} {product : Product}

theorem choose_eq_ok_iff (h : args.Placed) {complaint : Complaint} {make : String → Bool → α} :
    choose complaint make ⟨out, args⟩ = .ok value scope ↔
      ∃ letter random, Grammar.Choice args.ahead letter random ∧ value = make letter random ∧
        scope = ⟨out, args.skip args.ahead.length⟩ := by
  rw [choose, bind_eq_ok_iff]
  constructor
  · rintro ⟨mode, scope₁, hmode, hok⟩
    obtain ⟨word, scope₂, hworded, hfinish⟩ := bind_eq_ok_iff.1 hok
    rcases (optional_eq_ok_iff h readMode_eq_ok_iff).1 hmode with
      ⟨letter, rest, hahead, hkind, hletter, rfl⟩ | ⟨hhead, rfl, rfl⟩
    · have hrest := Cursor.ahead_skip_one h hahead
      obtain ⟨cursor, hword, rfl⟩ := arguments_eq_ok_iff.1 hworded
      cases word with
      | some word =>
          obtain ⟨rest', hahead', ⟨hkind', hvalue⟩, rfl⟩ := (Cursor.takeName?_eq_some_iff (h.skip 1)).1 hword
          obtain ⟨hnil, rfl, rfl⟩ := (finish_eq_ok_iff ((h.skip 1).skip 1)).1 hfinish
          rw [Cursor.ahead_skip_one (h.skip 1) hahead'] at hnil
          subst hnil
          rw [hrest] at hahead'
          subst hahead'
          rw [hahead]
          exact ⟨mode.letter, true,
            hletter ▸ .random hkind (Lorem.Mode.exists_letter_iff.1 ⟨mode, hletter⟩) hkind'
              (List.mem_singleton.1 hvalue), rfl, by simp⟩
      | none =>
          obtain ⟨rfl, -⟩ := (Cursor.takeName?_eq_none_iff (h.skip 1)).1 hword
          obtain ⟨hnil, rfl, rfl⟩ := (finish_eq_ok_iff (h.skip 1)).1 hfinish
          rw [hrest] at hnil
          subst hnil
          rw [hahead]
          exact ⟨mode.letter, false,
            hletter ▸ .mode hkind (Lorem.Mode.exists_letter_iff.1 ⟨mode, hletter⟩), rfl, rfl⟩
    · obtain ⟨cursor, hword, rfl⟩ := arguments_eq_ok_iff.1 hworded
      cases word with
      | some word =>
          obtain ⟨rest, hahead, ⟨hkind, -⟩, rfl⟩ := (Cursor.takeName?_eq_some_iff h).1 hword
          rw [hahead] at hhead
          exact absurd hkind (hhead word rfl)
      | none =>
          obtain ⟨rfl, -⟩ := (Cursor.takeName?_eq_none_iff h).1 hword
          obtain ⟨hnil, rfl, rfl⟩ := (finish_eq_ok_iff h).1 hfinish
          rw [hnil]
          exact ⟨"b", false, .default, rfl, by simp⟩
  · rintro ⟨letter, random, hchoice, rfl, rfl⟩
    generalize hahead : args.ahead = tokens at hchoice ⊢
    cases hchoice with
    | default =>
        have hword : Cursor.takeName? ["random"] args = .ok none args :=
          (Cursor.takeName?_eq_none_iff h).2 ⟨rfl, by simp [hahead]⟩
        refine ⟨_, _, (optional_eq_ok_iff h readMode_eq_ok_iff).2 (.inr ⟨by simp [hahead], rfl, rfl⟩), ?_⟩
        rw [bind_of_ok (arguments_of_ok hword)]
        exact (finish_eq_ok_iff h).2 ⟨hahead, rfl, by simp⟩
    | @mode letter hkind hvalue' =>
        obtain ⟨mode, hletter⟩ := Lorem.Mode.exists_letter_iff.2 hvalue'
        rw [hletter]
        have hrest := Cursor.ahead_skip_one h hahead
        have hword : Cursor.takeName? ["random"] (args.skip 1) = .ok none (args.skip 1) :=
          (Cursor.takeName?_eq_none_iff (h.skip 1)).2 ⟨rfl, by simp [hrest]⟩
        refine ⟨_, _, (optional_eq_ok_iff h readMode_eq_ok_iff).2
          (.inl ⟨letter, [], hahead, hkind, hletter, rfl⟩), ?_⟩
        rw [bind_of_ok (arguments_of_ok hword)]
        exact (finish_eq_ok_iff (h.skip 1)).2 ⟨hrest, rfl, rfl⟩
    | @random letter word hkind hvalue' hkind' hvalue =>
        obtain ⟨mode, hletter⟩ := Lorem.Mode.exists_letter_iff.2 hvalue'
        rw [hletter]
        have hrest := Cursor.ahead_skip_one h hahead
        have hrest' := Cursor.ahead_skip_one (h.skip 1) hrest
        have hword : Cursor.takeName? ["random"] (args.skip 1) = .ok (some word) ((args.skip 1).skip 1) :=
          (Cursor.takeName?_eq_some_iff (h.skip 1)).2 ⟨[], hrest, ⟨hkind', by simp [hvalue]⟩, rfl⟩
        refine ⟨_, _, (optional_eq_ok_iff h readMode_eq_ok_iff).2
          (.inl ⟨letter, [word], hahead, hkind, hletter, rfl⟩), ?_⟩
        rw [bind_of_ok (arguments_of_ok hword)]
        exact (finish_eq_ok_iff ((h.skip 1).skip 1)).2 ⟨hrest', rfl, by simp⟩

theorem lorem_eq_ok_iff (hout : out.Placed) (h : args.Placed) :
    lorem nested ⟨out, args⟩ = .ok product scope ↔
      ∃ count letter random, Grammar.Arguments args.ahead count letter random ∧
        product = .statement (.lorem out.here count letter random) ∧
        scope = ⟨out, args.skip args.ahead.length⟩ := by
  rw [lorem_eq, bind_of_ok (outer_of_ok (Cursor.current_apply hout)), bind_eq_ok_iff]
  constructor
  · rintro ⟨count, scope₁, hcount, hok⟩
    rcases (optional_eq_ok_iff h readCount_eq_ok_iff).1 hcount with
      ⟨number, rest, hahead, hkind, hnumber, rfl⟩ | ⟨-, rfl, rfl⟩
    · obtain ⟨letter, random, hchoice, rfl, rfl⟩ := (choose_eq_ok_iff (h.skip 1)).1 hok
      rw [Cursor.ahead_skip_one h hahead] at hchoice ⊢
      rw [hahead, Cursor.skip_skip, List.length_cons, Nat.add_comm rest.length]
      exact ⟨count, letter, random, .counted hkind hnumber hchoice, rfl, rfl⟩
    · obtain ⟨letter, random, hchoice, rfl, rfl⟩ := (choose_eq_ok_iff h).1 hok
      exact ⟨1, letter, random, .uncounted hchoice, rfl, rfl⟩
  · rintro ⟨count, letter, random, harguments, rfl, rfl⟩
    generalize hahead : args.ahead = tokens at harguments ⊢
    cases harguments with
    | uncounted hchoice =>
        refine ⟨_, _, (optional_eq_ok_iff h readCount_eq_ok_iff).2
          (.inr ⟨hahead ▸ hchoice.head?_kind_ne, rfl, rfl⟩), ?_⟩
        exact (choose_eq_ok_iff h).2 ⟨letter, random, hahead ▸ hchoice, rfl, by rw [hahead]⟩
    | @counted number tokens count letter random hkind hnumber hchoice =>
        have hrest := Cursor.ahead_skip_one h hahead
        refine ⟨_, _, (optional_eq_ok_iff h readCount_eq_ok_iff).2
          (.inl ⟨number, tokens, hahead, hkind, hnumber, rfl⟩), ?_⟩
        refine (choose_eq_ok_iff (h.skip 1)).2 ⟨letter, random, hrest ▸ hchoice, rfl, ?_⟩
        rw [hrest, Cursor.skip_skip, List.length_cons, Nat.add_comm tokens.length]

theorem comment_eq_ok_iff (hout : out.Placed) (h : args.Placed) :
    comment nested ⟨out, args⟩ = .ok product scope ↔
      args.ahead = [] ∧ ∃ body opening name rest, out.ahead = body ++ opening :: name :: rest ∧
        Marks ["endcomment"] opening name ∧
        (body.IsChain fun token next => ¬Marks ["endcomment"] token next) ∧
        product = .statement (.comment out.here) ∧ scope = ⟨out.skip (body.length + 2), args⟩ := by
  rw [comment_eq, bind_of_ok (outer_of_ok (Cursor.current_apply hout)), bind_eq_ok_iff]
  constructor
  · rintro ⟨_, scope₁, hskipped, hok⟩
    obtain ⟨cursor, hskip, rfl⟩ := outer_eq_ok_iff.1 hskipped
    obtain ⟨body, opening, name, rest, hahead, rfl, hmarks, hbody⟩ :=
      (Cursor.skipUntil_eq_ok_iff hout).1 hskip
    obtain ⟨hnil, rfl, rfl⟩ := (finish_eq_ok_iff h).1 hok
    exact ⟨hnil, body, opening, name, rest, hahead, hmarks, hbody, rfl, rfl⟩
  · rintro ⟨hnil, body, opening, name, rest, hahead, hmarks, hbody, rfl, rfl⟩
    have hskip := (Cursor.skipUntil_eq_ok_iff hout).2
      ⟨body, opening, name, rest, hahead, rfl, hmarks, hbody⟩
    exact ⟨(), _, outer_of_ok hskip, (finish_eq_ok_iff h).2 ⟨hnil, rfl, rfl⟩⟩

theorem entries_builtinReaders (disabled : List String) :
    (builtinReaders disabled).entries =
      (Builtin.enabled disabled).map fun tag => (tag.name, tag.reader) := by
  rw [builtinReaders, Registry.map, Builtin.registry, Builtin.enabled, Builtin.all, List.filter_cons,
    List.filter_cons, List.filter_nil]
  cases disabled.contains Builtin.comment.name <;> cases disabled.contains Builtin.lorem.name <;> rfl

theorem lookup_builtinReaders_eq_some_iff {disabled : List String} {name : String} {reader : Reader} :
    (builtinReaders disabled).lookup name = some reader ↔
      name ∉ disabled ∧ (name = "lorem" ∧ reader = lorem ∨ name = "comment" ∧ reader = comment) := by
  rw [Registry.lookup_eq_some_iff, entries_builtinReaders, Builtin.enabled, List.mem_map]
  constructor
  · rintro ⟨tag, htag, hentry⟩
    obtain ⟨rfl, rfl⟩ := Prod.mk.inj hentry
    refine ⟨by simpa using (List.mem_filter.1 htag).2, ?_⟩
    cases tag with
    | comment => exact .inr ⟨rfl, rfl⟩
    | lorem => exact .inl ⟨rfl, rfl⟩
  · rintro ⟨hname, ⟨rfl, rfl⟩ | ⟨rfl, rfl⟩⟩
    · exact ⟨.lorem, List.mem_filter.2 ⟨by decide, by simpa [Builtin.name] using hname⟩, rfl⟩
    · exact ⟨.comment, List.mem_filter.2 ⟨by decide, by simpa [Builtin.name] using hname⟩, rfl⟩

end Tag

section

variable {disabled : List String} {nested : Tag.Nested} {cursor cursor' : Cursor}
  {arguments rest : List Token} {closing : Token} {name : String} {statement : Statement}

theorem readTag_lorem_eq_ok_iff (h : cursor.Placed) (hahead : cursor.ahead = arguments ++ closing :: rest) :
    readTag Tag.lorem nested name (cursor.position + arguments.length) cursor = .ok statement cursor' ↔
      ∃ count letter random, Grammar.Arguments arguments count letter random ∧
        statement = .lorem cursor.here count letter random ∧
        cursor' = cursor.skip arguments.length := by
  have hargs := Cursor.placed_sub h arguments.length
  have hmove : { cursor with position := max cursor.position (cursor.position + arguments.length) } =
      cursor.skip arguments.length := by
    have hmax := @Cursor.skip_max cursor 0 arguments.length
    rwa [Cursor.skip_zero, Nat.zero_max] at hmax
  rw [readTag_eq_ok_iff]
  simp only [Tag.lorem_eq_ok_iff h hargs, Cursor.ahead_sub h hahead]
  constructor
  · rintro ⟨scope, ⟨count, letter, random, harguments, hproduct, rfl⟩, rfl⟩
    obtain rfl := Tag.Product.statement.inj hproduct
    exact ⟨count, letter, random, harguments, rfl, hmove⟩
  · rintro ⟨count, letter, random, harguments, rfl, rfl⟩
    exact ⟨_, ⟨count, letter, random, harguments, rfl, rfl⟩, hmove.symm⟩

theorem readTag_comment_eq_ok_iff (h : cursor.Placed) (hahead : cursor.ahead = arguments ++ closing :: rest)
    (hclosing : closing.kind = .blockEnd) :
    readTag Tag.comment nested name (cursor.position + arguments.length) cursor = .ok statement cursor' ↔
      arguments = [] ∧ ∃ body opening' name' rest', rest = body ++ opening' :: name' :: rest' ∧
        Marks ["endcomment"] opening' name' ∧
        (body.IsChain fun token next => ¬Marks ["endcomment"] token next) ∧
        statement = .comment cursor.here ∧ cursor' = cursor.skip (body.length + 3) := by
  have hargs := Cursor.placed_sub h arguments.length
  rw [readTag_eq_ok_iff]
  simp only [Tag.comment_eq_ok_iff h hargs, Cursor.ahead_sub h hahead]
  constructor
  · rintro ⟨scope, ⟨rfl, body, opening', name', rest', hrest, hmarks, hbody, hproduct, rfl⟩, rfl⟩
    obtain rfl := Tag.Product.statement.inj hproduct
    rw [hahead, List.nil_append] at hrest
    cases body with
    | nil =>
        obtain ⟨rfl, -⟩ := List.cons.inj hrest
        exact absurd (hclosing.symm.trans hmarks.1) (by decide)
    | cons token body =>
        obtain ⟨rfl, rfl⟩ := List.cons.inj hrest
        exact ⟨rfl, body, opening', name', rest', rfl, hmarks, (List.isChain_cons.1 hbody).2, rfl,
          Cursor.skip_max.trans (by simp)⟩
  · rintro ⟨rfl, body, opening', name', rest', rfl, hmarks, hbody, rfl, rfl⟩
    refine ⟨⟨cursor.skip (body.length + 3), _⟩,
      ⟨rfl, closing :: body, opening', name', rest', hahead, hmarks, ?_, rfl, rfl⟩,
      (Cursor.skip_max.trans (by simp)).symm⟩
    exact hbody.cons fun next _ hmarks => absurd (hclosing.symm.trans hmarks.1) (by decide)

end

end TagTemplate
