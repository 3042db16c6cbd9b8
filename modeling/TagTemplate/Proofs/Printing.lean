import TagTemplate.Proofs.Failure
import TagTemplate.Proofs.Spelling

/-!
# Templates that are written down

What a template consists of can be written as a text in many ways: with any blanks between the words of a tag,
and with any body of a block comment that can be read on its own. Whichever way is taken, compiling the text
gives back what was written. Only a count with too many digits is lost.
-/

namespace TagTemplate

open Cursor (Marks)
open Grammar
open Text (isBlank isDigit Clear)

/-! ### Words -/

/-- Blanks between two words, one at least. -/
structure Gap where
  blanks : List Char
  ne_nil : blanks ≠ []
  all_isBlank : blanks.all isBlank = true

/-- A single space. -/
def Gap.space : Gap := ⟨[' '], by decide, by decide⟩

theorem Gap.isBlank_of_mem (gap : Gap) : ∀ c ∈ gap.blanks, isBlank c = true :=
  List.all_eq_true.1 gap.all_isBlank

/-- A whole name. -/
def Lexeme.isName : List Char → Bool
  | [] => false
  | c :: s => isNameStart c && s.all isNamePart

/-- A word of a tag: a name, or a number in decimal digits. -/
inductive Word where
  | name (text : String) (isName : Lexeme.isName text.toList = true)
  | numeral (n : Nat)

namespace Word

def text : Word → String
  | name text _ => text
  | numeral n => toString n

def kind : Word → TokenKind
  | name .. => .name
  | numeral _ => .integer

end Word

/-- A tag of some words, each behind its blanks, with blanks before the end of the tag. -/
def writeTag (words : List (Gap × Word)) (last : Gap) : List Char :=
  Delimiters.standard.blockStart.toList ++
    (words.flatMap (fun (gap, word) => gap.blanks ++ word.text.toList) ++
      (last.blanks ++ Delimiters.standard.blockEnd.toList))

/-! ### Items -/

/-- Text that is not empty and has no opening delimiter in it. -/
structure PlainText where
  text : String
  ne_empty : text ≠ ""
  blockStart : ¬Delimiters.standard.blockStart.toList <:+: text.toList
  commentStart : ¬Delimiters.standard.commentStart.toList <:+: text.toList

/-- A text that a block comment can skip: it can be read on its own, and no tag in it ends the comment. -/
structure Skippable where
  text : String
  tokens : List Token
  outcome_scan : (Delimiters.standard.scan text).outcome = .ok tokens
  isChain : tokens.IsChain fun token next => ¬Marks ["endcomment"] token next

/-- What a template consists of, and how it is written. -/
inductive Item where
  | data (content : PlainText)
  | lorem (count : Nat) (short : (toString count).length ≤ Number.maxDigits) (mode : Lorem.Mode) (random : Bool)
      (gaps : Fin 5 → Gap)
  | comment (body : Skippable) (gaps : Fin 4 → Gap)

namespace Item

def isData : Item → Bool
  | data _ => true
  | _ => false

/-- The arguments of a tag for filler text. -/
def loremArguments (count : Nat) (mode : Lorem.Mode) (random : Bool) (gaps : Fin 5 → Gap) : List (Gap × Word) :=
  (gaps 1, .numeral count) :: (gaps 2, .name mode.letter (by cases mode <;> decide)) ::
    if random then [(gaps 3, .name "random" (by decide))] else []

/-- The text of an item. -/
def source : Item → List Char
  | data content => content.text.toList
  | lorem count _ mode random gaps =>
      writeTag ((gaps 0, .name "lorem" (by decide)) :: loremArguments count mode random gaps) (gaps 4)
  | comment body gaps =>
      writeTag [(gaps 0, .name "comment" (by decide))] (gaps 1) ++
        (body.text.toList ++ writeTag [(gaps 2, .name "endcomment" (by decide))] (gaps 3))

/-- The text of items, one behind the other. -/
def print (items : List Item) : String :=
  String.ofList (items.flatMap source)

/-- Nodes that say what an item says, wherever their tokens stand. -/
inductive Matches : Item → Node → Prop
  | data {content : PlainText} : Matches (.data content) (.data content.text)
  | lorem {count : Nat} {short : (toString count).length ≤ Number.maxDigits} {mode : Lorem.Mode} {random : Bool}
      {gaps : Fin 5 → Gap} {opening location : Token} :
      Matches (.lorem count short mode random gaps)
        (.block opening "lorem" (.lorem location count mode.letter random))
  | comment {body : Skippable} {gaps : Fin 4 → Gap} {opening location : Token} :
      Matches (.comment body gaps) (.block opening "comment" (.comment location))

end Item

/-! ### Reading a tag of words -/

theorem Word.fits (word : Word) : Lexeme.Fits word.kind word.text.toList [] := by
  cases word with
  | name text isName =>
      change Lexeme.Fits .name text.toList []
      cases hs : text.toList with
      | nil => simp [hs, Lexeme.isName] at isName
      | cons c s =>
          rw [hs, Lexeme.isName, Bool.and_eq_true, List.all_eq_true] at isName
          exact .name isName.1 ⟨isName.2, by simp⟩
  | numeral n =>
      have hdigits : ∀ c ∈ Nat.toDigits 10 n, isDigit c = true := fun _ => Number.isDigit_of_mem_toDigits
      rw [show (numeral n).text.toList = Nat.toDigits 10 n from Nat.toList_repr]
      exact .integer Nat.toDigits_ne_nil ⟨hdigits, by simp⟩

/-- A word behind blanks, as it is read. -/
def Word.lexeme (word : Gap × Word) : Piece :=
  ⟨word.1.blanks, word.2.kind, word.2.text.toList⟩

/-- A tag of words as a part of a text. -/
def Part.ofWords (words : List (Gap × Word)) (last : Gap) : Part :=
  .tag (words.map Word.lexeme) last.blanks

namespace Part

variable {words : List (Gap × Word)} {last : Gap}

theorem source_ofWords : (ofWords words last).source .standard = writeTag words last := by
  rw [ofWords, source_tag, writeTag, Piece.sources, List.flatMap_map]
  rfl

theorem stands_ofWords (words : List (Gap × Word)) (last : Gap) (rest : List Char) :
    (ofWords words last).Stands .standard rest := by
  refine stands_tag ?_ ?_ last.isBlank_of_mem rest
  · intro lexeme hmem
    obtain ⟨word, -, rfl⟩ := List.mem_map.1 hmem
    exact ⟨word.2.fits, word.1.isBlank_of_mem⟩
  · intro lexeme hmem
    obtain ⟨word, -, rfl⟩ := List.mem_map.1 (List.mem_of_mem_tail hmem)
    exact word.1.ne_nil

theorem lexical_ofWords (words : List (Gap × Word)) (last : Gap) : (ofWords words last).Lexical :=
  (stands_ofWords words last []).lexical

theorem reads_ofWords (words : List (Gap × Word)) (last : Gap) (rest : List Char) :
    Delimiters.standard.Reads [ofWords words last] (writeTag words last ++ rest) rest := by
  rw [← source_ofWords]
  exact .part (stands_ofWords words last rest) .done

/-- Where no token marks the end of a block comment, no tag ends one. -/
theorem not_endsComment_of_isChain {d : Delimiters} {start : Location} {parts : List Part}
    (h : (tokens d start parts).IsChain fun token next => ¬Marks ["endcomment"] token next) :
    ∀ part ∈ parts, ¬part.EndsComment := by
  rintro part hmem ⟨name, lexemes, gap, rfl, hkind, hvalue⟩
  obtain ⟨front, back, rfl⟩ := List.append_of_mem hmem
  rw [tokens_append, tokens_cons] at h
  obtain ⟨opening, closing, place, hopening, -, htag⟩ :=
    exists_tokens_tag (d := d) (start.after (sources d front)) (name :: lexemes) gap
  rw [htag] at h
  have hchain := (List.isChain_append.1 (List.isChain_append.1 h).2.1).1
  exact (List.isChain_cons_cons.1 hchain).1 ⟨hopening, hkind, List.mem_singleton.2 hvalue⟩

end Part

/-- What a block comment skips falls into parts of which none ends the comment. -/
theorem Skippable.exists_parts (body : Skippable) :
    ∃ parts, Delimiters.standard.Reads parts body.text.toList [] ∧ ∀ part ∈ parts, ¬part.EndsComment := by
  obtain ⟨parts, hreads, htokens⟩ := Mode.outcome_eq_ok_iff.1 body.outcome_scan
  have hchain := body.isChain
  rw [htokens, Piece.tokens_append] at hchain
  exact ⟨parts, hreads, Part.not_endsComment_of_isChain (List.isChain_append.1 hchain).1⟩

/-! ### Reading items -/

namespace PlainText

theorem clear (content : PlainText) : Clear Delimiters.standard.Opens content.text.toList [] := by
  rintro before after heq - (⟨t, ht⟩ | ⟨t, ht⟩)
  · exact content.blockStart ⟨before, t, by rw [heq, List.append_assoc, ht, List.append_nil]⟩
  · exact content.commentStart ⟨before, t, by rw [heq, List.append_assoc, ht, List.append_nil]⟩

/-- Text in front of a tag, or at the end, is one part. -/
theorem stands (content : PlainText) {rest : List Char} (hrest : rest = [] ∨ Delimiters.standard.Opens rest) :
    (Part.text content.text.toList).Stands .standard rest := by
  have hne : content.text.toList ≠ [] := mt String.toList_eq_nil_iff.1 content.ne_empty
  exact ⟨hne, content.clear.opens_of_apart (Delimiters.apart_of_opens hrest), hrest⟩

theorem reads (content : PlainText) {rest : List Char} (hrest : rest = [] ∨ Delimiters.standard.Opens rest) :
    Delimiters.standard.Reads [.text content.text.toList] (content.text.toList ++ rest) rest := by
  obtain ⟨hne, hclear, hend⟩ := content.stands hrest
  exact .text hne hclear hend

end PlainText

theorem opens_writeTag (words : List (Gap × Word)) (last : Gap) (rest : List Char) :
    Delimiters.standard.Opens (writeTag words last ++ rest) := by
  rw [writeTag, List.append_assoc]
  exact .inl (List.prefix_append _ _)

namespace Item

variable {disabled : List String}

theorem opens_source {item : Item} (h : item.isData = false) (rest : List Char) :
    Delimiters.standard.Opens (item.source ++ rest) := by
  cases item with
  | data content => cases h
  | lorem count short mode random gaps => exact opens_writeTag _ _ _
  | comment body gaps =>
      rw [source, List.append_assoc]
      exact opens_writeTag _ _ _

theorem Matches.ne_data {item : Item} {node : Node} (h : item.Matches node) (hdata : item.isData = false)
    (text : String) : node ≠ .data text := by
  rintro rfl
  cases h
  cases hdata

theorem arguments_loremArguments {count : Nat} (short : (toString count).length ≤ Number.maxDigits)
    (mode : Lorem.Mode) (random : Bool) (gaps : Fin 5 → Gap) (place : Location) :
    Arguments (Piece.tokens place ((loremArguments count mode random gaps).map Word.lexeme)) count mode.letter
      random := by
  have hcount : Number.readInteger (String.ofList (toString count).toList) = .ok (count : Int) := by
    rw [String.ofList_toList, Number.readInteger_toString, if_neg (Nat.not_lt.2 short)]
  have hmem : String.ofList mode.letter.toList ∈ ["w", "p", "b"] := by
    cases mode <;> decide
  have hchoice (place : Location) : Choice (Piece.tokens place ((loremArguments count mode random gaps).tail.map
      Word.lexeme)) (String.ofList mode.letter.toList) random := by
    cases random with
    | false => exact .mode rfl hmem
    | true => exact .random rfl hmem rfl String.ofList_toList
  rw [String.ofList_toList] at hchoice
  exact .counted rfl hcount (hchoice _)

/-- A block comment is read as two tags with the parts of its body between them, whatever follows it. -/
theorem exists_reads_comment (body : Skippable) (gaps : Fin 4 → Gap) (rest : List Char) :
    ∃ parts, Delimiters.standard.Reads
        (.ofWords [(gaps 0, .name "comment" (by decide))] (gaps 1) ::
          (parts ++ [.ofWords [(gaps 2, .name "endcomment" (by decide))] (gaps 3)]))
        (source (.comment body gaps) ++ rest) rest ∧ ∀ part ∈ parts, ¬part.EndsComment := by
  obtain ⟨parts, hreads, hends⟩ := body.exists_parts
  have hopens := opens_writeTag [(gaps 2, .name "endcomment" (by decide))] (gaps 3) rest
  have hbody := hreads.extend fun _ value _ => ⟨Delimiters.apart_of_opens (.inr hopens), .inr hopens⟩
  rw [source, List.append_assoc, List.append_assoc]
  exact ⟨parts, (Part.reads_ofWords _ (gaps 1) _).append (hbody.append (Part.reads_ofWords _ (gaps 3) rest)), hends⟩

/-- An item is read as parts that stand for it, in front of whatever can follow it. -/
theorem exists_parts (hlorem : "lorem" ∉ disabled) (hcomment : "comment" ∉ disabled) (item : Item)
    {rest : List Char} (hrest : item.isData = true → rest = [] ∨ Delimiters.standard.Opens rest) :
    ∃ parts, Delimiters.standard.Reads parts (item.source ++ rest) rest ∧ ∀ start, ∃ node, item.Matches node ∧
      Construct disabled (Part.tokens .standard start parts) (some node) := by
  cases item with
  | data content =>
      refine ⟨_, content.reads (hrest rfl), fun start => ⟨_, .data, ?_⟩⟩
      have hconstruct : Construct disabled (Part.tokens .standard start [.text content.text.toList]) _ := .data rfl
      rwa [String.ofList_toList] at hconstruct
  | lorem count short mode random gaps =>
      refine ⟨_, Part.reads_ofWords _ (gaps 4) rest, fun start => ?_⟩
      have hname : String.ofList (Word.lexeme (gaps 0, .name "lorem" (by decide))).value = "lorem" :=
        String.ofList_toList
      have harguments := arguments_loremArguments short mode random gaps start
      obtain ⟨opening, location, hconstruct⟩ := @Part.construct_lorem .standard start _ _ _ (gaps 4).blanks _ _ _ _
        hlorem rfl hname harguments
      rw [Part.tokens, Part.allPieces_cons, Part.allPieces_nil, List.append_nil]
      exact ⟨_, .lorem, hconstruct⟩
  | comment body gaps =>
      obtain ⟨parts, hreads, hends⟩ := exists_reads_comment body gaps rest
      have hname : String.ofList (Word.lexeme (gaps 0, .name "comment" (by decide))).value = "comment" :=
        String.ofList_toList
      have hendName : String.ofList (Word.lexeme (gaps 2, .name "endcomment" (by decide))).value = "endcomment" :=
        String.ofList_toList
      refine ⟨_, hreads, fun start => ?_⟩
      obtain ⟨opening, location, hconstruct⟩ := Part.construct_comment hcomment rfl hname
        (fun part hmem => hreads.lexical part (by simp [hmem])) hends rfl hendName
      exact ⟨_, .comment, hconstruct⟩

/-- Neighbours of which one at least is a tag. -/
def Separate (item next : Item) : Prop :=
  item.isData = true → next.isData = false

instance (item next : Item) : Decidable (Separate item next) :=
  inferInstanceAs (Decidable (_ → _))

theorem exists_derives (hlorem : "lorem" ∉ disabled) (hcomment : "comment" ∉ disabled) {items : List Item}
    (hseparate : items.IsChain Separate) :
    ∃ parts, Delimiters.standard.Reads parts (items.flatMap source) [] ∧ ∀ start, ∃ nodes,
      List.Forall₂ Matches items nodes ∧ Derives disabled (Part.tokens .standard start parts) nodes := by
  induction items with
  | nil => exact ⟨[], .done, fun start => ⟨[], .nil, .nil⟩⟩
  | cons item items ih =>
      obtain ⟨parts', hreads', hderives'⟩ := ih hseparate.tail
      have hrest : item.isData = true → items.flatMap source = [] ∨
          Delimiters.standard.Opens (items.flatMap source) :=
        Delimiters.opens_flatMap (fun _ => opens_source) hseparate
      obtain ⟨parts, hreads, hconstruct⟩ := exists_parts hlorem hcomment item hrest
      refine ⟨parts ++ parts', hreads.append hreads', fun start => ?_⟩
      obtain ⟨node, hmatches, hnode⟩ := hconstruct start
      obtain ⟨nodes, hnodes, hderives⟩ := hderives' (start.after (Part.sources .standard parts))
      refine ⟨node :: nodes, .cons hmatches hnodes, ?_⟩
      rw [Part.tokens_append]
      refine .cons hnode hderives (.apart ?_)
      rintro before after nodes' rfl rfl
      cases hmatches with
      | data =>
          cases hnodes with
          | cons hnext _ => exact hnext.ne_data ((List.isChain_cons_cons.1 hseparate).1 rfl) after rfl

end Item

/-- Compiling what is written gives back the items, each as a node that says the same. -/
theorem compile_print (config : Config) (hstandard : config.delimiters = .standard)
    (hlorem : "lorem" ∉ config.disabled) (hcomment : "comment" ∉ config.disabled) (items : List Item)
    (hseparate : items.IsChain Item.Separate) (name : String) :
    ∃ template, (Compiler.ofConfig config).compile (Item.print items) name = .ok template ∧
      List.Forall₂ Item.Matches items template.nodes := by
  obtain ⟨parts, hreads, hnodes⟩ := Item.exists_derives hlorem hcomment hseparate
  obtain ⟨nodes, hmatches, hderives⟩ := hnodes Location.start
  rw [← hstandard] at hreads hderives
  replace hreads : config.delimiters.Reads parts (Item.print items).toList [] := by
    rwa [Item.print, String.toList_ofList]
  refine ⟨⟨name, nodes, config.seed⟩, ?_, hmatches⟩
  rw [Compiler.compile, (Compiler.nodesOf_eq_ok_iff config hreads).2 hderives]
  rfl

/-- Text that ends in a brace, random words, and a block comment that skips an unknown tag and another brace. -/
theorem compile_print_skipped_tag :
    ∃ content body template, content.text = "a\x7b" ∧ body.text = "\x7b% x %\x7d\x7b" ∧
      (Compiler.ofConfig {}).compile (Item.print [.data content, .lorem 12 (by decide) .words true fun _ => .space,
        .comment body fun _ => ⟨['\n', '\t'], by decide, by decide⟩]) "t" = .ok template ∧
      List.Forall₂ Item.Matches [.data content, .lorem 12 (by decide) .words true fun _ => .space,
        .comment body fun _ => ⟨['\n', '\t'], by decide, by decide⟩] template.nodes := by
  have hscan : (Delimiters.standard.scan "\x7b% x %\x7d\x7b").outcome = .ok [⟨.blockBegin, "\x7b%", ⟨0, 1, 1⟩⟩,
      ⟨.name, "x", ⟨3, 1, 4⟩⟩, ⟨.blockEnd, "%\x7d", ⟨5, 1, 6⟩⟩, ⟨.data, "\x7b", ⟨7, 1, 8⟩⟩,
      ⟨.eof, "", ⟨8, 1, 9⟩⟩] := by
    cbv
  obtain ⟨template, hcompile⟩ := compile_print {} rfl (by decide) (by decide)
    [.data ⟨"a\x7b", by decide, by decide, by decide⟩, .lorem 12 (by decide) .words true fun _ => .space,
      .comment ⟨_, _, hscan, by simp [Marks]⟩ fun _ => ⟨['\n', '\t'], by decide, by decide⟩]
    (by simp [Item.Separate, Item.isData]) "t"
  exact ⟨_, _, template, rfl, rfl, hcompile⟩

/-- A longer count is not given back: the tag is refused, and not as a mistake in the template. -/
theorem compile_writeTag_of_tooLong (config : Config) (hstandard : config.delimiters = .standard)
    (hlorem : "lorem" ∉ config.disabled) {n : Nat} (hlong : Number.maxDigits < (toString n).length)
    (gap gap' last : Gap) (words : List (Gap × Word)) (name : String) :
    (Compiler.ofConfig config).compile (String.ofList
        (writeTag ((gap, .name "lorem" (by decide)) :: (gap', .numeral n) :: words) last)) name =
      .error (.defect (.integer (.tooLong (toString n).length))) := by
  have hreads := Part.reads_ofWords ((gap, .name "lorem" (by decide)) :: (gap', .numeral n) :: words) last []
  have hlexical := Part.lexical_ofWords ((gap', .numeral n) :: words) last
  rw [List.append_nil, ← hstandard] at hreads
  generalize writeTag ((gap, .name "lorem" (by decide)) :: (gap', .numeral n) :: words) last = s at hreads ⊢
  obtain ⟨text, rfl⟩ : ∃ text : String, s = text.toList := ⟨String.ofList s, String.toList_ofList.symm⟩
  rw [String.ofList_toList]
  obtain ⟨opening, closing, place, hopening, hclosing, htag⟩ := @Part.exists_tokens_tag config.delimiters
    Location.start (((gap, .name "lorem" (by decide)) :: (gap', .numeral n) :: words).map Word.lexeme) last.blanks
  obtain ⟨word, number, more, htokens, hword, hvalue, hnumber, hnumeral, hinner⟩ : ∃ word number more,
      Piece.tokens place (((gap, .name "lorem" (by decide)) :: (gap', .numeral n) :: words).map Word.lexeme) =
        word :: number :: more ∧ word.kind = .name ∧ word.value = "lorem" ∧ number.kind = .integer ∧
        number.value = toString n ∧ Cursor.Inner (number :: more) :=
    ⟨_, _, _, rfl, rfl, String.ofList_toList, rfl, String.ofList_toList, hlexical.inner _⟩
  have hread : Number.readInteger number.value = .error (.tooLong (toString n).length) := by
    rw [hnumeral, Number.readInteger_toString, if_pos hlong]
  have hflaw : Flaw config.disabled [opening, word] number (more ++ [closing])
      (.defect (.integer (.tooLong (toString n).length))) :=
    .count hlorem hopening hword hvalue hnumber hread (closed_of_inner hinner hclosing [])
  have hflawed : Flawed config.disabled (Part.tokens config.delimiters Location.start
      [Part.ofWords ((gap, .name "lorem" (by decide)) :: (gap', .numeral n) :: words) last])
      (.defect (.integer (.tooLong (toString n).length))) := by
    refine ⟨[], [], _, _, _, ?_, .nil, hflaw⟩
    rw [Part.tokens, Part.allPieces_cons, Part.allPieces_nil, List.append_nil, Part.ofWords, htag, htokens]
    rfl
  rw [Compiler.compile, Compiler.nodesOf_of_flawed config hreads hflawed]
  rfl

end TagTemplate
