import TagTemplate.Proofs.Acceptance
import TagTemplate.Proofs.Part

/-!
# What the parts of a text mean

The meaning of a text is put together from its parts alone: plain text stands for itself, a tag for filler
text stands for what is generated from its arguments, and a block comment with everything in it for nothing.
The parts of a text have a meaning whenever their tokens derive from the grammar of templates.
-/

namespace TagTemplate

open Cursor (Inner Marks)
open Grammar

namespace Part

/-- A tag that ends a block comment: its first lexeme is the name for that. -/
def EndsComment (part : Part) : Prop :=
  ∃ name lexemes gap, part = tag (name :: lexemes) gap ∧ name.kind = .name ∧
    String.ofList name.value = "endcomment"

def tokens (d : Delimiters) (start : Location) (parts : List Part) : List Token :=
  Piece.tokens start (allPieces d parts)

end Part

/-- What the parts of a text stand for. The random choices of one part are made after those of the parts
before it, from the same source. -/
inductive Means (disabled : List String) : List Part → Draw String → Prop
  | nil : Means disabled [] (pure "")
  | text {value : List Char} {parts : List Part} {meaning : Draw String} :
      Means disabled parts meaning →
      Means disabled (.text value :: parts) (do
        let rest ← meaning
        return String.ofList value ++ rest)
  | shortComment {body : List Char} {parts : List Part} {meaning : Draw String} :
      Means disabled parts meaning → Means disabled (.comment body :: parts) meaning
  | lorem {name : Piece} {arguments : List Piece} {gap : List Char} {place : Location} {count : Int}
      {mode : Lorem.Mode} {random : Bool} {parts : List Part} {meaning : Draw String} :
      "lorem" ∉ disabled → name.kind = .name → String.ofList name.value = "lorem" →
      Arguments (Piece.tokens place arguments) count mode.letter random → Means disabled parts meaning →
      Means disabled (.tag (name :: arguments) gap :: parts) (do
        let filler ← Lorem.generate count mode random
        let rest ← meaning
        return filler ++ rest)
  | comment {name endName : Piece} {gap gap' : List Char} {body parts : List Part}
      {meaning : Draw String} :
      "comment" ∉ disabled → name.kind = .name → String.ofList name.value = "comment" →
      (∀ part ∈ body, ¬part.EndsComment) → endName.kind = .name →
      String.ofList endName.value = "endcomment" → Means disabled parts meaning →
      Means disabled (.tag [name] gap :: (body ++ .tag [endName] gap' :: parts)) meaning

/-! ### Tokens of parts -/

theorem Cursor.Inner.append_cons_inj {xs ys rest rest' : List Token} {closing closing' : Token}
    (hxs : Inner xs) (hys : Inner ys) (hclosing : closing.kind = .blockEnd)
    (hclosing' : closing'.kind = .blockEnd) (h : xs ++ closing :: rest = ys ++ closing' :: rest') :
    xs = ys ∧ closing = closing' ∧ rest = rest' := by
  induction xs generalizing ys with
  | nil =>
      cases ys with
      | nil => exact ⟨rfl, List.cons.inj h⟩
      | cons y ys =>
          obtain ⟨rfl, -⟩ := List.cons.inj h
          exact absurd hclosing (hys closing List.mem_cons_self).1
  | cons x xs ih =>
      cases ys with
      | nil =>
          obtain ⟨rfl, -⟩ := List.cons.inj h
          exact absurd hclosing' (hxs x List.mem_cons_self).1
      | cons y ys =>
          obtain ⟨rfl, htail⟩ := List.cons.inj h
          obtain ⟨rfl, hrest⟩ := ih (fun token hmem => hxs token (List.mem_cons_of_mem _ hmem))
            (fun token hmem => hys token (List.mem_cons_of_mem _ hmem)) htail
          exact ⟨rfl, hrest⟩

theorem Cursor.Inner.kind_ne_blockBegin {tokens : List Token} {closing : Token} (h : Inner tokens)
    (hclosing : closing.kind = .blockEnd) : ∀ token ∈ tokens ++ [closing], token.kind ≠ .blockBegin := by
  intro token hmem
  rcases List.mem_append.1 hmem with hmem | hmem
  · exact (h token hmem).2
  · rw [List.mem_singleton.1 hmem, hclosing]
    decide

namespace Part

variable {d : Delimiters} {start : Location} {part : Part} {parts : List Part}

theorem tokens_cons : tokens d start (part :: parts) =
    Piece.tokens start (part.pieces d) ++ tokens d (start.after (part.source d)) parts := by
  rw [tokens, allPieces_cons, Piece.tokens_append]
  rfl

theorem tokens_append {parts' : List Part} : tokens d start (parts ++ parts') =
    tokens d start parts ++ tokens d (start.after (sources d parts)) parts' := by
  rw [tokens, allPieces_append, Piece.tokens_append]
  rfl

theorem Lexical.inner {lexemes : List Piece} {gap : List Char} (h : (tag lexemes gap).Lexical)
    (start : Location) : Inner (Piece.tokens start lexemes) := by
  intro token hmem
  obtain ⟨front, lexeme, back, rfl, rfl⟩ := Piece.exists_of_mem_tokens hmem
  obtain ⟨-, hbegin, hend, -⟩ := Lexeme.ne_of_mem_patterns lexeme.kind (h lexeme (by simp))
  exact ⟨hend, hbegin⟩

theorem exists_tokens_comment (start : Location) (content : List Char) :
    ∃ (opening : Token) (body : Option Token) (closing : Token), opening.kind = .commentBegin ∧
      (∀ token ∈ body, token.kind = .data) ∧ closing.kind = .commentEnd ∧
      Piece.tokens start ((comment content).pieces d) = opening :: (body.toList ++ [closing]) := by
  cases content with
  | nil => exact ⟨_, none, _, rfl, by simp, rfl, rfl⟩
  | cons c content => exact ⟨_, some _, _, rfl, by rintro _ ⟨⟩; rfl, rfl, rfl⟩

/-- Behind the same opening delimiter, two short comments end at the same place. -/
theorem rest_eq_of_comment {body body' : Option Token} {closing closing' : Token} {rest rest' : List Token}
    (hbody : ∀ token ∈ body, token.kind = .data) (hbody' : ∀ token ∈ body', token.kind = .data)
    (hclosing : closing.kind = .commentEnd) (hclosing' : closing'.kind = .commentEnd)
    (h : body.toList ++ closing :: rest = body'.toList ++ closing' :: rest') : rest = rest' := by
  cases body with
  | none =>
      cases body' with
      | none => exact (List.cons.inj h).2
      | some token =>
          obtain ⟨rfl, -⟩ := List.cons.inj h
          exact absurd (hclosing.symm.trans (hbody' closing rfl)) (by decide)
  | some token =>
      cases body' with
      | none =>
          obtain ⟨rfl, -⟩ := List.cons.inj h
          exact absurd (hclosing'.symm.trans (hbody token rfl)) (by decide)
      | some token' => exact (List.cons.inj (List.cons.inj h).2).2

theorem exists_tokens_tag (start : Location) (lexemes : List Piece) (gap : List Char) :
    ∃ opening closing place, opening.kind = .blockBegin ∧ closing.kind = .blockEnd ∧
      Piece.tokens start ((tag lexemes gap).pieces d) =
        opening :: (Piece.tokens place lexemes ++ [closing]) := by
  rw [pieces, List.cons_append, Piece.tokens, Piece.tokens_append]
  exact ⟨_, _, _, rfl, rfl, rfl⟩

/-- A name between two delimiters of a tag is its only lexeme. -/
theorem exists_eq_singleton {place : Location} {lexemes : List Piece} {closing closing' name : Token}
    {rest rest' : List Token} (hinner : Inner (Piece.tokens place lexemes))
    (hclosing : closing.kind = .blockEnd) (hclosing' : closing'.kind = .blockEnd) (hname : name.kind = .name)
    (h : Piece.tokens place lexemes ++ closing :: rest = name :: closing' :: rest') :
    ∃ lexeme, lexemes = [lexeme] ∧ lexeme.kind = .name ∧ String.ofList lexeme.value = name.value ∧
      rest = rest' := by
  have hname' : Inner [name] := by
    intro token hmem
    rw [List.mem_singleton.1 hmem, hname]
    decide
  obtain ⟨htokens, -, hrest⟩ := hinner.append_cons_inj hname' hclosing hclosing' h
  cases lexemes with
  | nil => simp at htokens
  | cons lexeme lexemes =>
      obtain ⟨rfl, hnil⟩ := List.cons.inj htokens
      have hlexemes : lexemes = [] := by
        have hkinds := Piece.map_kind_tokens (place.after lexeme.source) lexemes
        rw [hnil] at hkinds
        exact List.map_eq_nil_iff.1 hkinds.symm
      exact ⟨lexeme, by rw [hlexemes], hname, rfl, hrest⟩

theorem exists_append_of_kind_ne {kind : TokenKind} {xs ys body rest : List Token} {opening : Token}
    (hxs : ∀ token ∈ xs, token.kind ≠ kind) (hopening : opening.kind = kind)
    (h : xs ++ ys = body ++ opening :: rest) :
    ∃ body', body = xs ++ body' ∧ ys = body' ++ opening :: rest := by
  rcases List.append_eq_append_iff.1 h with ⟨body', rfl, hys⟩ | ⟨more, rfl, hmore⟩
  · exact ⟨body', rfl, hys⟩
  · cases more with
    | nil => exact ⟨[], by simp, by simpa using hmore.symm⟩
    | cons token more =>
        obtain ⟨rfl, -⟩ := List.cons.inj hmore
        exact absurd hopening (hxs opening (by simp))

/-- The first mark of the end of a block comment, if a tag ends right behind it, is a tag of its own. -/
theorem exists_endComment (hlexical : ∀ part ∈ parts, part.Lexical) {body rest : List Token}
    {opening name closing : Token}
    (h : tokens d start parts = body ++ opening :: name :: closing :: rest)
    (hmarks : Marks ["endcomment"] opening name) (hclosing : closing.kind = .blockEnd)
    (hbody : body.IsChain fun token next => ¬Marks ["endcomment"] token next) :
    ∃ inside endName gap parts' place, parts = inside ++ tag [endName] gap :: parts' ∧
      (∀ part ∈ inside, ¬part.EndsComment) ∧ endName.kind = .name ∧
      String.ofList endName.value = "endcomment" ∧ rest = tokens d place parts' := by
  induction parts generalizing start body with
  | nil => simp [tokens] at h
  | cons part parts ih =>
      obtain ⟨hpart, hparts⟩ := List.forall_mem_cons.1 hlexical
      rw [tokens_cons] at h
      -- A part that does not end the comment lies in the body as a whole.
      have hinside : ∀ {body'}, body = Piece.tokens start (part.pieces d) ++ body' → ¬part.EndsComment →
          tokens d (start.after (part.source d)) parts = body' ++ opening :: name :: closing :: rest →
          ∃ inside endName gap parts' place, part :: parts = inside ++ tag [endName] gap :: parts' ∧
            (∀ part ∈ inside, ¬part.EndsComment) ∧ endName.kind = .name ∧
            String.ofList endName.value = "endcomment" ∧ rest = tokens d place parts' := by
        rintro body' rfl hends htokens
        obtain ⟨inside, endName, gap, parts', place, rfl, hinside, hkind, hvalue, hrest⟩ :=
          ih hparts htokens (List.isChain_append.1 hbody).2.1
        exact ⟨part :: inside, endName, gap, parts', place, rfl, List.forall_mem_cons.2 ⟨hends, hinside⟩,
          hkind, hvalue, hrest⟩
      cases part with
      | text value =>
          obtain ⟨body', hbody', htokens⟩ := exists_append_of_kind_ne (by simp [pieces, Piece.tokens])
            hmarks.1 h
          exact hinside hbody' (by simp [EndsComment]) htokens
      | comment content =>
          obtain ⟨body', hbody', htokens⟩ := exists_append_of_kind_ne
            (by cases content <;> simp [pieces, Part.body, Piece.tokens]) hmarks.1 h
          exact hinside hbody' (by simp [EndsComment]) htokens
      | tag lexemes gap =>
          obtain ⟨opening', closing', place, hopening', hclosing', htag⟩ :=
            exists_tokens_tag (d := d) start lexemes gap
          have hinner := hpart.inner place
          rw [htag, List.cons_append] at h
          cases body with
          | nil =>
              obtain ⟨rfl, htail⟩ := List.cons.inj h
              rw [List.append_assoc] at htail
              obtain ⟨endName, rfl, hname, hvalue, hrest⟩ :=
                exists_eq_singleton hinner hclosing' hclosing hmarks.2.1 htail
              exact ⟨[], endName, gap, parts, _, rfl, by simp, hname,
                hvalue.trans (List.mem_singleton.1 hmarks.2.2), hrest.symm⟩
          | cons token body =>
              obtain ⟨rfl, htail⟩ := List.cons.inj h
              obtain ⟨body', rfl, htokens⟩ :=
                exists_append_of_kind_ne (hinner.kind_ne_blockBegin hclosing') hmarks.1 htail
              refine hinside (by rw [htag]; rfl) ?_ htokens
              rintro ⟨name', lexemes', gap', heq, hname', hvalue'⟩
              obtain ⟨rfl, rfl⟩ := Part.tag.inj heq
              exact (List.isChain_cons_cons.1 hbody).1 ⟨hopening', hname', List.mem_singleton.2 hvalue'⟩

end Part

/-! ### From derivations to meanings -/

variable {disabled : List String} {d : Delimiters}

/-- Parts whose tokens derive from the grammar have a meaning. -/
theorem exists_means_of_derives {parts : List Part} (hlexical : ∀ part ∈ parts, part.Lexical)
    {start : Location} {nodes : List Node} (h : Derives disabled (Part.tokens d start parts) nodes) :
    ∃ meaning, Means disabled parts meaning := by
  -- A block comment takes parts from the middle of the list, so the induction is on the length.
  induction hlength : parts.length using Nat.strong_induction_on generalizing parts start nodes with
  | _ length ih =>
    cases parts with
    | nil => exact ⟨_, .nil⟩
    | cons part parts =>
        obtain ⟨hpart, hparts⟩ := List.forall_mem_cons.1 hlexical
        have hne : Part.tokens d start (part :: parts) ≠ [] := by
          rw [Part.tokens_cons]
          cases part <;> simp [Part.pieces, Piece.tokens]
        obtain ⟨tokens, rest, node, nodes', hsplit, hconstruct, hderives, -⟩ := h.exists_construct hne
        rw [List.length_cons] at hlength
        have hrest : ∀ {place : Location}, rest = Part.tokens d place parts →
            ∃ meaning, Means disabled parts meaning := by
          rintro place rfl
          exact ih parts.length (by omega) hparts hderives rfl
        rw [Part.tokens_cons] at hsplit
        generalize start.after (part.source d) = stop at hsplit
        obtain ⟨token, tokens, rfl⟩ := hconstruct.exists_cons
        cases part with
        | text value =>
            obtain ⟨rfl, htail⟩ := List.cons.inj hsplit
            obtain rfl := hconstruct.of_data rfl
            obtain ⟨meaning, hmeaning⟩ := hrest htail.symm
            exact ⟨_, .text hmeaning⟩
        | comment content =>
            obtain ⟨opening, body, closing, hopening, hbody, hclosing, hcomment⟩ :=
              Part.exists_tokens_comment (d := d) start content
            rw [hcomment, List.cons_append, List.cons_append, List.append_assoc] at hsplit
            obtain ⟨rfl, htail⟩ := List.cons.inj hsplit
            obtain ⟨body', closing', rfl, hbody', hclosing'⟩ := hconstruct.of_commentBegin hopening
            rw [List.append_assoc] at htail
            obtain ⟨meaning, hmeaning⟩ :=
              hrest (Part.rest_eq_of_comment hbody hbody' hclosing hclosing' htail).symm
            exact ⟨_, .shortComment hmeaning⟩
        | tag lexemes gap =>
            obtain ⟨opening, closing, place, hopening, hclosing, htag⟩ :=
              Part.exists_tokens_tag (d := d) start lexemes gap
            rw [htag, List.cons_append, List.cons_append, List.append_assoc] at hsplit
            obtain ⟨rfl, htail⟩ := List.cons.inj hsplit
            rcases hconstruct.of_blockBegin hopening with
              ⟨name, arguments, closing', count, letter, random, rfl, henabled, hname, hvalue, harguments,
                hclosing'⟩ |
              ⟨name, closing', body, opening', name', closing'', rfl, henabled, hname, hvalue, hclosing',
                hbody, hmarks, hclosing''⟩
            · replace htail : Piece.tokens place lexemes ++ closing :: Part.tokens d stop parts =
                  (name :: arguments) ++ closing' :: rest := by simpa using htail
              have hname' : Inner (name :: arguments) := by
                refine List.forall_mem_cons.2 ⟨?_, harguments.inner⟩
                rw [hname]
                decide
              obtain ⟨hlexemes, -, htokens⟩ :=
                (hpart.inner place).append_cons_inj hname' hclosing hclosing' htail
              obtain ⟨meaning, hmeaning⟩ := hrest htokens.symm
              obtain ⟨mode, rfl⟩ := harguments.exists_mode
              cases lexemes with
              | nil => simp at hlexemes
              | cons lexeme lexemes =>
                  obtain ⟨rfl, rfl⟩ := List.cons.inj hlexemes
                  exact ⟨_, .lorem henabled hname hvalue harguments hmeaning⟩
            · replace htail : Piece.tokens place lexemes ++ closing :: Part.tokens d stop parts =
                  name :: closing' :: (body ++ opening' :: name' :: closing'' :: rest) := by
                simpa using htail
              obtain ⟨lexeme, rfl, hkind, hlexeme, htokens⟩ :=
                Part.exists_eq_singleton (hpart.inner place) hclosing hclosing' hname htail
              obtain ⟨inside, endName, gap', parts', place', rfl, hinside, hendName, hendValue, rfl⟩ :=
                Part.exists_endComment hparts htokens hmarks hclosing'' hbody
              have hparts' : ∀ part ∈ parts', part.Lexical := fun part hmem => hparts part (by simp [hmem])
              have hshorter : parts'.length < length := by
                rw [List.length_append, List.length_cons] at hlength
                omega
              obtain ⟨meaning, hmeaning⟩ := ih parts'.length hshorter hparts' hderives rfl
              exact ⟨_, .comment henabled hkind (hlexeme.trans hvalue) hinside hendName hendValue hmeaning⟩

end TagTemplate
