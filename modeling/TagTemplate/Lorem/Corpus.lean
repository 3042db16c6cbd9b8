import TagTemplate.Text.Blank

/-!
# Filler text

Five paragraphs of mangled Latin as typesetters fill pages with it, and their words and sentences.
-/

namespace TagTemplate.Lorem

/-- The paragraphs in their fixed order. -/
def corpus : List String :=
  ["Lorem ipsum dolor sit amet, consectetur adipisicing elit, sed do eiusmod tempor incididunt ut labore et dolore magna aliqua. Ut enim ad minim veniam, quis nostrud exercitation ullamco laboris nisi ut aliquip ex ea commodo consequat. Duis aute irure dolor in reprehenderit in voluptate velit esse cillum dolore eu fugiat nulla pariatur. Excepteur sint occaecat cupidatat non proident, sunt in culpa qui officia deserunt mollit anim id est laborum.",
   "Sed ut perspiciatis unde omnis iste natus error sit voluptatem accusantium doloremque laudantium, totam rem aperiam, eaque ipsa quae ab illo inventore veritatis et quasi architecto beatae vitae dicta sunt explicabo. Nemo enim ipsam voluptatem quia voluptas sit aspernatur aut odit aut fugit, sed quia consequuntur magni dolores eos qui ratione voluptatem sequi nesciunt. Neque porro quisquam est, qui dolorem ipsum quia dolor sit amet, consectetur, adipisci velit, sed quia non numquam eius modi tempora incidunt ut labore et dolore magnam aliquam quaerat voluptatem.",
   "Ut enim ad minima veniam, quis nostrum exercitationem ullam corporis suscipit laboriosam, nisi ut aliquid ex ea commodi consequatur. Quis autem vel eum iure reprehenderit qui in ea voluptate velit esse quam nihil molestiae consequatur, vel illum qui dolorem eum fugiat quo voluptas nulla pariatur.",
   "At vero eos et accusamus et iusto odio dignissimos ducimus qui blanditiis praesentium voluptatum deleniti atque corrupti quos dolores et quas molestias excepturi sint occaecati cupiditate non provident, similique sunt in culpa qui officia deserunt mollitia animi, id est laborum et dolorum fuga. Et harum quidem rerum facilis est et expedita distinctio. Nam libero tempore, cum soluta nobis est eligendi optio cumque nihil impedit quo minus id quod maxime placeat facere possimus, omnis voluptas assumenda est, omnis dolor repellendus.",
   "Temporibus autem quibusdam et aut officiis debitis aut rerum necessitatibus saepe eveniet ut et voluptates repudiandae sint et molestiae non recusandae. Itaque earum rerum hic tenetur a sapiente delectus, ut aut reiciendis voluptatibus maiores alias consequatur aut perferendis doloribus asperiores repellat."]

def paragraphs : Array String :=
  corpus.toArray

/-- What a text begins with, up to the first period that blanks follow, and the pieces behind it, which end the same
way. The blanks between two pieces are left out; behind a period, so are those that the text begins with. -/
def piecesFrom (behindPeriod : Bool) : List Char → List Char × List (List Char)
  | [] => ([], [])
  | c :: s =>
      if behindPeriod && Text.isBlank c then piecesFrom true s
      else if c = '.' ∧ s.head?.any Text.isBlank then
        match piecesFrom true s with
        | (piece, pieces) => ([c], piece :: pieces)
      else
        match piecesFrom false s with
        | (piece, pieces) => (c :: piece, pieces)

def sentencesOf (s : List Char) : List (List Char) :=
  match piecesFrom false s with
  | (piece, pieces) => piece :: pieces

/-- The sentences of all paragraphs. -/
def sentences : Array String :=
  (corpus.flatMap fun paragraph => (sentencesOf paragraph.toList).map String.ofList).toArray

/-- The run of letters that a text starts with, and the runs after it. -/
def letterRunsFrom : List Char → List Char × List (List Char)
  | [] => ([], [])
  | c :: s =>
      match letterRunsFrom s with
      | (run, runs) =>
          if c.isAlpha then (c :: run, runs)
          else ([], if run.isEmpty then runs else run :: runs)

def letterRuns (s : List Char) : List (List Char) :=
  match letterRunsFrom s with
  | (run, runs) => if run.isEmpty then runs else run :: runs

/-- The words of all paragraphs, in order and with repetitions. -/
def words : Array String :=
  ((letterRuns (" ".intercalate corpus).toList).map String.ofList).toArray

theorem length_sentencesOf_ofList {s : List Char} {n : Nat} (h : (sentencesOf s).length = n) :
    (sentencesOf (String.ofList s).toList).length = n := by
  rwa [String.toList_ofList]

set_option maxRecDepth 4000 in
theorem length_sentencesOf_corpus :
    corpus.map (fun paragraph => (sentencesOf paragraph.toList).length) = [4, 3, 2, 3, 2] := by
  simp only [corpus, List.map_cons, List.map_nil, List.cons.injEq, and_true]
  and_intros
  -- As lists of characters the paragraphs are looked through at once; decoding them first takes a minute.
  all_goals
    refine length_sentencesOf_ofList ?_
    decide +kernel

theorem sentences_size : sentences.size = 14 := by
  rw [sentences, List.size_toArray, List.length_flatMap]
  simp only [List.length_map]
  rw [length_sentencesOf_corpus]
  rfl

theorem letterRuns_ne_nil {c : Char} (s : List Char) (h : c.isAlpha = true) :
    letterRuns (c :: s) ≠ [] := by
  simp [letterRuns, letterRunsFrom, h]

theorem letterRuns_ofList_ne_nil {c : Char} {s t u : List Char} (h : c.isAlpha = true) :
    letterRuns ((String.ofList (c :: s)).toList ++ t ++ u) ≠ [] := by
  rw [String.toList_ofList, List.cons_append, List.cons_append]
  exact letterRuns_ne_nil _ h

set_option maxRecDepth 4000 in
theorem words_size_pos : 0 < words.size := by
  rw [words, List.size_toArray, List.length_map, List.length_pos_iff, corpus, String.intercalate_cons_cons,
    String.toList_append, String.toList_append]
  refine letterRuns_ofList_ne_nil ?_
  decide

end TagTemplate.Lorem
