import ColumnLineage.Proofs.KeywordSpelling
import ColumnLineage.Proofs.TableMentions

/-! Where the tables that a text mentions stand among its tokens. A mention is known by its characters alone,
so they may lie in a comment, in a constant or at the end of a longer name. Where they begin with the token
of the keyword, white space and no comment parts it from the next token, and the name is read from there. -/

namespace ColumnLineage.MentionPlaces
open KeywordSpelling (folds_of_from)
open Sql
open TableMention (sourcePhrase sources)
open TableMentions (Mention mention_of_mem_words not_isWordChar_of_isBlank)
open TextPieces

variable {sql blanks name s t : Text} {tokens : List Token} {run after : List Piece} {piece : Piece}

/-! ## White space at the front -/

/-- Blanks at the front of a text are pieces of their own. -/
theorem exists_white (pieces : Pieces s run) (whole : s = blanks ++ t)
    (blank : ∀ c ∈ blanks, isBlank c = true) (begins : Text.BeginsSolid t) :
    ∃ white later, run = white ++ later ∧ (∀ piece ∈ white, isWhite piece.token = true) ∧
      spelled white = blanks ∧ Pieces t later := by
  obtain ⟨c, more, start, solid⟩ := begins
  induction pieces generalizing blanks with
  | done =>
    rw [start] at whole
    simp at whole
  | @next rest run piece read pieces ih =>
    have all := Pieces.next piece read pieces
    cases blanks with
    | nil =>
      rw [List.nil_append] at whole
      exact ⟨[], piece :: run, rfl, by simp, rfl, whole ▸ all⟩
    | cons b blanks =>
      have legible := all.legible piece (by simp)
      have white : isWhite piece.token = true := by
        rw [whole, List.cons_append] at read
        exact isWhite_of_read? read (blank b (by simp))
      -- the first piece ends before the blanks do, since only blanks stand in it
      obtain ⟨gap, split, whole⟩ : ∃ gap, b :: blanks = piece.spelling ++ gap ∧ rest = gap ++ t := by
        rcases List.append_eq_append_iff.1 whole with ⟨gap, split, remains⟩ | ⟨excess, split, remains⟩
        · exact ⟨gap, split, remains⟩
        · cases excess with
          | nil => exact ⟨[], by simpa using split.symm, by simpa using remains.symm⟩
          | cons d excess =>
            obtain ⟨rfl, -⟩ := List.cons.inj (start.symm.trans remains)
            rw [legible.blank white c (by simp [split])] at solid
            cases solid
      obtain ⟨others, later, rfl, whites, taken, left⟩ := ih whole fun d member =>
        blank d (by simp [split, member])
      refine ⟨piece :: others, later, rfl, ?_, by rw [spelled_cons, taken, split], left⟩
      exact List.forall_mem_cons.2 ⟨white, whites⟩

private theorem not_isSpacing_of_begins {c : Char} {more : Text} (legible : piece.Legible)
    (start : piece.spelling = c :: more) (word : isWordChar c = true) : piece.token.isSpacing = false := by
  obtain ⟨token, spelling⟩ := piece
  change spelling = c :: more at start
  have solid : isWhite token = false := by
    cases white : isWhite token with
    | false => rfl
    | true =>
      rw [not_isWordChar_of_isBlank (legible.blank white c (by simp [start]))] at word
      cases word
  rcases legible.spelled with same | altered
  · cases token with
    | spacing gap =>
      cases gap with
      | space | tab | newline => cases solid
      | lineComment =>
        obtain ⟨rfl, -⟩ := List.cons.inj (same.trans start)
        exact absurd word (by decide +kernel)
      | blockComment =>
        obtain ⟨rfl, -⟩ := List.cons.inj (same.trans start)
        exact absurd word (by decide +kernel)
    | _ => rfl
  · cases altered with
    | «return» | returnNewline | blank => cases solid
    | _ => rfl

/-! ## Names after the keyword -/

/-- A name read behind a keyword: white space, and no comment, goes before the first of the pieces after it,
and the name is all that goes on in word characters from there. -/
def ReadBehind (blanks name : Text) (after : List Piece) : Prop :=
  ∃ white first more, after = white ++ first :: more ∧ (∀ piece ∈ white, isWhite piece.token = true) ∧
    spelled white = blanks ∧ first.token.isSpacing = false ∧
    name = (spelled (first :: more)).takeWhile isWordChar

theorem readBehind_of_mention {phrase letters rest : Text} (mention : Mention phrase letters blanks name rest)
    (pieces : Pieces (blanks ++ (name ++ rest)) after) : ReadBehind blanks name after := by
  obtain ⟨white, later, rfl, whites, taken, left⟩ := exists_white pieces rfl mention.blank mention.begins
  obtain ⟨c, more, named⟩ := List.exists_cons_of_ne_nil mention.named
  have solid : isWordChar c = true := mention.solid c (by simp [named])
  have whole : spelled later = name ++ rest := left.spelled_eq
  cases later with
  | nil => simp [named, spelled] at whole
  | cons first later =>
    refine ⟨white, first, later, rfl, whites, taken, ?_, ?_⟩
    · obtain ⟨d, others, start⟩ := List.exists_cons_of_ne_nil (left.spelling_ne_nil first (by simp))
      rw [spelled_cons, start, named] at whole
      obtain ⟨rfl, -⟩ := List.cons.inj whole
      exact not_isSpacing_of_begins (left.legible first (by simp)) start solid
    · rw [whole, List.takeWhile_append_of_pos mention.solid, mention.ends, List.append_nil]

/-- Every source that is found stands in its text after letters that fold to `FROM` and blanks. Where the
letters begin with a token that is the keyword, they are all of it, and the name is read behind it. -/
theorem sources_of_tokens (read : Token.readAll? sql = some tokens) :
    ∃ run, Pieces sql run ∧ run.map Piece.token = tokens ∧
      ∀ name ∈ sources sql, ∃ front letters blanks rest,
        sql = front ++ (letters ++ (blanks ++ (name ++ rest))) ∧
        Mention sourcePhrase letters blanks name rest ∧
        ∀ before keyword after, run = before ++ keyword :: after → spelled before = front →
          keyword.token.isAnyOf ["FROM"] = true →
            keyword.spelling = letters ∧ ReadBehind blanks name after := by
  obtain ⟨run, pieces, same⟩ := exists_pieces read
  refine ⟨run, pieces, same, ?_⟩
  intro name member
  obtain ⟨front, letters, blanks, rest, whole, mention⟩ := mention_of_mem_words member
  refine ⟨front, letters, blanks, rest, whole, mention, ?_⟩
  rintro before keyword after rfl start named
  have folds := folds_of_from (pieces.legible keyword (by simp)) named
  have length : keyword.spelling.length = letters.length := by
    simpa [sourcePhrase] using congrArg List.length (folds.trans mention.folds.symm)
  have parted : front ++ (keyword.spelling ++ spelled after) =
      front ++ (letters ++ (blanks ++ (name ++ rest))) := by
    rw [← whole, ← pieces.spelled_eq, spelled_append, spelled_cons, start]
  obtain ⟨keywordSame, afterSame⟩ := List.append_inj (List.append_cancel_left parted) length
  rw [List.append_cons] at pieces
  exact ⟨keywordSame, readBehind_of_mention mention (afterSame ▸ pieces.suffix)⟩

private def bare : Text := ['F', 'R', 'O', 'M'] ++ ([' '] ++ ['t'])

/-- In a text that is nothing but a mention, the name is read behind the keyword. -/
theorem source_behind_keyword :
    ∃ keyword after, Pieces bare (keyword :: after) ∧ keyword.spelling = ['F', 'R', 'O', 'M'] ∧
      ReadBehind [' '] ['t'] after := by
  have read : Token.readAll? bare = some (Statement.tokens bare) := by decide +kernel
  obtain ⟨run, pieces, same, found⟩ := sources_of_tokens read
  obtain ⟨front, letters, blanks, rest, whole, mention, behind⟩ := found ['t'] (by decide +kernel)
  have letterCount : letters.length = 4 := by simpa [sourcePhrase] using congrArg List.length mention.folds
  obtain ⟨frontCount, blankCount⟩ : front.length = 0 ∧ blanks.length = 1 := by
    have count : 6 = front.length + (4 + (blanks.length + (rest.length + 1))) := by
      simpa [bare, letterCount] using congrArg List.length whole
    have apart := List.length_pos_iff.2 mention.apart
    omega
  obtain rfl := List.length_eq_zero_iff.1 frontCount
  rw [bare, List.nil_append] at whole
  obtain ⟨rfl, gap⟩ := List.append_inj whole letterCount.symm
  obtain ⟨rfl, -⟩ := List.append_inj gap blankCount.symm
  have tokens : Statement.tokens bare =
      .word ⟨none, ['F', 'R', 'O', 'M']⟩ :: [.spacing .space, .word ⟨none, ['t']⟩] := by decide +kernel
  obtain ⟨keyword, after, rfl, token, -⟩ := List.map_eq_cons_iff.1 (same.trans tokens)
  exact ⟨keyword, after, pieces, behind [] keyword after rfl rfl (by rw [token]; decide +kernel)⟩

/-! ## Other places -/

/-- A name that is the start of a word among some tokens, after the keyword and white space. -/
def FollowsFrom (tokens : List Token) (name : Text) : Prop :=
  ∃ before keyword white word after, tokens = before ++ keyword :: (white ++ .word word :: after) ∧
    keyword.isAnyOf ["FROM"] = true ∧ (∀ token ∈ white, isWhite token = true) ∧
    name = word.value.takeWhile isWordChar

private def commented : Text := "SELECT 1 -- from x".toList

/-- The words of a comment are found as well. -/
theorem not_always_after_from :
    ¬ ∀ (sql : Text) (tokens : List Token) (name : Text), Token.readAll? sql = some tokens →
      name ∈ sources sql → FollowsFrom tokens name := by
  intro always
  have read : Token.readAll? commented = some (Statement.tokens commented) := by decide +kernel
  obtain ⟨before, keyword, white, word, after, split, named, -⟩ :=
    always _ _ "x".toList read (by decide +kernel)
  have none : ∀ token ∈ Statement.tokens commented, token.isAnyOf ["FROM"] = false := by
    decide +kernel
  rw [none keyword (by simp [split])] at named
  cases named

end ColumnLineage.MentionPlaces
