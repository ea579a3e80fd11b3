import ColumnLineage.Proofs.RenderedText

/-! Ends of the words of a text. The first character after `#`, `@` or `@@` belongs to a word whatever it is,
so such a word can end in a blank. No other word does: a quoted one ends in its quote, and every character that
goes on with a word is a letter, a digit or a mark. -/

namespace ColumnLineage.WordEnds
open RenderedText (render_begins)
open Sql
open TextPieces

/-- The marks that begin a word with any character after them. -/
def marks : List Text :=
  [['#'], ['@'], ['@', '@']]

/-- A word of a mark and one blank, which is not the space. -/
def EndsBlank (word : Word) : Prop :=
  word.quote = none ∧ ∃ mark ∈ marks, ∃ c, isBlank c = true ∧ c ≠ ' ' ∧ word.value = mark ++ [c]

variable {s rest start : Text} {token : Token} {word : Word} {sql : Text} {c : Char}

/-! ## Reading a word -/

theorem not_isBlank_of_isPart (part : Word.isPart c = true) : isBlank c = false := by
  cases blank : isBlank c with
  | false => rfl
  | true =>
    have apart {d : Char} (solid : isBlank d = false) : ¬ c = d := by
      rintro rfl
      rw [blank] at solid
      cases solid
    simp [Word.isPart, not_isAlphabetic_of_isBlank blank, not_isDigitIn_of_isBlank blank,
      apart (show isBlank '@' = false by decide), apart (show isBlank '$' = false by decide),
      apart (show isBlank '#' = false by decide), apart (show isBlank '_' = false by decide)] at part

/-- A word that goes on after its start ends in a character that is not blank. -/
theorem readAfter_ends (read : Word.readAfter start s = (.word word, rest)) :
    Text.EndsSolid word.render ∨ word = ⟨none, start⟩ := by
  obtain ⟨same, -⟩ := Prod.mk.inj read
  obtain rfl := Token.word.inj same
  rcases List.eq_nil_or_concat (s.takeWhile Word.isPart) with none | ⟨front, last, more⟩
  · right
    rw [none, List.append_nil]
  · left
    have part : Word.isPart last = true := List.mem_takeWhile_imp (p := Word.isPart) (l := s) (by simp [more])
    refine ⟨start ++ front, last, ?_, not_isBlank_of_isPart part⟩
    simp [Word.render, more]

theorem readMarked_ends {mark : Text} {symbol : Symbol} (member : mark ∈ marks)
    (read : Word.readMarked mark symbol s = (.word word, rest)) :
    Text.EndsSolid word.render ∨ EndsBlank word := by
  unfold Word.readMarked at read
  split at read
  · cases read
  · rename_i c s
    split at read
    · cases read
    · rename_i other
      rcases readAfter_ends read with ends | rfl
      · exact .inl ends
      · cases blank : isBlank c with
        | true => exact .inr ⟨rfl, mark, member, c, blank, other, rfl⟩
        | false => exact .inl ⟨mark, c, rfl, blank⟩

private theorem readOther?_ends (read : Token.readOther? c s = some (.word word, rest)) :
    Text.EndsSolid word.render ∨ EndsBlank word := by
  unfold Token.readOther? at read
  split at read
  · rename_i sharp
    exact readMarked_ends (by simp [marks, sharp]) (Option.some.inj read)
  split at read
  · rename_i sign
    split at read
    · exact readMarked_ends (by simp [marks, sign]) (Option.some.inj read)
    · exact readMarked_ends (by simp [marks, sign]) (Option.some.inj read)
  split at read
  · cases Option.some.inj read
  split at read
  · simp only [Dollar.read?] at read
    split at read
    · obtain ⟨⟨value, after⟩, -, same⟩ := Option.map_eq_some_iff.1 read
      cases same
    · cases Option.some.inj read
  split at read
  · rename_i letter
    rcases readAfter_ends (Option.some.inj read) with ends | rfl
    · exact .inl ends
    · refine .inl ⟨[], c, rfl, not_isBlank_of_isPart ?_⟩
      simp only [Word.isStart, Word.isPart, Bool.or_eq_true] at letter ⊢
      rcases letter with letter | underscore
      · simp [letter]
      · exact .inr underscore
  split at read
  · cases Option.some.inj read
  · cases Option.some.inj read

private theorem readMark?_ends (read : Token.readMark? c s = some (.word word, rest)) :
    Text.EndsSolid word.render ∨ EndsBlank word := by
  unfold Token.readMark? at read
  split at read
  · cases Option.some.inj read
  · obtain ⟨⟨text, after⟩, -, same⟩ := Option.map_eq_some_iff.1 read
    cases same
  · split at read
    · cases Option.some.inj read
    · exact readOther?_ends read

private theorem readQuoted?_ends {mark : QuoteMark} (read : Word.readQuoted? mark s = some (.word word, rest)) :
    Text.EndsSolid word.render := by
  obtain ⟨⟨value, after⟩, -, same⟩ := Option.map_eq_some_iff.1 read
  obtain ⟨token, -⟩ := Prod.mk.inj same
  obtain rfl := Token.word.inj token
  exact ⟨mark.char :: value, mark.char, rfl, by cases mark <;> decide⟩

private theorem number_not_word : Number.read s ≠ (.word word, rest) := by
  intro read
  simp only [Number.read] at read
  split at read
  · cases read
  · split at read <;> cases read

/-- A word ends in a character that is not blank, unless it is a mark and one blank. -/
theorem read?_ends (read : Token.read? s = some (.word word, rest)) :
    Text.EndsSolid word.render ∨ EndsBlank word := by
  unfold Token.read? at read
  split at read
  case h_1 => cases read
  case h_7 c s _ _ _ _ _ =>
    split at read
    · obtain ⟨⟨value, after⟩, -, same⟩ := Option.map_eq_some_iff.1 read
      cases same
    split at read
    · exact .inl (readQuoted?_ends read)
    split at read
    · exact .inl (readQuoted?_ends read)
    split at read
    · exact absurd (Option.some.inj read) number_not_word
    · exact readMark?_ends read
  all_goals cases Option.some.inj read

/-! ## Words of a text -/

theorem Pieces.read {run : List Piece} (pieces : Pieces s run) :
    ∀ piece ∈ run, ∃ rest, Token.read? (piece.spelling ++ rest) = some (piece.token, rest) := by
  induction pieces with
  | done => simp
  | next piece read _ ih => exact List.forall_mem_cons.2 ⟨⟨_, read⟩, ih⟩

private theorem exists_piece (member : token ∈ Statement.tokens sql) :
    ∃ run, Pieces sql run ∧ ∃ piece ∈ run, piece.token = token := by
  obtain ⟨run, pieces, same⟩ := exists_pieces_of_mem member
  rw [← same] at member
  obtain ⟨piece, among, token⟩ := List.mem_map.1 member
  exact ⟨run, pieces, piece, among, token⟩

/-- A word of a text ends in a character that is not blank, unless it is a mark and one blank. -/
theorem word_ends (member : .word word ∈ Statement.tokens sql) :
    Text.EndsSolid word.render ∨ EndsBlank word := by
  obtain ⟨run, pieces, piece, among, same⟩ := exists_piece member
  obtain ⟨rest, read⟩ := Pieces.read pieces piece among
  rw [same] at read
  exact read?_ends read

/-- A token of a text that is not a separator is written from a character that is not blank. -/
theorem token_begins (member : token ∈ Statement.tokens sql) (solid : token.isSpacing = false) :
    Text.BeginsSolid token.render := by
  obtain ⟨run, pieces, piece, among, rfl⟩ := exists_piece member
  exact render_begins (pieces.legible piece among) (isWhite_eq_false solid)

end ColumnLineage.WordEnds
