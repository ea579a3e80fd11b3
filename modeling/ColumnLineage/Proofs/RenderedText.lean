import ColumnLineage.Proofs.TextPieces

/-! Runs of pieces against the text they were read from. A run is rendered as its own text exactly if no
piece of it stands in an altered form, and the same holds once both texts are trimmed, where the white
space at the end of the run does not count. -/

namespace ColumnLineage.RenderedText
open Sql
open TokenSpelling (Altered Spelled)
open TextPieces

variable {piece : Piece} {run after : List Piece} {gap : Text}

theorem render_eq_spelling_iff (legible : piece.Legible) :
    piece.token.render = piece.spelling ↔ ¬ Altered piece.token piece.spelling :=
  ⟨fun same altered => altered.render_ne same, fun plain => legible.spelled.resolve_right plain⟩

/-- Only hexadecimal digits are rendered longer than they are spelled, and by one character. -/
private theorem render_length (legible : piece.Legible) :
    piece.token.render.length ≤ piece.spelling.length ∨
      ∃ digits, piece.token.render = 'X' :: '\'' :: (digits ++ ['\'']) ∧
        piece.spelling = '0' :: 'x' :: digits := by
  rcases legible.spelled with same | altered
  · exact .inl (Nat.le_of_eq (congrArg List.length same))
  · rcases altered.length_le with le | ⟨digits, token, spelling⟩
    · exact .inl le
    · exact .inr ⟨digits, by rw [token]; rfl, spelling⟩

/-- A rendering that has fallen behind its text stays behind: the one kind of piece that is rendered
longer than it is spelled begins otherwise than it would have to where it could catch up. -/
private theorem rendered_stays_behind (legible : ∀ piece ∈ run, piece.Legible) (behind : gap ≠ []) :
    rendered run ≠ gap ++ spelled run := by
  induction run generalizing gap with
  | nil =>
    intro same
    exact behind (List.append_eq_nil_iff.1 same.symm).1
  | cons piece run ih =>
    intro same
    obtain ⟨legibleHead, legibleRest⟩ := List.forall_mem_cons.1 legible
    rw [rendered_cons, spelled_cons, ← List.append_assoc] at same
    have shorter : piece.token.render.length < (gap ++ piece.spelling).length := by
      have positive := List.length_pos_iff.2 behind
      rw [List.length_append]
      rcases render_length legibleHead with le | ⟨digits, render, spelling⟩
      · omega
      · match gap with
        | [] => contradiction
        | [c] => simp [render, spelling] at same
        | c :: d :: gap =>
          simp only [render, spelling, List.length_cons, List.length_append, List.length_nil]
          omega
    rcases List.append_eq_append_iff.1 same with ⟨left, split, more⟩ | ⟨left, split, -⟩
    · refine ih legibleRest ?_ more
      rintro rfl
      rw [split, List.append_nil] at shorter
      exact Nat.lt_irrefl _ shorter
    · rw [split, List.length_append] at shorter
      omega

/-- A run is rendered as its own text exactly if none of its pieces is altered. -/
theorem rendered_eq_spelled_iff (legible : ∀ piece ∈ run, piece.Legible) :
    rendered run = spelled run ↔ ∀ piece ∈ run, ¬ Altered piece.token piece.spelling := by
  induction run with
  | nil => simp [rendered, spelled]
  | cons piece run ih =>
    obtain ⟨legibleHead, legibleRest⟩ := List.forall_mem_cons.1 legible
    rw [List.forall_mem_cons, ← ih legibleRest, ← render_eq_spelling_iff legibleHead, rendered_cons,
      spelled_cons]
    constructor
    · intro same
      rcases render_length legibleHead with le | ⟨digits, render, spelling⟩
      · rcases List.append_eq_append_iff.1 same with ⟨left, split, more⟩ | ⟨left, split, more⟩
        · cases left with
          | nil => exact ⟨by rw [split, List.append_nil], by simpa using more⟩
          | cons c left => exact absurd more (rendered_stays_behind legibleRest (List.cons_ne_nil c left))
        · cases left with
          | nil => exact ⟨by rw [split, List.append_nil], by simpa using more.symm⟩
          | cons c left =>
            rw [split, List.length_append, List.length_cons] at le
            omega
      · simp [render, spelling] at same
    · rintro ⟨same, more⟩
      rw [same, more]

/-! ## Ends of a run -/

private theorem opening_begins (kind : Literal) : Text.BeginsSolid kind.opening.toList := by
  cases kind <;> exact ⟨_, _, rfl, by decide⟩

private theorem closing_ends (kind : Literal) : Text.EndsSolid kind.closing.toList := by
  cases kind with
  | byteDouble | rawDouble => exact ⟨[], '"', rfl, by decide⟩
  | rawTripleSingle => exact ⟨['\'', '\''], '\'', rfl, by decide⟩
  | rawTripleDouble => exact ⟨['"', '"'], '"', rfl, by decide⟩
  | _ => exact ⟨[], '\'', rfl, by decide⟩

private theorem quote_solid (mark : QuoteMark) : isBlank mark.char = false := by
  cases mark <;> decide

/-- A token that is not white space is rendered, as it is spelled, from a character that is not blank. -/
theorem render_begins (legible : piece.Legible) (solid : isWhite piece.token = false) :
    Text.BeginsSolid piece.token.render := by
  obtain ⟨token, spelling⟩ := piece
  rcases legible.spelled with same | altered
  · exact same ▸ legible.begins solid
  · cases altered with
    | inequality => exact ⟨'<', ['>'], rfl, by decide⟩
    | «return» | returnNewline | blank => simp [isWhite] at solid
    | quotedWord => exact ⟨_, _, rfl, quote_solid _⟩
    | _ => exact ((opening_begins _).append _).append _

/-- An altered form ends with a character that is not blank, and so does its rendering. -/
theorem Altered.ends (altered : Altered token spelling) (solid : isWhite token = false) :
    Text.EndsSolid token.render ∧ Text.EndsSolid spelling := by
  cases altered with
  | inequality => exact ⟨⟨['<'], '>', rfl, by decide⟩, ⟨['!'], '=', rfl, by decide⟩⟩
  | «return» | returnNewline | blank => simp [isWhite] at solid
  | @digits digits hexadecimal =>
    refine ⟨(closing_ends .hexadecimal).append _, ?_⟩
    rcases List.eq_nil_or_concat digits with rfl | ⟨front, last, rfl⟩
    · exact ⟨['0'], 'x', rfl, by decide⟩
    · refine ⟨'0' :: 'x' :: front, last, by simp, ?_⟩
      cases blank : isBlank last with
      | false => rfl
      | true =>
        have digit := hexadecimal last (by simp)
        rw [not_isDigitIn_of_isBlank blank] at digit
        exact digit.symm
  | smallLetter | escaped => exact ⟨(closing_ends _).append _, (closing_ends _).append _⟩
  | quotedWord =>
    exact ⟨⟨_, _, rfl, quote_solid _⟩, ⟨_, _, rfl, quote_solid _⟩⟩

/-- A run that neither begins nor ends with white space. -/
structure Solid (run : List Piece) : Prop where
  begins : ∃ first more, run = first :: more ∧ isWhite first.token = false
  ends : ∃ front last, run = front ++ [last] ∧ isWhite last.token = false

private theorem trimEnd_eq_iff (legible : ∀ piece ∈ run, piece.Legible) (solid : Solid run) :
    Text.trimEnd (rendered run) = Text.trimEnd (spelled run) ↔ rendered run = spelled run := by
  obtain ⟨front, last, rfl, solidLast⟩ := solid.ends
  have legibleLast : last.Legible := legible last (by simp)
  have renderedLast : rendered (front ++ [last]) = rendered front ++ last.token.render := by
    simp [rendered]
  have spelledLast : spelled (front ++ [last]) = spelled front ++ last.spelling := by
    simp [spelled]
  refine ⟨fun same => ?_, congrArg Text.trimEnd⟩
  rw [renderedLast, spelledLast] at same ⊢
  rcases legibleLast.spelled with plain | altered
  · obtain ⟨c, more, start, first⟩ := legibleLast.begins solidLast
    have member : c ∈ last.spelling := by simp [start]
    rw [plain, Text.trimEnd_append_of_solid member first, Text.trimEnd_append_of_solid member first]
      at same
    rw [plain, List.append_cancel_right same]
  · obtain ⟨renderEnds, spellingEnds⟩ := Altered.ends altered solidLast
    rwa [Text.trimEnd_of_endsSolid (renderEnds.append _),
      Text.trimEnd_of_endsSolid (spellingEnds.append _)] at same

theorem rendered_begins (legible : ∀ piece ∈ run, piece.Legible) (solid : Solid run) :
    Text.BeginsSolid (rendered run) := by
  obtain ⟨first, more, rfl, solidFirst⟩ := solid.begins
  rw [rendered_cons]
  exact (render_begins (legible first (by simp)) solidFirst).append _

private theorem spelled_begins (legible : ∀ piece ∈ run, piece.Legible) (solid : Solid run) :
    Text.BeginsSolid (spelled run) := by
  obtain ⟨first, more, rfl, solidFirst⟩ := solid.begins
  rw [spelled_cons]
  exact ((legible first (by simp)).begins solidFirst).append _

/-- White space after a run is lost when the run is rendered and trimmed. -/
theorem trim_rendered_append (legible : ∀ piece ∈ run ++ after, piece.Legible) (solid : Solid run)
    (white : ∀ piece ∈ after, isWhite piece.token = true) :
    Text.trim (rendered (run ++ after)) = Text.trim (rendered run) := by
  obtain ⟨legibleRun, legibleAfter⟩ := List.forall_mem_append.1 legible
  have begins := rendered_begins legibleRun solid
  have blank : ∀ c ∈ rendered after, isBlank c = true := by
    simp only [rendered, Token.renderAll, List.mem_flatMap, List.mem_map]
    rintro c ⟨_, ⟨piece, member, rfl⟩, inside⟩
    exact render_blank (white piece member) c inside
  rw [rendered_append, Text.trim_append_of_blank begins blank, Text.trim,
    Text.trimStart_of_beginsSolid begins]

/-- Trimmed, a run is rendered as its own text exactly if none of its pieces is altered. -/
theorem trim_rendered_eq_iff (legible : ∀ piece ∈ run, piece.Legible) (solid : Solid run) :
    Text.trim (rendered run) = Text.trim (spelled run) ↔
      ∀ piece ∈ run, ¬ Altered piece.token piece.spelling := by
  rw [Text.trim, Text.trimStart_of_beginsSolid (rendered_begins legible solid), Text.trim,
    Text.trimStart_of_beginsSolid (spelled_begins legible solid), trimEnd_eq_iff legible solid,
    rendered_eq_spelled_iff legible]

end ColumnLineage.RenderedText
