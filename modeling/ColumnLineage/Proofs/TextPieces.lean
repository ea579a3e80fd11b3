import ColumnLineage.Proofs.TokenSpelling
import ColumnLineage.Proofs.Trimming
import ColumnLineage.Sql.Statement

/-! A text in pieces. A piece is a token with its spelling, and the pieces of a text are its tokens with
the whole text parted among them. Rendering a run of pieces gives back its own text exactly if each
piece is rendered as it is spelled: what one token is too short is never made up for by another. -/

namespace ColumnLineage.TextPieces
open Sql
open TokenSpelling (Altered Spelled read?_spelled)

/-- A token with the characters it was read from. -/
structure Piece where
  token : Token
  spelling : Text

/-- The text that a run of pieces takes up. -/
def spelled (run : List Piece) : Text :=
  run.flatMap Piece.spelling

/-- The text that a run of pieces is rendered as. -/
def rendered (run : List Piece) : Text :=
  Token.renderAll (run.map Piece.token)

/-- The pieces of a text, each read where the one before it ends. -/
inductive Pieces : Text → List Piece → Prop where
  | done : Pieces [] []
  | next (piece : Piece) (read : Token.read? (piece.spelling ++ rest) = some (piece.token, rest))
      (more : Pieces rest pieces) : Pieces (piece.spelling ++ rest) (piece :: pieces)

@[simp] theorem spelled_cons (piece : Piece) (run : List Piece) :
    spelled (piece :: run) = piece.spelling ++ spelled run := rfl

@[simp] theorem rendered_cons (piece : Piece) (run : List Piece) :
    rendered (piece :: run) = piece.token.render ++ rendered run := rfl

@[simp] theorem spelled_append (first second : List Piece) :
    spelled (first ++ second) = spelled first ++ spelled second :=
  List.flatMap_append

@[simp] theorem rendered_append (first second : List Piece) :
    rendered (first ++ second) = rendered first ++ rendered second := by
  simp [rendered]

/-- The pieces of a text take up all of it. -/
theorem Pieces.spelled_eq (pieces : Pieces s run) : spelled run = s := by
  induction pieces with
  | done => rfl
  | next _ _ _ ih => rw [spelled_cons, ih]

/-- Every text that can be read to its end has its tokens as pieces. -/
theorem exists_pieces {s : Text} {tokens : List Token} (read : Token.readAll? s = some tokens) :
    ∃ run, Pieces s run ∧ run.map Piece.token = tokens := by
  fun_induction Token.readAll? s generalizing tokens with
  | case1 s empty =>
    obtain rfl := List.isEmpty_iff.1 empty
    exact ⟨[], .done, by simpa using read⟩
  | case2 => simp at read
  | case3 => simp at read
  | case4 s _ token rest first more remaining ih =>
    obtain ⟨run, pieces, same⟩ := ih remaining
    obtain ⟨spelling, rfl, -⟩ := read?_spelled first
    obtain rfl := Option.some.inj read
    exact ⟨⟨token, spelling⟩ :: run, .next ⟨token, spelling⟩ first pieces, by rw [List.map_cons, same]⟩

theorem exists_pieces_of_mem {sql : Text} {token : Token} (member : token ∈ Statement.tokens sql) :
    ∃ run, Pieces sql run ∧ run.map Piece.token = Statement.tokens sql := by
  rw [Statement.tokens] at member ⊢
  cases read : Token.readAll? sql with
  | some tokens => exact exists_pieces read
  | none =>
    rw [read] at member
    cases member

/-! ## White space -/

/-- Whether a token is white space, which comments are not. -/
def isWhite : Token → Bool
  | .spacing .space | .spacing .tab | .spacing .newline => true
  | _ => false

theorem isWhite_eq_false {token : Token} (solid : token.isSpacing = false) :
    isWhite token = false := by
  cases token with
  | spacing gap => cases solid
  | _ => rfl

theorem render_blank {token : Token} (white : isWhite token = true) :
    ∀ c ∈ token.render, isBlank c = true := by
  have single (d : Char) (blank : isBlank d = true) : ∀ c ∈ [d], isBlank c = true := by
    intro c member
    rwa [List.mem_singleton.1 member]
  unfold isWhite at white
  split at white
  · exact single ' ' (by decide)
  · exact single '\t' (by decide)
  · exact single '\n' (by decide)
  · cases white

private theorem blank_not_alphabetic :
    ∀ r ∈ CodePoint.blank, ∀ n ∈ List.range' r.1 (r.2 + 1 - r.1),
      CodePoint.alphabetic.has n = false := by
  decide +kernel

theorem not_isAlphabetic_of_isBlank {c : Char} (blank : isBlank c = true) :
    isAlphabetic c = false := by
  obtain ⟨r, member, low, high⟩ := (CodePoint.Ranges.has_iff CodePoint.blank_rises).1 blank
  exact blank_not_alphabetic r member c.toNat (List.mem_range'_1.2 ⟨low, by omega⟩)

theorem not_isDigitIn_of_isBlank {c : Char} (blank : isBlank c = true) (base : Nat) :
    isDigitIn base c = false := by
  simp only [isBlank, CodePoint.blank, CodePoint.Ranges.has, Bool.and_eq_true, Bool.or_eq_true,
    decide_eq_true_eq, Bool.false_eq_true, or_false] at blank
  have outside (low high : Char) (apart : ¬ (low.toNat ≤ c.toNat ∧ c.toNat ≤ high.toNat)) :
      ¬ (low ≤ c ∧ c ≤ high) := apart
  have digit : ¬ ('0' ≤ c ∧ c ≤ '9') := outside _ _ (by simp only [Char.reduceToNat]; omega)
  have small : ¬ ('a' ≤ c ∧ c ≤ 'z') := outside _ _ (by simp only [Char.reduceToNat]; omega)
  have capital : ¬ ('A' ≤ c ∧ c ≤ 'Z') := outside _ _ (by simp only [Char.reduceToNat]; omega)
  rw [isDigitIn, digitValue?, if_neg digit, if_neg small, if_neg capital]

private theorem opening_not_blank :
    ∀ entry ∈ Literal.openings, entry.1.head?.any (!isBlank ·) = true := by
  decide +kernel

private theorem symbol_not_blank :
    ∀ entry ∈ Symbol.readable, entry.1.head?.any (!isBlank ·) = true := by
  decide +kernel

private theorem head_eq_of_append {mark s rest : Text} {c : Char} {p : Char → Bool}
    (solid : mark.head?.any p = true) (split : c :: s = mark ++ rest) : p c = true := by
  cases mark with
  | nil => simp at solid
  | cons first mark =>
    obtain ⟨rfl, -⟩ := List.cons.inj split
    simpa using solid

private theorem isWhite_of_readOther? {c : Char} {s rest : Text} {token : Token}
    (h : Token.readOther? c s = some (token, rest)) (blank : isBlank c = true) :
    isWhite token = true := by
  have solid {d : Char} (apart : isBlank d = false) : ¬ c = d := by
    rintro rfl
    simp [blank] at apart
  have underscore : ¬ c = '_' := solid (by decide)
  have word : ¬ Word.isStart c = true := by
    simp [Word.isStart, not_isAlphabetic_of_isBlank blank, underscore]
  unfold Token.readOther? at h
  rw [if_neg (solid (by decide)), if_neg (solid (by decide)), if_neg (solid (by decide)),
    if_neg (solid (by decide)), if_neg word, if_pos blank] at h
  obtain ⟨rfl, rfl⟩ := Prod.mk.inj (Option.some.inj h)
  rfl

private theorem isWhite_of_readMark? {c : Char} {s rest : Text} {token : Token}
    (h : Token.readMark? c s = some (token, rest)) (blank : isBlank c = true) :
    isWhite token = true := by
  have solid {mark after : Text} (apart : mark.head?.any (!isBlank ·) = true) :
      ¬ c :: s = mark ++ after := by
    intro split
    simpa [blank] using head_eq_of_append apart split
  unfold Token.readMark? at h
  split at h
  · rename_i found
    exact absurd (Text.append_of_after? found) (solid (by decide))
  · rename_i found
    exact absurd (Text.append_of_after? found) (solid (by decide))
  · split at h
    · rename_i read
      obtain ⟨spelling, member, split⟩ := Symbol.exists_of_readFrom? read
      exact absurd split (solid (symbol_not_blank _ member))
    · exact isWhite_of_readOther? h blank

/-- Where a blank begins a token the token is white space. -/
theorem isWhite_of_read? {c : Char} {s rest : Text} {token : Token}
    (h : Token.read? (c :: s) = some (token, rest)) (blank : isBlank c = true) :
    isWhite token = true := by
  unfold Token.read? at h
  split at h
  case h_1 => contradiction
  case h_7 c s _ _ _ _ _ start =>
    obtain ⟨rfl, rfl⟩ := List.cons.inj start
    have solid {d : Char} (apart : isBlank d = false) : ¬ c = d := by
      rintro rfl
      simp [blank] at apart
    have digit : ¬ (isDigitIn 10 c = true ∨ c = '.') := by
      rintro (digit | point)
      · simp [not_isDigitIn_of_isBlank blank] at digit
      · exact solid (by decide) point
    split at h
    · rename_i opened
      obtain ⟨opening, member, split⟩ := Literal.exists_of_openedBy? opened
      simpa [blank] using head_eq_of_append (opening_not_blank _ member) split
    · rw [if_neg (solid (by decide)), if_neg (solid (by decide)), if_neg digit] at h
      exact isWhite_of_readMark? h blank
  all_goals
    obtain ⟨rfl, rfl⟩ := Prod.mk.inj (Option.some.inj h)
    rfl

/-- What is known of each piece of a text: how it is spelled, and that it begins with a character that
is not blank unless it is white space. -/
structure Piece.Legible (piece : Piece) : Prop where
  spelled : Spelled piece.token piece.spelling
  begins : isWhite piece.token = false → Text.BeginsSolid piece.spelling

private theorem legible_of_read? {piece : Piece} {rest : Text}
    (read : Token.read? (piece.spelling ++ rest) = some (piece.token, rest)) : piece.Legible := by
  obtain ⟨spelling, split, spelled⟩ := read?_spelled read
  obtain rfl := List.append_cancel_right split
  refine ⟨spelled, ?_⟩
  intro solid
  have shorter := Token.length_lt_of_read? read
  cases start : piece.spelling with
  | nil => simp [start] at shorter
  | cons c more =>
    refine ⟨c, more, rfl, ?_⟩
    cases blank : isBlank c with
    | false => rfl
    | true =>
      rw [start, List.cons_append] at read
      rw [isWhite_of_read? read blank] at solid
      exact absurd solid (by decide)

/-- Every piece of a text is legible. -/
theorem Pieces.legible (pieces : Pieces s run) : ∀ piece ∈ run, piece.Legible := by
  induction pieces with
  | done => simp
  | next piece read _ ih =>
    intro other member
    rcases List.mem_cons.1 member with rfl | member
    · exact legible_of_read? read
    · exact ih other member

theorem Piece.Legible.blank {piece : Piece} (legible : piece.Legible) (white : isWhite piece.token = true) :
    ∀ c ∈ piece.spelling, isBlank c = true := by
  obtain ⟨token, spelling⟩ := piece
  rcases legible.spelled with same | altered
  · exact same ▸ render_blank white
  · cases altered with
    | «return» => exact List.forall_mem_singleton.2 (by decide)
    | returnNewline =>
      exact List.forall_mem_cons.2 ⟨by decide, List.forall_mem_singleton.2 (by decide)⟩
    | blank blank => exact List.forall_mem_singleton.2 blank
    | _ => cases white

theorem Pieces.spelling_ne_nil (pieces : Pieces s run) : ∀ piece ∈ run, piece.spelling ≠ [] := by
  induction pieces with
  | done => simp
  | next piece read _ ih =>
    refine List.forall_mem_cons.2 ⟨?_, ih⟩
    intro none
    have shorter := Token.length_lt_of_read? read
    rw [none, List.nil_append] at shorter
    exact Nat.lt_irrefl _ shorter

/-- What is left after some pieces of a text has the others as its pieces. -/
theorem Pieces.suffix {before after : List Piece} (pieces : Pieces s (before ++ after)) :
    Pieces (spelled after) after := by
  induction before generalizing s with
  | nil => exact pieces.spelled_eq ▸ pieces
  | cons piece before ih =>
    cases pieces with
    | next _ _ more => exact ih more

end ColumnLineage.TextPieces
