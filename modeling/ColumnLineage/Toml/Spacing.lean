import ColumnLineage.Text.Digit

/-!
What may stand between the parts of a TOML text: spaces, line ends and comments.
-/

namespace ColumnLineage.Toml

/-- Whether a character is a space within a line. -/
def isSpace (c : Char) : Bool :=
  c = ' ' || c = '\t'

/-- The text from its first character that is no space within a line. -/
def skipSpace (s : Text) : Text :=
  s.dropWhile isSpace

/-- Whether a character may stand in a comment: all but the control characters, of which only the
tab may. -/
def isCommentChar (c : Char) : Bool :=
  c = '\t' || (32 ≤ c.toNat && c.toNat ≠ 127)

/-- What follows a line end at the start of a text. A carriage return alone ends no line. -/
def afterNewline? : Text → Option Text
  | '\n' :: s => some s
  | '\r' :: '\n' :: s => some s
  | _ => none

/-- The text after a comment at its start, if there is one. -/
def skipComment : Text → Text
  | '#' :: s => s.dropWhile isCommentChar
  | s => s

/-- What follows the rest of a line, which may hold spaces and a comment only. The last line needs
no end. -/
def finishLine? (s : Text) : Option Text :=
  match skipComment (skipSpace s) with
  | [] => some []
  | rest => afterNewline? rest

theorem afterNewline?_shorter {s rest : Text} (h : afterNewline? s = some rest) :
    rest.length < s.length := by
  unfold afterNewline? at h
  split at h
  · cases Option.some.inj h
    simp only [List.length_cons]; omega
  · cases Option.some.inj h
    simp only [List.length_cons]; omega
  · cases h

theorem skipComment_suffix (s : Text) : skipComment s <:+ s := by
  unfold skipComment
  split
  · exact (List.dropWhile_suffix _).trans (List.suffix_cons _ _)
  · exact List.suffix_rfl

/-- The text after all spaces, line ends and comments at its start. -/
def skipLines (s : Text) : Text :=
  match h : afterNewline? (skipComment (skipSpace s)) with
  | some rest => skipLines rest
  | none => skipComment (skipSpace s)
termination_by s.length
decreasing_by
  have shorter := afterNewline?_shorter h
  have comment := (skipComment_suffix (skipSpace s)).length_le
  have space := Text.length_dropWhile_le isSpace s
  unfold skipSpace at comment shorter
  omega

end ColumnLineage.Toml
