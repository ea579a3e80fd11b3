/-!
A text is the list of its characters, so that scanning it and reasoning about it both follow the
list. Written constants are string literals turned into texts.
-/

namespace ColumnLineage

/-- A text, character by character. -/
abbrev Text := List Char

namespace Text

/-- What follows `word` where `s` begins with it. -/
def after? : Text → Text → Option Text
  | [], s => some s
  | _ :: _, [] => none
  | w :: word, c :: s => if w = c then after? word s else none

/-- Whether `needle` occurs in a text as a run of neighbouring characters. -/
def occursIn (needle : Text) : Text → Bool
  | [] => needle.isEmpty
  | c :: s => needle.isPrefixOf (c :: s) || occursIn needle s

/-- The texts one after another, with `separator` between two neighbours. -/
def joinWith (separator : Text) : List Text → Text
  | [] => []
  | [s] => s
  | s :: t :: rest => s ++ separator ++ joinWith separator (t :: rest)

/-- The word that follows is the rest of the text it starts. -/
theorem append_of_after? {word s rest : Text} (h : after? word s = some rest) :
    s = word ++ rest := by
  fun_induction after? word s with
  | case1 s => simpa using h
  | case2 => simp at h
  | case3 w word s ih => simp [ih h]
  | case4 => simp at h

/-- A word is followed by whatever stands after it. -/
@[simp] theorem after?_append (word rest : Text) : after? word (word ++ rest) = some rest := by
  induction word with
  | nil => rfl
  | cons w word ih => simp [after?, ih]

/-- Occurrence is being an infix. -/
theorem occursIn_iff {needle s : Text} : occursIn needle s = true ↔ needle <:+: s := by
  induction s with
  | nil => simp [occursIn]
  | cons c s ih => simp [occursIn, ih, List.infix_cons_iff]

/-- Dropping a run from the front of a text leaves no more than there was. -/
theorem length_dropWhile_le (p : Char → Bool) (s : Text) :
    (s.dropWhile p).length ≤ s.length :=
  (List.dropWhile_suffix p).length_le

end Text

end ColumnLineage
