import ColumnLineage.Text.Basic

/-!
Two ways to disregard case, as far as plain Latin letters can tell. Folding maps a character to
one character and serves the scan of raw text; capitals may be several characters and decide which
word is a keyword. They agree on the letters but not on characters such as the ligature of `f` and
`l`, whose capitals are two letters.
-/

namespace ColumnLineage

/-- Simple case folding, for every character whose folded form is a plain Latin letter. Other
characters stand for themselves. -/
def foldCase (c : Char) : Char :=
  if c = 'ſ' then 's' else if c = '\u212A' then 'k' else c.toLower

/-- The capital form of a character where that form is made of plain Latin letters only. Other
characters stand for themselves: their capitals hold something else than A to Z. -/
def capitals (c : Char) : Text :=
  if c = 'ı' then ['I']
  else if c = 'ſ' then ['S']
  else if c = 'ß' then ['S', 'S']
  else if c = 'ﬀ' then ['F', 'F']
  else if c = 'ﬁ' then ['F', 'I']
  else if c = 'ﬂ' then ['F', 'L']
  else if c = 'ﬃ' then ['F', 'F', 'I']
  else if c = 'ﬄ' then ['F', 'F', 'L']
  else if c = 'ﬅ' then ['S', 'T']
  else if c = 'ﬆ' then ['S', 'T']
  else [c.toUpper]

namespace Text

/-- The capital form of a text, exact wherever it is made of plain Latin letters. -/
def toCapitals (s : Text) : Text :=
  s.flatMap capitals

/-- What follows `word` where `s` begins with it up to case folding. -/
def afterFolded? : Text → Text → Option Text
  | [], s => some s
  | _ :: _, [] => none
  | w :: word, c :: s => if foldCase w = foldCase c then afterFolded? word s else none

/-- A word is found in the letters at the start of a text that fold as it does. -/
theorem afterFolded?_eq_some_iff {word s rest : Text} : afterFolded? word s = some rest ↔
    ∃ letters, s = letters ++ rest ∧ letters.map foldCase = word.map foldCase := by
  fun_induction afterFolded? word s with
  | case1 s =>
    constructor
    · rintro ⟨⟩
      exact ⟨[], rfl, rfl⟩
    · rintro ⟨letters, rfl, folds⟩
      rw [List.map_eq_nil_iff.1 folds, List.nil_append]
  | case2 w word =>
    constructor
    · rintro ⟨⟩
    · rintro ⟨letters, empty, folds⟩
      rw [(List.append_eq_nil_iff.1 empty.symm).1] at folds
      cases folds
  | case3 w word c s same ih =>
    rw [ih]
    constructor
    · rintro ⟨letters, rfl, folds⟩
      exact ⟨c :: letters, rfl, by rw [List.map_cons, List.map_cons, folds, same]⟩
    · rintro ⟨letters, whole, folds⟩
      cases letters with
      | nil => cases folds
      | cons first letters => exact ⟨letters, (List.cons.inj whole).2, (List.cons.inj folds).2⟩
  | case4 w word c s differ =>
    constructor
    · rintro ⟨⟩
    · rintro ⟨letters, whole, folds⟩
      cases letters with
      | nil => cases folds
      | cons first letters =>
        rw [(List.cons.inj whole).1] at differ
        exact absurd (List.cons.inj folds).1.symm differ

theorem length_of_afterFolded? {word s rest : Text} (h : afterFolded? word s = some rest) :
    s.length = word.length + rest.length := by
  obtain ⟨letters, rfl, folds⟩ := afterFolded?_eq_some_iff.1 h
  have same := congrArg List.length folds
  simp only [List.length_map] at same
  rw [List.length_append, same]

end Text

end ColumnLineage
