import ColumnLineage.Sql.Token.Quoted
import ColumnLineage.Text.Numeric

/-!
Dollar signs. Two of them, with or without a tag between, open a constant that ends at the same
mark; a dollar sign with a tag alone is a placeholder. Looking for the closing tag takes every
character that it compares, so a mark that begins within a failed comparison is not found.
-/

namespace ColumnLineage.Sql.Dollar

open Quoted (keep keep_eq_some)

/-- A value up to two dollar signs. `after` tells whether a dollar sign stands just before. -/
def readUntagged : Bool → Text → Option (Text × Text)
  | _, [] => none
  | false, c :: s => if c = '$' then readUntagged true s else keep c (readUntagged false s)
  | true, c :: s => if c = '$' then some ([], s) else keep '$' (keep c (readUntagged false s))

/-- Compares a text with a tag, one character after another. Tells whether all of the tag was
there, which characters were compared and what follows them. -/
def compareTag : Text → Text → Option (Bool × Text × Text)
  | [], s => some (true, [], s)
  | _ :: _, [] => none
  | t :: tag, c :: s =>
    if t = c then
      match compareTag tag s with
      | some (found, compared, rest) => some (found, c :: compared, rest)
      | none => none
    else some (false, [c], s)

theorem compareTag_append {tag s compared rest : Text} {found : Bool}
    (h : compareTag tag s = some (found, compared, rest)) : s = compared ++ rest := by
  fun_induction compareTag tag s generalizing compared <;> grind

/-- Puts a text in front of the value that was read. -/
def keepAll (text : Text) : Option (Text × Text) → Option (Text × Text)
  | some (value, rest) => some (text ++ value, rest)
  | none => none

/-- A value up to the tag between dollar signs. -/
def readTagged (tag : Text) : Text → Option (Text × Text)
  | [] => none
  | c :: s =>
    if c = '$' then
      match h : compareTag tag s with
      | none => none
      | some (found, compared, rest) =>
        if found = true ∧ rest.head? = some '$' then some ([], rest.tail)
        else keepAll ('$' :: compared) (readTagged tag rest)
    else keep c (readTagged tag s)
termination_by s => s.length
decreasing_by
  · have := congrArg List.length (compareTag_append h)
    simp only [List.length_append] at this
    simp only [List.length_cons]; omega
  · simp only [List.length_cons]; omega

/-- Whether a character can stand in a tag. -/
def isTagChar (c : Char) : Bool :=
  isAlphanumeric c || c = '_'

/-- The token that a dollar sign before `s` begins, and what follows it. -/
def read? (s : Text) : Option (Token × Text) :=
  let tag := s.takeWhile isTagChar
  match s.dropWhile isTagChar with
  | '$' :: body =>
    let value := if tag.isEmpty then readUntagged false body else readTagged tag body
    value.map fun (value, rest) => (.dollarQuoted tag value, rest)
  | rest => some (.placeholder ('$' :: tag), rest)

theorem suffix_of_readUntagged {after : Bool} {s value rest : Text}
    (h : readUntagged after s = some (value, rest)) : rest <:+ s := by
  fun_induction readUntagged after s generalizing value <;>
    grind [keep_eq_some, List.suffix_cons_iff]

theorem suffix_of_readTagged {tag s value rest : Text}
    (h : readTagged tag s = some (value, rest)) : rest <:+ s := by
  fun_induction readTagged tag s generalizing value with
  | case1 => simp at h
  | case2 => simp at h
  | case3 _ found compared after compare _ =>
    obtain ⟨_, rfl⟩ := Prod.mk.inj (Option.some.inj h)
    rw [compareTag_append compare]
    exact ((List.tail_suffix _).trans (List.suffix_append _ _)).trans (List.suffix_cons _ _)
  | case4 _ found compared after compare _ ih =>
    unfold keepAll at h
    split at h
    · rename_i inner
      obtain ⟨_, rfl⟩ := Prod.mk.inj (Option.some.inj h)
      rw [compareTag_append compare]
      exact ((ih inner).trans (List.suffix_append _ _)).trans (List.suffix_cons _ _)
    · simp at h
  | case5 c s _ ih => grind [keep_eq_some, List.suffix_cons_iff]

theorem suffix_of_read? {s rest : Text} {token : Token} (h : read? s = some (token, rest)) :
    rest <:+ s := by
  have after := List.dropWhile_suffix isTagChar (l := s)
  simp only [read?] at h
  split at h
  · rename_i body split
    rw [split] at after
    obtain ⟨⟨value, _⟩, read, same⟩ := Option.map_eq_some_iff.1 h
    cases same
    refine List.IsSuffix.trans ?_ ((List.suffix_cons '$' body).trans after)
    split at read
    · exact suffix_of_readUntagged read
    · exact suffix_of_readTagged read
  · obtain ⟨_, rfl⟩ := Prod.mk.inj (Option.some.inj h)
    exact after

end ColumnLineage.Sql.Dollar
