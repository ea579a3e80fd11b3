import ColumnLineage.Lineage.Extraction
import ColumnLineage.Proofs.StatementWords
import ColumnLineage.Proofs.TableMentions

/-! The target of a statement that creates a table from a query, in all its layouts. The phrase before the
target is looked for as it is written, with one space between its words, so the statement names its target
where they stand so, and the first word after them is taken for it. In any other layout the statement is no
mention at all, and the target comes from the query. -/

namespace ColumnLineage.CreatedTable
open Lineage (Tables unknownTable)
open Sql.TableMention (read? words sources target? targetPhrase)
open StatementWords (foldCase_of_isBlank forall_mem_of_all isBlank_foldCase not_isBlank_of_folds)
open TableMentions

variable {phrase s t u v : Text} {c d : Char}

/-! ## Layouts -/

/-- Blanks between two words, at least one. -/
structure Gap where
  blanks : Text
  ne_nil : blanks ≠ []
  blank : ∀ c ∈ blanks, isBlank c = true

/-- One space. -/
def oneSpace : Gap where
  blanks := [' ']
  ne_nil := List.cons_ne_nil _ _
  blank := forall_mem_of_all (by decide +kernel)

/-- A statement that creates a table from a query: the gap between its first two words and the one after them,
whether it is under the condition that the table is not there yet, and the name of the table. -/
structure Creation where
  gap : Gap
  space : Gap
  conditional : Bool
  name : Text
  query : Text
  name_ne_nil : name ≠ []
  name_solid : ∀ c ∈ name, isWordChar c = true

namespace Creation

/-- The words of the condition, if there is one. -/
def condition (creation : Creation) : Text :=
  if creation.conditional then "IF NOT EXISTS ".toList else []

/-- What stands behind `TABLE` and the blanks after it. -/
def rest (creation : Creation) : Text :=
  creation.condition ++ (creation.name ++ (" AS ".toList ++ creation.query))

/-- The text of the statement. -/
def text (creation : Creation) : Text :=
  "CREATE".toList ++ (creation.gap.blanks ++ ("TABLE".toList ++ (creation.space.blanks ++ creation.rest)))

/-- The first word after the blanks behind `TABLE`. -/
def firstWord (creation : Creation) : Text :=
  if creation.conditional then "IF".toList else creation.name

end Creation

/-! ## Where the phrase is read -/

/-- A run of characters of one kind ends in one place. -/
theorem append_cons_inj {p : Char → Bool} (first : ∀ c ∈ s, p c = true) (second : ∀ c ∈ t, p c = true)
    (stopFirst : p c = false) (stopSecond : p d = false) (same : s ++ c :: u = t ++ d :: v) :
    s = t ∧ c :: u = d :: v := by
  have runs := congrArg (List.takeWhile p) same
  rw [List.takeWhile_append_of_pos first, List.takeWhile_cons_of_neg (by simp [stopFirst]),
    List.takeWhile_append_of_pos second, List.takeWhile_cons_of_neg (by simp [stopSecond]),
    List.append_nil, List.append_nil] at runs
  subst runs
  exact ⟨rfl, List.append_cancel_left same⟩

private theorem solid_words :
    (∀ c ∈ "CREATE".toList, isBlank c = false) ∧ ∀ c ∈ "TABLE".toList, isBlank c = false :=
  ⟨forall_mem_of_all (by decide +kernel), forall_mem_of_all (by decide +kernel)⟩

/-- Letters that fold to the phrase are two words with one space between them: no other blank folds to it. -/
theorem letters_of_folds {letters : Text} (folds : letters.map foldCase = targetPhrase.map foldCase) :
    ∃ create table, letters = create ++ ' ' :: table ∧ (∀ c ∈ create, isBlank c = false) ∧
      table.map foldCase = "TABLE".toList.map foldCase ∧ Text.BeginsSolid table := by
  have parted : letters.map foldCase =
      "CREATE".toList.map foldCase ++ foldCase ' ' :: "TABLE".toList.map foldCase := folds
  obtain ⟨create, others, rfl, createFolds, othersFold⟩ := List.map_eq_append_iff.1 parted
  obtain ⟨b, table, rfl, spaceFolds, tableFolds⟩ := List.map_eq_cons_iff.1 othersFold
  have spaceBlank : isBlank b = true := by
    rw [← isBlank_foldCase, spaceFolds]
    decide +kernel
  obtain rfl : b = ' ' := by rwa [foldCase_of_isBlank spaceBlank] at spaceFolds
  refine ⟨create, table, rfl, not_isBlank_of_folds createFolds solid_words.1, tableFolds, ?_⟩
  cases table with
  | nil => cases tableFolds
  | cons t more => exact ⟨t, more, rfl, not_isBlank_of_folds tableFolds solid_words.2 t List.mem_cons_self⟩

/-- Where the first word of a text is parted from what follows by blanks, the phrase is read only over one
space and the second word of the phrase. -/
theorem unread_of_gap {first tail : Text} (solid : ∀ c ∈ first, isBlank c = false) (gap : Gap)
    (begins : Text.BeginsSolid tail)
    (other : gap.blanks = [' '] → Text.afterFolded? "TABLE".toList tail = none) :
    read? targetPhrase (first ++ (gap.blanks ++ tail)) = none := by
  obtain ⟨gap, apart, blank⟩ := gap
  by_contra some
  obtain ⟨⟨word, after⟩, read⟩ := Option.ne_none_iff_exists'.1 some
  obtain ⟨letters, blanks, whole, mention⟩ := mention_of_read? read
  obtain ⟨create, table, rfl, createSolid, tableFolds, t, more, rfl, tSolid⟩ :=
    letters_of_folds mention.folds
  obtain ⟨g, gap, rfl⟩ := List.exists_cons_of_ne_nil apart
  obtain ⟨d, rest, rfl, dSolid⟩ := begins
  obtain ⟨gBlank, gapBlank⟩ := List.forall_mem_cons.1 blank
  rw [List.append_assoc] at whole
  -- the first word ends at the first blank on both sides, and the blanks at the next that is none
  obtain ⟨-, remains⟩ := append_cons_inj (p := fun c => !isBlank c) (by simpa using solid)
    (by simpa using createSolid) (by simp [gBlank]) (by decide +kernel) whole
  have space : g = ' ' := (List.cons.inj remains).1
  have behind : gap ++ d :: rest = [] ++ t :: (more ++ (blanks ++ (word ++ after))) :=
    (List.cons.inj remains).2
  obtain ⟨rfl, tail⟩ := append_cons_inj gapBlank (by simp) dSolid tSolid behind
  have follows := Text.afterFolded?_eq_some_iff.2 ⟨t :: more, tail, tableFolds⟩
  cases (other (congrArg (fun c => [c]) space)).symm.trans follows

/-! ## What is not scanned -/

/-- A text in which nothing folds to the first letter of the phrase is passed over. -/
theorem words_append_of_apart {w : Char} (apart : ∀ c ∈ s, foldCase c ≠ foldCase w) (t : Text) :
    words (w :: phrase) (s ++ t) = words (w :: phrase) t := by
  induction s with
  | nil => rfl
  | cons c s ih =>
    obtain ⟨first, others⟩ := List.forall_mem_cons.1 apart
    have unread : read? (w :: phrase) (c :: (s ++ t)) = none := by
      rw [read?, Text.afterFolded?, if_neg (Ne.symm first)]
    rw [List.cons_append, words_of_unread unread, ih others]

private theorem apart_of_blank (blank : ∀ c ∈ s, isBlank c = true) :
    ∀ c ∈ s, foldCase c ≠ foldCase 'C' := by
  intro c member folds
  have solid : isBlank (foldCase 'C') = false := by decide +kernel
  rw [← folds, isBlank_foldCase, blank c member] at solid
  cases solid

/-- The name of the table and the word before the query are passed over. Where the name ends as the first word
of the phrase, that word and not the second of the phrase goes after it. -/
theorem words_name {name : Text} (solid : ∀ c ∈ name, isWordChar c = true) (query : Text) :
    words targetPhrase (name ++ (" AS ".toList ++ query)) = words targetPhrase query := by
  induction name with
  | nil => exact words_append_of_apart (forall_mem_of_all (by decide +kernel)) query
  | cons c name ih =>
    have nameSolid : ∀ d ∈ c :: name, isBlank d = false :=
      fun d member => not_isBlank_of_isWordChar (solid d member)
    have begins : Text.BeginsSolid ("AS ".toList ++ query) :=
      Text.BeginsSolid.append (by decide +kernel) query
    have unread : read? targetPhrase (c :: name ++ ([' '] ++ ("AS ".toList ++ query))) = none :=
      unread_of_gap nameSolid oneSpace begins fun _ => rfl
    exact (words_of_unread unread).trans (ih (List.forall_mem_cons.1 solid).2)

/-! ## The target -/

namespace Creation

/-- Where the blanks between the first two words are not one space, only the query is scanned for a target. -/
theorem words_of_apart (creation : Creation) (apart : creation.gap.blanks ≠ [' ']) :
    words targetPhrase creation.text = words targetPhrase creation.query := by
  have begins : Text.BeginsSolid ("TABLE".toList ++ (creation.space.blanks ++ creation.rest)) :=
    Text.BeginsSolid.append (by decide +kernel) _
  have unread := unread_of_gap solid_words.1 creation.gap begins fun same => absurd same apart
  have opening : ∀ c ∈ "REATE".toList ++ (creation.gap.blanks ++ ("TABLE".toList ++
      (creation.space.blanks ++ creation.condition))), foldCase c ≠ foldCase 'C' := by
    simp only [List.forall_mem_append]
    refine ⟨forall_mem_of_all (by decide +kernel), apart_of_blank creation.gap.blank,
      forall_mem_of_all (by decide +kernel), apart_of_blank creation.space.blank, ?_⟩
    unfold condition
    split <;> exact forall_mem_of_all (by decide +kernel)
  have passed : words targetPhrase _ = words targetPhrase _ :=
    words_append_of_apart opening (creation.name ++ (" AS ".toList ++ creation.query))
  simp only [List.append_assoc] at passed
  calc words targetPhrase creation.text
    _ = _ := words_of_unread unread
    _ = words targetPhrase (creation.name ++ (" AS ".toList ++ creation.query)) := passed
    _ = words targetPhrase creation.query := words_name creation.name_solid creation.query

theorem firstWord_ne_nil (creation : Creation) : creation.firstWord ≠ [] := by
  unfold firstWord
  split
  · exact List.cons_ne_nil _ _
  · exact creation.name_ne_nil

theorem firstWord_solid (creation : Creation) : ∀ c ∈ creation.firstWord, isWordChar c = true := by
  unfold firstWord
  split
  · exact forall_mem_of_all (by decide +kernel)
  · exact creation.name_solid

/-- The first word behind `TABLE` ends at a space, with or without a condition. -/
theorem exists_firstWord (creation : Creation) :
    ∃ more, creation.rest = creation.firstWord ++ ' ' :: more := by
  unfold rest condition firstWord
  split
  · exact ⟨"NOT EXISTS ".toList ++ (creation.name ++ (" AS ".toList ++ creation.query)), rfl⟩
  · exact ⟨"AS ".toList ++ creation.query, rfl⟩

/-- Where the first two words are parted by one space, the statement mentions the first word behind them. -/
theorem words_of_space (creation : Creation) (space : creation.gap.blanks = [' ']) :
    ∃ rest, words targetPhrase creation.text = creation.firstWord :: words targetPhrase rest := by
  obtain ⟨more, behind⟩ := creation.exists_firstWord
  have ends : (' ' :: more).takeWhile isWordChar = [] :=
    List.takeWhile_cons_of_neg (by decide +kernel)
  have mention : Mention targetPhrase "CREATE TABLE".toList creation.space.blanks creation.firstWord
      (' ' :: more) :=
    ⟨rfl, creation.space.ne_nil, creation.space.blank, creation.firstWord_ne_nil,
      creation.firstWord_solid, ends⟩
  have whole : creation.text =
      "CREATE TABLE".toList ++ (creation.space.blanks ++ (creation.firstWord ++ ' ' :: more)) := by
    unfold text
    rw [behind, space]
    rfl
  have read := read?_of_mention mention
  rw [← whole] at read
  exact ⟨' ' :: more, words_of_read? read⟩

end Creation

/-- A statement that creates a table has as its target the first word behind `CREATE TABLE`, if it is written
with one space: the name of the table, or `IF`. With other blanks there the target is that of the query, or
else the first source of the whole text, or else unknown. -/
theorem target_of_creation (creation : Creation) :
    (Tables.ofSql creation.text).target =
      if creation.gap.blanks = [' '] then creation.firstWord
      else (target? creation.query <|> (sources creation.text).head?).getD unknownTable := by
  unfold Tables.ofSql Tables.ofMentions target?
  by_cases space : creation.gap.blanks = [' ']
  · obtain ⟨rest, mentioned⟩ := creation.words_of_space space
    rw [if_pos space, mentioned]
    rfl
  · rw [if_neg space, creation.words_of_apart space]

private def plain : Creation where
  gap := oneSpace
  space := oneSpace
  conditional := false
  name := "out".toList
  query := "SELECT a FROM t".toList
  name_ne_nil := List.cons_ne_nil _ _
  name_solid := forall_mem_of_all (by decide +kernel)

private def twoSpaces : Gap where
  blanks := [' ', ' ']
  ne_nil := List.cons_ne_nil _ _
  blank := forall_mem_of_all (by decide +kernel)

private def spaced : Creation :=
  { plain with gap := twoSpaces }

private def guarded : Creation :=
  { plain with conditional := true }

/-- The name is not the target in every layout: not with two spaces between the first words, and not behind
the condition. -/
theorem target_of_other_layouts :
    spaced.text = "CREATE  TABLE out AS SELECT a FROM t".toList ∧
      (Tables.ofSql spaced.text).target = "t".toList ∧
    guarded.text = "CREATE TABLE IF NOT EXISTS out AS SELECT a FROM t".toList ∧
      (Tables.ofSql guarded.text).target = "IF".toList ∧
    ¬ ∀ creation : Creation, (Tables.ofSql creation.text).target = creation.name := by
  have fallback : (Tables.ofSql spaced.text).target = "t".toList := by decide +kernel
  refine ⟨by decide +kernel, fallback, by decide +kernel, by decide +kernel, ?_⟩
  intro named
  exact absurd (fallback.symm.trans (named spaced)) (by decide +kernel)

end ColumnLineage.CreatedTable
