import ColumnLineage.Proofs.ItemParts

/-! When a column counts as transformed. The text of its item is compared with its name, and the two are the
same only for an item that is a single word without quotes: anything before the word makes the text longer, and
so do quotes, whatever stands between them. Of the single words only those that end in a blank differ from
their text, which loses the blank. -/

namespace ColumnLineage.Transformation
open ItemParts
open Lineage (Column Tables columnsOfSql)
open SelectedItems
open Sql
open WordEnds

/-- A single word without quotes. -/
def IsBare (word : Word) (item : SelectItem) : Prop :=
  item.tokens = [.word word] ∧ word.quote = none

/-- A text in which no token but separators is written with blanks at its edges, or as nothing. -/
def CleanEdges (sql : Text) : Prop :=
  ∀ token ∈ Statement.tokens sql, token.isSpacing = false →
    Text.BeginsSolid token.render ∧ Text.EndsSolid token.render

variable {item : SelectItem} {front : List Token} {last : Word} {sql : Text} {tables : Tables} {column : Column}

/-! ## Text and name -/

/-- A quoted word is written longer than its value. -/
theorem length_of_quoted (quoted : last.quote ≠ none) : last.value.length < (ending last).length := by
  obtain ⟨quote, value⟩ := last
  cases quote with
  | none => exact absurd rfl quoted
  | some mark =>
    have solid : isBlank mark.char = false := by cases mark <;> decide
    have ends : Text.EndsSolid (Word.render ⟨some mark, value⟩) := ⟨mark.char :: value, mark.char, rfl, solid⟩
    have length : (Word.render ⟨some mark, value⟩).length = value.length + 2 := by simp [Word.render]
    rw [ending, Text.trimEnd_of_endsSolid ends, length]
    exact Nat.lt_add_of_pos_right Nat.two_pos

/-- Nothing stands before a word without quotes if it is the whole text that it ends. -/
theorem eq_nil_of_append_trimEnd {text value : Text} (begins : Text.BeginsSolid value)
    (same : text ++ Text.trimEnd value = value) : text = [] := by
  obtain ⟨c, more, start, solid⟩ := begins.trimEnd
  have idempotent : Text.trimEnd (Text.trimEnd value) = Text.trimEnd value :=
    List.rdropWhile_idempotent isBlank value
  -- trimmed once more, the left side stays as it is, and the right one becomes the end of it
  have twice := congrArg Text.trimEnd same
  rw [Text.trimEnd_append_of_solid (by rw [start]; exact List.mem_cons_self) solid, idempotent] at twice
  exact List.append_left_eq_self.1 twice

/-- The text of an item is the value of its last word exactly if the item is that word alone, without quotes and
without a blank at its end. -/
theorem text_eq_value_iff (begins : Begins item.tokens) (trimmed : Trimmed item.tokens)
    (whole : item.tokens = front ++ [.word last]) :
    item.text = last.value ↔ IsBare last item ∧ Text.trimEnd last.value = last.value := by
  have text := text_of_last begins trimmed whole
  have start : Text.BeginsSolid last.render := begins (.word last) (by simp [whole]) rfl
  constructor
  · intro same
    have plain : last.quote = none := by
      by_contra quoted
      have longer := length_of_quoted quoted
      have lengths := congrArg List.length (text.symm.trans same)
      rw [List.length_append] at lengths
      omega
    have written : last.render = last.value := by rw [Word.render, plain]
    rw [text, ending, written] at same
    have nothing := eq_nil_of_append_trimEnd (written ▸ start) same
    have alone : front = [] := by
      cases front with
      | nil => rfl
      | cons first more =>
        obtain ⟨head, others, split, solid⟩ := trimmed.begins
        obtain ⟨rfl, -⟩ := List.cons.inj (split.symm.trans whole)
        obtain ⟨c, rest, begun, -⟩ := begins head (by simp [whole]) solid
        rw [Token.renderAll_cons, begun] at nothing
        cases nothing
    rw [nothing, List.nil_append] at same
    exact ⟨⟨by rw [whole, alone]; rfl, plain⟩, same⟩
  · rintro ⟨⟨single, plain⟩, kept⟩
    have alone : front = [] := by
      rw [whole] at single
      exact List.append_left_eq_self.1 single
    rw [text, alone, ending, Word.render, plain]
    exact kept

/-! ## Columns -/

/-- What the item of a column must be for the column not to be transformed. -/
theorem transformed_eq_false (selects : Selects tables sql item column) :
    column.transformed = false ↔ ∃ word, IsBare word item ∧ Text.trimEnd word.value = word.value := by
  obtain ⟨list, found, listed, made⟩ := selects
  obtain ⟨inText, trimmed⟩ := item_isInfix found listed
  obtain ⟨named, -, flag, -⟩ := parts_of_ofItem? made
  obtain ⟨front, last, whole, name, -⟩ := last_of_name? trimmed named
  have begins : Begins item.tokens := fun token member => token_begins (inText.subset member)
  have equation : column.transformed = false ↔ item.text = last.value := by
    rw [flag, name, bne_eq_false_iff_eq]
  rw [equation, text_eq_value_iff begins trimmed whole]
  constructor
  · rintro ⟨bare, kept⟩
    exact ⟨last, bare, kept⟩
  · rintro ⟨word, ⟨single, plain⟩, kept⟩
    obtain ⟨-, same⟩ := List.append_inj' (whole.symm.trans single : front ++ _ = [] ++ [.word word]) rfl
    obtain rfl := Token.word.inj (List.singleton_inj.1 same)
    exact ⟨⟨single, plain⟩, kept⟩

/-- A word without quotes keeps its end when it is trimmed, unless it ends in a blank. -/
theorem trimEnd_eq_iff {word : Word} (plain : word.quote = none) (inText : .word word ∈ Statement.tokens sql) :
    Text.trimEnd word.value = word.value ↔ ¬ EndsBlank word := by
  have written : word.render = word.value := by rw [Word.render, plain]
  constructor
  · rintro kept ⟨-, mark, -, c, blank, -, value⟩
    have lost : Text.trimEnd word.value = Text.trimEnd mark := by
      rw [value, Text.trimEnd_append_of_blank (List.forall_mem_singleton.2 blank)]
    have shorter := (Text.trimEnd_isPrefix mark).length_le
    have lengths := congrArg List.length (lost.symm.trans (kept.trans value))
    rw [List.length_append, List.length_singleton] at lengths
    omega
  · intro solid
    exact Text.trimEnd_of_endsSolid (written ▸ (word_ends inText).resolve_right solid)

/-- Every column of a text is made of an item of it, and is not transformed exactly if the item is a single word
without quotes, and not of a mark and a blank. In a text whose tokens have no blanks at their edges the second
condition holds of every word. An item with an alias, of several significant tokens or with a quoted word makes
a transformed column. -/
theorem transformed_iff (tables : Tables) (sql : Text) :
    (∀ column ∈ columnsOfSql tables sql, ∃ item, Selects tables sql item column) ∧
    ∀ item column, Selects tables sql item column →
      (column.transformed = false ↔ ∃ word, IsBare word item ∧ ¬ EndsBlank word) ∧
      (CleanEdges sql → (column.transformed = false ↔ ∃ word, IsBare word item)) ∧
      (item.alias? ≠ none ∨ 1 < item.significant.length ∨
        (∃ word, .word word ∈ item.tokens ∧ word.quote ≠ none) → column.transformed = true) := by
  refine ⟨fun column member => mem_columnsOfSql_iff.1 member, ?_⟩
  intro item column selects
  have inText {word : Word} (bare : IsBare word item) : .word word ∈ Statement.tokens sql := by
    obtain ⟨list, found, listed, -⟩ := selects
    exact (item_isInfix found listed).1.subset (by rw [bare.1]; exact List.mem_singleton_self _)
  have exact_iff : column.transformed = false ↔ ∃ word, IsBare word item ∧ ¬ EndsBlank word := by
    rw [transformed_eq_false selects]
    exact exists_congr fun word => and_congr_right fun bare => trimEnd_eq_iff bare.2 (inText bare)
  refine ⟨exact_iff, ?_, ?_⟩
  · intro clean
    rw [exact_iff]
    refine exists_congr fun word => and_iff_left_of_imp fun bare => ?_
    have ends := (clean _ (inText bare) rfl).2
    have written : Token.render (.word word) = word.value := by rw [Token.render, Word.render, bare.2]
    exact (trimEnd_eq_iff bare.2 (inText bare)).1 (Text.trimEnd_of_endsSolid (written ▸ ends))
  · intro shape
    by_contra untransformed
    obtain ⟨word, ⟨single, plain⟩, -⟩ := exact_iff.1 (Bool.eq_false_iff.2 untransformed)
    rcases shape with aliased | several | ⟨other, member, quoted⟩
    · apply aliased
      rw [SelectItem.alias?, SelectItem.splitAlias?, single]
      rfl
    · rw [SelectItem.significant, single] at several
      exact absurd several (by simp [Token.significant, Token.isSpacing])
    · rw [single] at member
      obtain rfl := Token.word.inj (List.mem_singleton.1 member)
      exact quoted plain

/-- A query of a column, and of the same column with its name as an alias. -/
def renamed : Text :=
  "SELECT a, a AS a FROM t".toList

/-- The item of the column. -/
def bareItem : SelectItem :=
  ⟨[plainWord "a"]⟩

/-- The item with the alias. -/
def renamedItem : SelectItem :=
  ⟨[plainWord "a", .spacing .space, plainWord "AS", .spacing .space, plainWord "a"]⟩

/-- The column of the first item. -/
def bareColumn : Column :=
  ⟨['t'], ['a'], some ['t'], ['a'], ['a'], false⟩

/-- The column of the second. -/
def renamedColumn : Column :=
  ⟨['t'], ['a'], some ['t'], ['a'], "a AS a".toList, true⟩

/-- Of the two columns only the one with the alias counts as transformed. -/
theorem transformed_iff_of_renamed :
    CleanEdges renamed ∧
      (Selects (Tables.ofSql renamed) renamed bareItem bareColumn ∧ bareColumn.transformed = false) ∧
      (Selects (Tables.ofSql renamed) renamed renamedItem renamedColumn ∧ renamedColumn.transformed = true) := by
  have clean : CleanEdges renamed := by
    unfold CleanEdges
    decide +kernel
  have found : SelectList.ofTokens? (Statement.first renamed) = some (.several bareItem renamedItem []) := by
    decide +kernel
  have first : Selects (Tables.ofSql renamed) renamed bareItem bareColumn :=
    ⟨_, found, by simp [SelectList.items], by decide +kernel⟩
  have second : Selects (Tables.ofSql renamed) renamed renamedItem renamedColumn :=
    ⟨_, found, by simp [SelectList.items], by decide +kernel⟩
  obtain ⟨-, columns⟩ := transformed_iff (Tables.ofSql renamed) renamed
  refine ⟨clean, ⟨first, ?_⟩, ⟨second, ?_⟩⟩
  · exact ((columns _ _ first).2.1 clean).2 ⟨⟨none, ['a']⟩, rfl, rfl⟩
  · exact (columns _ _ second).2.2 (.inl (by decide))

end ColumnLineage.Transformation
