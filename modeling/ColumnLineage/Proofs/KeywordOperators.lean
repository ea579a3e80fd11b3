import ColumnLineage.Proofs.ImplicitAlias

/-! Operators that are spelled as keywords. The word after one of them is its second operand and names no
column. That is so for the operators among the words of expressions, since no alias follows those words. The
other operators are words like any name: the operand after one of them is taken for an alias of all that stands
before it, and a column is made that the query does not have. -/

namespace ColumnLineage.KeywordOperators
open ImplicitAlias (Aliased Recognized aliased_of_splitAlias? referredName?_of_last splitAlias?_of_last)
open KeywordSpelling (isAnyOf_iff isAnyOf_mono not_isAnyOf_of_apart)
open Lineage (Column Tables)
open SelectedItems (plainWord)
open Sql

/-- The operators among the words of expressions. -/
def knownOperators : List String :=
  ["AND", "OR", "NOT", "IS", "IN", "LIKE", "ILIKE", "BETWEEN"]

/-- The other operators of one word that can stand after any operand. -/
def otherOperators : List String :=
  ["XOR", "RLIKE", "REGEXP", "DIV", "COLLATE"]

/-- A first operand with an operator after it: the tokens before the last word of the operator, and that word.
`AT TIME ZONE` is one operator, and `OVER` is one after the closing parenthesis of a call. -/
inductive Operator : List Token → Word → Prop where
  | single (operand : List Token) (operator : Word)
      (named : operator.isAnyOf (knownOperators ++ otherOperators) = true) : Operator operand operator
  | timeZone (operand first second : List Token) (preposition time zone : Word)
      (atFirst : ∀ token ∈ first, token.isSpacing = true) (atSecond : ∀ token ∈ second, token.isSpacing = true)
      (namedAt : preposition.isAnyOf ["AT"] = true) (namedTime : time.isAnyOf ["TIME"] = true)
      (namedZone : zone.isAnyOf ["ZONE"] = true) :
      Operator (operand ++ .word preposition :: (first ++ .word time :: second)) zone
  | window (call gap : List Token) (keyword : Word) (spacing : ∀ token ∈ gap, token.isSpacing = true)
      (named : keyword.isAnyOf ["OVER"] = true) : Operator (call ++ .symbol .closeParen :: gap) keyword

/-- An item has no alias, and no column is made of it. -/
structure Unnamed (tables : Tables) (item : SelectItem) : Prop where
  unaliased : item.alias? = none
  columnless : Column.ofItem? tables item = none

variable {front gap : List Token} {last operand : Word} {item : SelectItem} {tables : Tables}

theorem isAnyOf_append (word : Word) (few more : List String) :
    word.isAnyOf (few ++ more) = true ↔ word.isAnyOf few = true ∨ word.isAnyOf more = true := by
  constructor
  · intro named
    obtain ⟨plain, keyword, member, same⟩ := isAnyOf_iff.1 named
    rcases List.mem_append.1 member with member | member
    · exact .inl (isAnyOf_iff.2 ⟨plain, keyword, member, same⟩)
    · exact .inr (isAnyOf_iff.2 ⟨plain, keyword, member, same⟩)
  · rintro (named | named)
    · exact isAnyOf_mono (List.subset_append_left few more) named
    · exact isAnyOf_mono (List.subset_append_right few more) named

/-- An operator that is not known is spelled as no word of expressions. -/
theorem Operator.free (applied : Operator front last) (unknown : last.isAnyOf knownOperators = false) :
    last.isAnyOf expressionWords = false := by
  cases applied with
  | single _ operator named =>
    rcases (isAnyOf_append last knownOperators otherOperators).1 named with known | other
    · rw [unknown] at known
      cases known
    · exact not_isAnyOf_of_apart (by decide) other
  | timeZone _ _ _ _ _ _ _ _ _ _ namedZone => exact not_isAnyOf_of_apart (by decide) namedZone
  | window _ _ _ _ named => exact not_isAnyOf_of_apart (by decide) named

/-- An item without an alias has no name if it ends in a word after another word. -/
theorem unnamed_of_splitAlias? (split : item.splitAlias? = none)
    (whole : item.tokens = front ++ .word last :: (gap ++ [.word operand]))
    (spacing : ∀ token ∈ gap, token.isSpacing = true) : Unnamed tables item := by
  have noAlias : item.alias? = none := by
    rw [SelectItem.alias?, split]
    rfl
  refine ⟨noAlias, ?_⟩
  have noReference : item.referredName? = none := referredName?_of_last whole spacing rfl Token.noConfusion
  rw [Column.ofItem?, SelectItem.name?, noAlias, noReference]
  rfl

/-- A word after an operator. After a known operator it is no alias, and no column is made of the item. After
any other it is the alias of all that stands before it, and the item has a column of its name, unless the word
is itself a keyword that can be no alias. -/
theorem operand_after_operator (tables : Tables) (item : SelectItem) (applied : Operator front last)
    (whole : item.tokens = front ++ .word last :: (gap ++ [.word operand]))
    (spacing : ∀ token ∈ gap, token.isSpacing = true) :
    (last.isAnyOf knownOperators = true → Unnamed tables item) ∧
    (last.isAnyOf knownOperators = false → operand.canBeAlias = true →
      Aliased tables item (front ++ .word last :: gap) operand) ∧
    (operand.canBeAlias = false → Unnamed tables item) := by
  have noAs : (Token.word last).isAnyOf ["AS"] = false := by
    cases known : last.isAnyOf knownOperators with
    | true => exact not_isAnyOf_of_apart (by decide) known
    | false => exact (Recognized.name last (applied.free known)).facts.2.1
  have split := splitAlias?_of_last whole spacing rfl
  rw [noAs, Bool.false_and, if_neg Bool.false_ne_true] at split
  refine ⟨?_, ?_, ?_⟩
  · intro known
    have taken : last.isAnyOf expressionWords = true := isAnyOf_mono (by decide) known
    apply unnamed_of_splitAlias? _ whole spacing
    simpa [Token.canPrecedeAlias, taken] using split
  · intro unknown free
    have before := (Recognized.name last (applied.free unknown)).facts.2.2
    rw [free, before] at split
    exact aliased_of_splitAlias? split
  · intro reserved
    apply unnamed_of_splitAlias? _ whole spacing
    simpa [reserved] using split

/-- A query of a conjunction and of a division. -/
def operators : Text :=
  "SELECT a AND b, c DIV d FROM t".toList

/-- The item of the conjunction. -/
def conjunction : SelectItem :=
  ⟨[plainWord "a", .spacing .space] ++ plainWord "AND" :: ([.spacing .space] ++ [plainWord "b"])⟩

/-- The item of the division. -/
def division : SelectItem :=
  ⟨[plainWord "c", .spacing .space] ++ plainWord "DIV" :: ([.spacing .space] ++ [plainWord "d"])⟩

private theorem operators_list :
    SelectList.ofTokens? (Statement.first operators) = some (.several conjunction division []) := by
  decide +kernel

private theorem division_operator : Operator [plainWord "c", .spacing .space] ⟨none, "DIV".toList⟩ :=
  .single _ _ (by decide)

/-- Of these two items the conjunction has no column, and the division one that is named after its divisor. -/
theorem operand_after_two_operators :
    SelectList.ofTokens? (Statement.first operators) = some (.several conjunction division []) ∧
      Unnamed (Tables.ofSql operators) conjunction ∧
      Aliased (Tables.ofSql operators) division
        ([plainWord "c", .spacing .space] ++ plainWord "DIV" :: [.spacing .space]) ⟨none, "d".toList⟩ := by
  have afterAnd := operand_after_operator (Tables.ofSql operators) conjunction
    (.single _ ⟨none, "AND".toList⟩ (by decide)) rfl (by decide)
  have afterDiv := operand_after_operator (Tables.ofSql operators) division division_operator rfl (by decide)
  exact ⟨operators_list, afterAnd.1 (by decide), afterDiv.2.1 (by decide) (by decide)⟩

/-- So an operand after an operator can be taken for an alias. -/
theorem not_always_operand :
    ¬ ∀ (sql : Text) (list : SelectList) (item : SelectItem) (front gap : List Token) (last operand : Word),
      SelectList.ofTokens? (Statement.first sql) = some list → item ∈ list.items → Operator front last →
        item.tokens = front ++ .word last :: (gap ++ [.word operand]) →
        (∀ token ∈ gap, token.isSpacing = true) → operand.quote = none →
        Unnamed (Tables.ofSql sql) item := by
  intro always
  have unnamed := always operators _ division [plainWord "c", .spacing .space] [.spacing .space]
    ⟨none, "DIV".toList⟩ ⟨none, "d".toList⟩ operators_list (by simp [SelectList.items]) division_operator rfl
    (by decide) rfl
  exact absurd unnamed.unaliased (by decide)

end ColumnLineage.KeywordOperators
