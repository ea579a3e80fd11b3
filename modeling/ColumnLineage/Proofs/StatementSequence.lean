import ColumnLineage.Lineage.Extraction
import ColumnLineage.Proofs.TableMentions

/-! Texts of more than one statement. The columns are those of the first statement, which ends before the
first semicolon outside parentheses; the tables are those that the whole text mentions, and no mention
reaches over a semicolon. -/

namespace ColumnLineage.Lineage

/-- What a column says beside the tables of its query. -/
def Column.own (column : Column) : Text × Text × Text × Bool :=
  (column.name, column.sourceColumn, column.definition, column.transformed)

end ColumnLineage.Lineage

namespace ColumnLineage.StatementSequence
open Lineage (Column QueryLineage Tables columnsOfSql columnsOfTokens unknownTable)
open Sql
open Statement (firstFrom)
open TableMention (sourcePhrase sources target? targetPhrase)
open TableMentions (Apart words_append)

variable {tokens : List Token} {depth : Nat}

/-! ## The first statement -/

/-- The depth of parentheses after some tokens that start at `depth`. -/
def depthAfter (depth : Nat) (tokens : List Token) : Nat :=
  tokens.foldl Token.depthAfter depth

/-- Tokens that start at `depth` and are no more than one statement: their semicolons stand inside
parentheses, and at their end all parentheses are closed. -/
structure OneStatement (depth : Nat) (tokens : List Token) : Prop where
  inside : ∀ i < tokens.length, tokens[i]? = some (.symbol .semicolon) →
    depthAfter depth (tokens.take i) ≠ 0
  closed : depthAfter depth tokens = 0

theorem OneStatement.tail {token : Token} (single : OneStatement depth (token :: tokens)) :
    OneStatement (token.depthAfter depth) tokens where
  inside i bound semicolon := single.inside (i + 1) (Nat.succ_lt_succ bound) semicolon
  closed := single.closed

theorem OneStatement.head {token : Token} (single : OneStatement depth (token :: tokens)) :
    ¬ (depth = 0 ∧ token = .symbol .semicolon) := by
  rintro ⟨outside, rfl⟩
  exact single.inside 0 (Nat.succ_pos _) rfl outside

/-- The cut leaves one statement as it is. -/
theorem firstFrom_of_single (single : OneStatement depth tokens) : firstFrom depth tokens = tokens := by
  induction tokens generalizing depth with
  | nil => rfl
  | cons token tokens ih => rw [firstFrom, if_neg single.head, ih single.tail]

/-- The cut takes one statement off a sequence. -/
theorem firstFrom_append (single : OneStatement depth tokens) (others : List Token) :
    firstFrom depth (tokens ++ .symbol .semicolon :: others) = tokens := by
  induction tokens generalizing depth with
  | nil =>
    obtain rfl : depth = 0 := single.closed
    rfl
  | cons token tokens ih => rw [List.cons_append, firstFrom, if_neg single.head, ih single.tail]

/-! ## Columns and tables -/

private theorem own_of_ofItem? (tables others : Tables) (item : SelectItem) :
    (Column.ofItem? tables item).map Column.own = (Column.ofItem? others item).map Column.own := by
  unfold Column.ofItem?
  cases item.name? <;> rfl

/-- The tables of a query are not looked at by what its columns say beside them. -/
theorem own_of_tables (tables others : Tables) (tokens : List Token) :
    (columnsOfTokens tables tokens).map Column.own = (columnsOfTokens others tokens).map Column.own := by
  unfold columnsOfTokens
  split
  · simp only [List.map_filterMap, own_of_ofItem? tables others]
  · rfl

private theorem semicolon_apart_source : Apart sourcePhrase ';' :=
  ⟨by decide +kernel, by decide +kernel, by decide +kernel⟩

private theorem semicolon_apart_target : Apart targetPhrase ';' :=
  ⟨by decide +kernel, by decide +kernel, by decide +kernel⟩

theorem sources_append (a b : Text) : sources (a ++ ';' :: b) = sources a ++ sources b :=
  words_append (by decide) semicolon_apart_source a b

theorem target?_append (a b : Text) : target? (a ++ ';' :: b) = (target? a <|> target? b) := by
  unfold target?
  rw [words_append (by decide) semicolon_apart_target, List.head?_append]
  cases (TableMention.words targetPhrase a).head? <;> rfl

/-- The lineage of a text of two parts, where the tokens of the text are those of its parts with a semicolon
between them and the first part is one statement. The columns are those of the first part, whatever the
second is; the sources are those of both parts, in their order, and the target is the first table that is
created, or else the first source. -/
theorem lineage_of_sequence {a b : Text}
    (parted : Statement.tokens (a ++ ';' :: b) =
      Statement.tokens a ++ .symbol .semicolon :: Statement.tokens b)
    (single : OneStatement 0 (Statement.tokens a)) :
    let both := QueryLineage.ofSql (a ++ ';' :: b)
    both.columns = columnsOfSql both.tables a ∧
      both.columns.map Column.own = (QueryLineage.ofSql a).columns.map Column.own ∧
      both.tables.sources = sources a ++ sources b ∧
      both.tables.target = (target? a <|> target? b <|> (sources a).head? <|> (sources b).head?).getD
        unknownTable := by
  intro both
  have first : Statement.first (a ++ ';' :: b) = Statement.first a := by
    rw [Statement.first, Statement.first, parted, firstFrom_append single, firstFrom_of_single single]
  have walked : both.columns = columnsOfSql both.tables a := by
    change columnsOfTokens _ (Statement.first (a ++ ';' :: b)) = columnsOfTokens _ (Statement.first a)
    rw [first]
    rfl
  have read : both.tables.sources = sources a ++ sources b := sources_append a b
  refine ⟨walked, ?_, read, ?_⟩
  · rw [walked]
    exact own_of_tables _ _ _
  · change ((target? (a ++ ';' :: b) <|> (sources (a ++ ';' :: b)).head?).getD unknownTable) = _
    rw [target?_append, sources_append, List.head?_append]
    cases target? a <;> cases target? b <;> cases (sources a).head? <;> rfl

private def inParentheses : Text := ") SELECT f(x; ';') AS c FROM (t)".toList

private def following : Text := "CREATE TABLE u AS SELECT d FROM v".toList

/-- Semicolons inside parentheses and constants end no statement, and neither does a parenthesis too many. -/
theorem lineage_of_nested_semicolons :
    Statement.tokens (inParentheses ++ ';' :: following) =
        Statement.tokens inParentheses ++ .symbol .semicolon :: Statement.tokens following ∧
      OneStatement 0 (Statement.tokens inParentheses) ∧
      (QueryLineage.ofSql (inParentheses ++ ';' :: following)).columns =
        columnsOfSql ⟨"u".toList, ["v".toList]⟩ inParentheses := by
  have parted : Statement.tokens (inParentheses ++ ';' :: following) =
      Statement.tokens inParentheses ++ .symbol .semicolon :: Statement.tokens following := by decide +kernel
  have single : OneStatement 0 (Statement.tokens inParentheses) := ⟨by decide +kernel, by decide +kernel⟩
  refine ⟨parted, single, ?_⟩
  rw [(lineage_of_sequence parted single).1]
  congr 1
  decide +kernel

end ColumnLineage.StatementSequence
