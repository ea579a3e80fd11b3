import ColumnLineage.Proofs.KeywordSpelling
import ColumnLineage.Proofs.SelectedItems

/-! Aliases without `AS`. A word at the end of an item names the column if the token before it can end an
operand, but the tokens that are taken to end one are not all that do: constants other than plain ones,
closing brackets, and the words that stand for values or end a `CASE` are left out. An item with one of those
before its last word has no name, and no column is made of it. -/

namespace ColumnLineage.ImplicitAlias
open KeywordSpelling (isAnyOf_mono not_isAnyOf_of_apart)
open Sql
open Lineage (Column Tables)
open SelectedItems (plainWord significant_append significant_of_spacing)
open TextPieces (isWhite render_blank)

/-! ## Tokens that end an operand -/

/-- The tokens that are taken to end an operand. -/
inductive Recognized : Token → Prop where
  | name (word : Word) (free : word.isAnyOf expressionWords = false) : Recognized (.word word)
  | group : Recognized (.symbol .closeParen)
  | number (digits : Text) (long : Bool) : Recognized (.number digits long)
  | text (value : Text) : Recognized (.literal .plain value)

/-- The tokens that end an operand but are not taken to. -/
inductive Overlooked : Token → Prop where
  | index : Overlooked (.symbol .closeBracket)
  | constant (kind : Literal) (value : Text) (marked : kind ≠ .plain) : Overlooked (.literal kind value)
  | dollarQuoted (tag value : Text) : Overlooked (.dollarQuoted tag value)
  | keyword (word : Word) (named : word.isAnyOf ["NULL", "TRUE", "FALSE", "END"] = true) :
      Overlooked (.word word)

/-- The tokens that end an operand. -/
def EndsOperand (token : Token) : Prop :=
  Recognized token ∨ Overlooked token

/-- An item is read as an expression with an alias, and its column has the alias as its name. -/
structure Aliased (tables : Tables) (item : SelectItem) (expression : List Token) (word : Word) : Prop where
  named : item.alias? = some word.value
  text : item.expressionText = SelectItem.text ⟨expression⟩
  column : ∃ column, Column.ofItem? tables item = some column ∧ column.name = word.value

variable {tokens front gap : List Token} {last : Token} {word : Word} {item : SelectItem} {tables : Tables}

/-! ## The last two tokens of an item -/

theorem Recognized.facts (known : Recognized last) :
    last.isSpacing = false ∧ last.isAnyOf ["AS"] = false ∧ last.canPrecedeAlias = true := by
  cases known with
  | name word free =>
    have other : word.isAnyOf ["AS"] = false := by
      rw [← Bool.not_eq_true] at free ⊢
      exact mt (isAnyOf_mono (by decide)) free
    exact ⟨rfl, other, by simp [Token.canPrecedeAlias, free]⟩
  | _ => exact ⟨rfl, rfl, rfl⟩

theorem Overlooked.facts (missed : Overlooked last) :
    last.isSpacing = false ∧ last.isAnyOf ["AS"] = false ∧ last.canPrecedeAlias = false ∧
      last ≠ .symbol .period := by
  cases missed with
  | index => exact ⟨rfl, rfl, rfl, by decide⟩
  | constant kind value marked =>
    refine ⟨rfl, rfl, ?_, Token.noConfusion⟩
    cases kind with
    | plain => exact absurd rfl marked
    | _ => rfl
  | dollarQuoted => exact ⟨rfl, rfl, rfl, Token.noConfusion⟩
  | keyword word named =>
    have noAs : word.isAnyOf ["AS"] = false := not_isAnyOf_of_apart (by decide) named
    have taken : word.isAnyOf expressionWords = true := isAnyOf_mono (by decide) named
    exact ⟨rfl, noAs, by simp [Token.canPrecedeAlias, taken], Token.noConfusion⟩

/-- The alias of an item with at least two significant tokens is decided by the last two. -/
theorem splitAlias?_of_last (whole : item.tokens = front ++ last :: (gap ++ [.word word]))
    (spacing : ∀ token ∈ gap, token.isSpacing = true) (solid : last.isSpacing = false) :
    item.splitAlias? =
      if last.isAnyOf ["AS"] && front.any (!·.isSpacing) then some (front, word)
      else if word.canBeAlias && last.canPrecedeAlias then some (front ++ last :: gap, word)
      else none := by
  have reversed : item.tokens.reverse = .word word :: (gap.reverse ++ last :: front.reverse) := by
    simp [whole]
  have kept : (gap.reverse ++ last :: front.reverse).dropWhile Token.isSpacing = last :: front.reverse := by
    rw [List.dropWhile_append_of_pos fun token member => spacing token (List.mem_reverse.1 member),
      List.dropWhile_cons_of_neg (by simp [solid])]
  simp only [SelectItem.splitAlias?, reversed, kept, List.any_reverse, List.reverse_append,
    List.reverse_cons, List.reverse_reverse, List.append_assoc, List.singleton_append]

/-- A reference is a single word or ends in a period and a word. -/
theorem referredWord?_split (found : Token.referredWord? tokens = some word) :
    tokens = [.word word] ∨ ∃ front, tokens = front ++ [.symbol .period, .word word] := by
  fun_induction Token.referredWord? tokens with
  | case1 first =>
    obtain rfl := Option.some.inj found
    exact .inl rfl
  | case2 first rest ih =>
    rcases ih found with rfl | ⟨front, rfl⟩
    · exact .inr ⟨[.word first], rfl⟩
    · exact .inr ⟨.word first :: .symbol .period :: front, rfl⟩
  | case3 => cases found

/-- An item that ends in a word after something else than a period is no reference. -/
theorem referredName?_of_last (whole : item.tokens = front ++ last :: (gap ++ [.word word]))
    (spacing : ∀ token ∈ gap, token.isSpacing = true) (solid : last.isSpacing = false)
    (noPeriod : last ≠ .symbol .period) : item.referredName? = none := by
  have significant : item.significant = Token.significant front ++ [last, .word word] := by
    have ends : Token.significant (last :: (gap ++ [.word word])) = [last, .word word] := by
      rw [Token.significant, List.filter_cons_of_pos (by simp [solid])]
      change last :: Token.significant (gap ++ [.word word]) = _
      rw [significant_append, significant_of_spacing spacing]
      rfl
    rw [SelectItem.significant, whole, significant_append, ends]
  rw [SelectItem.referredName?, significant, Option.map_eq_none_iff, Option.eq_none_iff_forall_ne_some]
  intro found reference
  rcases referredWord?_split reference with single | ⟨before, dotted⟩
  · simpa using congrArg List.length single
  · have same := (List.append_inj' dotted rfl).2
    exact noPeriod (List.cons.inj same).1

/-! ## Aliases after operands -/

theorem aliased_of_splitAlias? {expression : List Token} (split : item.splitAlias? = some (expression, word)) :
    Aliased tables item expression word := by
  have named : item.alias? = some word.value := by rw [SelectItem.alias?, split]; rfl
  refine ⟨named, ?_, ?_⟩
  · rw [SelectItem.expressionText, SelectItem.expression, split]
    rfl
  · have name : item.name? = some word.value := by rw [SelectItem.name?, named]; rfl
    exact ⟨_, by rw [Column.ofItem?, name]; rfl, rfl⟩

/-- White space after an expression is not in its text. -/
theorem text_of_white (white : ∀ token ∈ gap, isWhite token = true) :
    SelectItem.text ⟨tokens ++ gap⟩ = SelectItem.text ⟨tokens⟩ := by
  have blank : ∀ c ∈ Token.renderAll gap, isBlank c = true := by
    intro c member
    obtain ⟨token, among, within⟩ := List.mem_flatMap.1 member
    exact render_blank (white token among) c within
  rw [SelectItem.text, Token.renderAll_append, Text.trim_append_blank _ blank, SelectItem.text]

/-- An operand with a word after it that is no keyword of expressions or clauses. If the end of the operand is
recognized, the word is the alias, what is before it is the expression, and a column has the alias as its
name. If it is overlooked, there is no alias and no column. -/
theorem alias_after_operand (tables : Tables) (item : SelectItem)
    (whole : item.tokens = front ++ last :: (gap ++ [.word word]))
    (spacing : ∀ token ∈ gap, token.isSpacing = true) (noOperator : word.isAnyOf expressionWords = false)
    (noClause : word.isAnyOf clauseWords = false) :
    (Recognized last →
      Aliased tables item (front ++ last :: gap) word ∧
      ((∀ token ∈ gap, isWhite token = true) → Aliased tables item (front ++ [last]) word)) ∧
    (Overlooked last → item.alias? = none ∧ Column.ofItem? tables item = none) := by
  have free : word.canBeAlias = true := by simp [Word.canBeAlias, noOperator, noClause]
  constructor
  · intro known
    obtain ⟨solid, noAs, before⟩ := known.facts
    have split : item.splitAlias? = some (front ++ last :: gap, word) := by
      rw [splitAlias?_of_last whole spacing solid, noAs, free, before]
      rfl
    have aliased : Aliased tables item (front ++ last :: gap) word := aliased_of_splitAlias? split
    refine ⟨aliased, fun white => ⟨aliased.named, ?_, aliased.column⟩⟩
    rw [aliased.text, List.append_cons, text_of_white white]
  · intro missed
    obtain ⟨solid, noAs, notBefore, noPeriod⟩ := missed.facts
    have unnamed : item.alias? = none := by
      rw [SelectItem.alias?, splitAlias?_of_last whole spacing solid, noAs, free, notBefore]
      rfl
    have noName : item.name? = none := by
      rw [SelectItem.name?, unnamed, referredName?_of_last whole spacing solid noPeriod]
      rfl
    exact ⟨unnamed, by rw [Column.ofItem?, noName]; rfl⟩

/-- A query of a call and of a `CASE`, each with an alias. -/
def totals : Text :=
  "SELECT count(id) n, CASE WHEN a THEN 1 ELSE 0 END label FROM t".toList

/-- The tokens of the call without its closing parenthesis. -/
def callFront : List Token :=
  [plainWord "count", .symbol .openParen, plainWord "id"]

/-- The tokens of the `CASE` without its `END`. -/
def caseFront : List Token :=
  [plainWord "CASE", .spacing .space, plainWord "WHEN", .spacing .space, plainWord "a", .spacing .space,
    plainWord "THEN", .spacing .space, .number ['1'] false, .spacing .space, plainWord "ELSE", .spacing .space,
    .number ['0'] false, .spacing .space]

/-- The item of the call. -/
def counted : SelectItem :=
  ⟨callFront ++ .symbol .closeParen :: ([.spacing .space] ++ [plainWord "n"])⟩

/-- The item of the `CASE`. -/
def labelled : SelectItem :=
  ⟨caseFront ++ plainWord "END" :: ([.spacing .space] ++ [plainWord "label"])⟩

private theorem totals_list :
    SelectList.ofTokens? (Statement.first totals) = some (.several counted labelled []) := by
  decide +kernel

private theorem end_overlooked : Overlooked (plainWord "END") :=
  .keyword _ (by decide)

/-- Of these two items the call has its alias, and of the `CASE` no column is made. -/
theorem alias_after_operand_of_totals :
    SelectList.ofTokens? (Statement.first totals) = some (.several counted labelled []) ∧
      Aliased (Tables.ofSql totals) counted (callFront ++ [.symbol .closeParen]) ⟨none, "n".toList⟩ ∧
      labelled.alias? = none ∧ Column.ofItem? (Tables.ofSql totals) labelled = none := by
  have afterCall := alias_after_operand (Tables.ofSql totals) counted rfl (by decide) (by decide) (by decide)
  have afterEnd := alias_after_operand (Tables.ofSql totals) labelled rfl (by decide) (by decide) (by decide)
  exact ⟨totals_list, (afterCall.1 .group).2 (by decide), afterEnd.2 end_overlooked⟩

/-- So an alias without `AS` after a whole operand need not be found. -/
theorem not_always_aliased :
    ¬ ∀ (sql : Text) (list : SelectList) (item : SelectItem) (front gap : List Token) (last : Token)
        (word : Word),
      SelectList.ofTokens? (Statement.first sql) = some list → item ∈ list.items →
        item.tokens = front ++ last :: (gap ++ [.word word]) → (∀ token ∈ gap, isWhite token = true) →
        EndsOperand last → word.quote = none → word.isAnyOf expressionWords = false →
        word.isAnyOf clauseWords = false → Aliased (Tables.ofSql sql) item (front ++ [last]) word := by
  intro always
  have aliased := always totals _ labelled caseFront [.spacing .space] (plainWord "END")
    ⟨none, "label".toList⟩ totals_list (by simp [SelectList.items]) rfl (by decide) (.inr end_overlooked) rfl
    (by decide) (by decide)
  exact absurd aliased.named (by decide)

end ColumnLineage.ImplicitAlias
