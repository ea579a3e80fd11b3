import ColumnLineage.Sql.Token.Basic
import ColumnLineage.Text.Blank

/-!
Items of a select list. An item is a run of tokens without separators at its ends. Its name is its
alias or, where it is nothing but a reference, the last part of that reference.
-/

namespace ColumnLineage.Sql

/-- The words that end a select list where they stand outside parentheses: `CLAUSE_KEYWORDS`. -/
def clauseWords : List String :=
  ["FROM", "WHERE", "GROUP", "HAVING", "ORDER", "LIMIT", "OFFSET", "FETCH", "UNION", "EXCEPT",
   "INTERSECT", "INTO", "WINDOW", "QUALIFY"]

/-- The words of expressions, which neither are an alias without `AS` nor stand before one:
`NON_ALIAS_KEYWORDS`. -/
def expressionWords : List String :=
  ["AS", "AND", "OR", "NOT", "NULL", "TRUE", "FALSE", "IS", "IN", "LIKE", "ILIKE", "BETWEEN",
   "CASE", "WHEN", "THEN", "ELSE", "END", "DISTINCT"]

/-- Whether a word can be an alias without `AS`: `can_be_alias`. -/
def Word.canBeAlias (w : Word) : Bool :=
  !w.isAnyOf expressionWords && !w.isAnyOf clauseWords

namespace Token

/-- Whether an alias without `AS` can follow a token: `can_precede_alias`. -/
def canPrecedeAlias : Token → Bool
  | word w => !w.isAnyOf expressionWords
  | symbol .closeParen | number _ _ | literal .plain _ => true
  | _ => false

/-- The tokens that are not separators. -/
def significant (tokens : List Token) : List Token :=
  tokens.filter (!·.isSpacing)

/-- The tokens without separators at their ends. -/
def trimSpacing (tokens : List Token) : List Token :=
  ((tokens.dropWhile isSpacing).reverse.dropWhile isSpacing).reverse

/-- The last word of a reference: one word, or several with a period between two neighbours. It is
there where `is_dotted_reference` holds. -/
def referredWord? : List Token → Option Word
  | [word w] => some w
  | word _ :: symbol .period :: rest => referredWord? rest
  | _ => none

end Token

/-- One item of a select list: `SelectItem`. -/
structure SelectItem where
  tokens : List Token
  deriving DecidableEq

namespace SelectItem

/-- The item that a segment of a select list holds, if it holds more than separators:
`SelectItem::new`. -/
def ofSegment? (segment : List Token) : Option SelectItem :=
  match Token.trimSpacing segment with
  | [] => none
  | tokens => some ⟨tokens⟩

/-- The tokens that are not separators. -/
def significant (item : SelectItem) : List Token :=
  Token.significant item.tokens

/-- The text of an item: `SelectItem::text`. -/
def text (item : SelectItem) : Text :=
  Text.trim (Token.renderAll item.tokens)

/-- The tokens of the expression and the alias, where an item has one: its last word after `AS` and
an expression, or after a token that can end an operand. This is `SelectItem::split_alias`, which
gives the number of the tokens in place of them. -/
def splitAlias? (item : SelectItem) : Option (List Token × Word) :=
  match item.tokens.reverse with
  | .word last :: before =>
    match before.dropWhile Token.isSpacing with
    | [] => none
    | previous :: earlier =>
      if previous.isAnyOf ["AS"] && earlier.any (!·.isSpacing) then some (earlier.reverse, last)
      else if last.canBeAlias && previous.canPrecedeAlias then some (before.reverse, last)
      else none
  | _ => none

/-- The alias of an item: `SelectItem::alias`. -/
def alias? (item : SelectItem) : Option Text :=
  item.splitAlias?.map fun (_, last) => last.value

/-- The column that an item refers to, where it is nothing but a reference:
`SelectItem::real_name`. -/
def referredName? (item : SelectItem) : Option Text :=
  (Token.referredWord? item.significant).map Word.value

/-- The name of the column that an item selects, as `SelectItem::name` tells it: its alias, or else
the column it refers to. -/
def name? (item : SelectItem) : Option Text :=
  item.alias? <|> item.referredName?

/-- The tokens of the expression, which are all tokens where there is no alias. -/
def expression (item : SelectItem) : List Token :=
  match item.splitAlias? with
  | some (tokens, _) => tokens
  | none => item.tokens

/-- The text of the expression without the alias: `SelectItem::expression_text`. -/
def expressionText (item : SelectItem) : Text :=
  Text.trim (Token.renderAll item.expression)

/-- What an item reads from, as `SelectItem::leading_text` tells it: the first part of a reference
with periods, or else the whole expression. -/
def leadingText (item : SelectItem) : Text :=
  let tokens := Token.significant item.expression
  match tokens with
  | first :: _ :: _ =>
    if (Token.referredWord? tokens).isSome then first.render else item.expressionText
  | _ => item.expressionText

/-- Whether an item stands for all columns, of every table or of one: `SelectItem::is_wildcard`. -/
def isWildcard (item : SelectItem) : Bool :=
  item.significant.getLast? == some (.symbol .star)

end SelectItem

end ColumnLineage.Sql
