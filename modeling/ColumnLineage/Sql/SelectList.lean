import ColumnLineage.Sql.SelectItem
import ColumnLineage.Sql.Statement

/-!
The select list of a statement: the items after the first `SELECT` outside parentheses, or after
the first one anywhere if all are nested. Commas outside parentheses part the items; a clause word
or a closing parenthesis ends the list.
-/

namespace ColumnLineage.Sql

/-- The words that can stand between `SELECT` and its list: `SELECT_MODIFIERS`. -/
def quantifierWords : List String := ["DISTINCT", "ALL"]

/-- The items of a select list, at least one: `ColumnSection`. -/
inductive SelectList where
  | single (item : SelectItem)
  | several (first second : SelectItem) (others : List SelectItem)
  deriving DecidableEq

namespace SelectList

/-- The items in order: `ColumnSection::items`. -/
def items : SelectList → List SelectItem
  | single item => [item]
  | several first second others => first :: second :: others

/-- The select list with some items, if there are any: `ColumnSection::from_items`. -/
def ofItems? : List SelectItem → Option SelectList
  | [] => none
  | [item] => some (single item)
  | first :: second :: others => some (several first second others)

/-- What follows the first `SELECT` outside parentheses, of tokens that start at `depth`. -/
def afterOuterSelect? : Nat → List Token → Option (List Token)
  | _, [] => none
  | depth, token :: rest =>
    if depth = 0 ∧ token.isAnyOf ["SELECT"] = true then some rest
    else afterOuterSelect? (token.depthAfter depth) rest

/-- What follows the first `SELECT`. -/
def afterAnySelect? : List Token → Option (List Token)
  | [] => none
  | token :: rest => if token.isAnyOf ["SELECT"] then some rest else afterAnySelect? rest

/-- What follows the `SELECT` whose list is taken, which `select_position` finds. -/
def afterSelect? (tokens : List Token) : Option (List Token) :=
  afterOuterSelect? 0 tokens <|> afterAnySelect? tokens

/-- What follows the separators and quantifiers at the start. The separators that `skip_modifiers`
leaves after the last quantifier are trimmed off the first item. -/
def afterQuantifiers (tokens : List Token) : List Token :=
  tokens.dropWhile fun token => token.isSpacing || token.isAnyOf quantifierWords

/-- The tokens before the end of the list, of tokens that start at `depth`. -/
def regionFrom : Nat → List Token → List Token
  | _, [] => []
  | depth, token :: rest =>
    if depth = 0 ∧ (token = .symbol .closeParen ∨ token.isAnyOf clauseWords = true) then []
    else token :: regionFrom (token.depthAfter depth) rest

/-- The runs of tokens between commas outside parentheses, of tokens that start at `depth`. -/
def segmentsFrom : Nat → List Token → List (List Token)
  | _, [] => [[]]
  | depth, token :: rest =>
    if depth = 0 ∧ token = .symbol .comma then [] :: segmentsFrom depth rest
    else
      match segmentsFrom (token.depthAfter depth) rest with
      | [] => [[token]]
      | segment :: others => (token :: segment) :: others

/-- The items of the list that stands at the start of some tokens. -/
def itemsAtStart (tokens : List Token) : List SelectItem :=
  (segmentsFrom 0 (regionFrom 0 (afterQuantifiers tokens))).filterMap SelectItem.ofSegment?

/-- The select list of a statement: `ColumnExtractor::column_section`, whose one loop ends the list
and parts it at once. -/
def ofTokens? (tokens : List Token) : Option SelectList :=
  match afterSelect? tokens with
  | some rest => ofItems? (itemsAtStart rest)
  | none => none

theorem items_of_ofItems? {items : List SelectItem} {list : SelectList}
    (h : ofItems? items = some list) : list.items = items := by
  unfold ofItems? at h
  split at h
  · simp at h
  · obtain rfl := Option.some.inj h
    rfl
  · obtain rfl := Option.some.inj h
    rfl

end SelectList

end ColumnLineage.Sql
