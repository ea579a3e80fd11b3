import ColumnLineage.Sql.Token.Reading

/-!
Statements. Parentheses nest, and a closing one too many is disregarded; the first statement ends
before the first semicolon outside of them. A text that cannot be read has no tokens.
-/

namespace ColumnLineage.Sql

/-- The depth of parentheses after a token that stands at `depth`. -/
def Token.depthAfter (depth : Nat) : Token → Nat
  | .symbol .openParen => depth + 1
  | .symbol .closeParen => depth - 1
  | _ => depth

namespace Statement

/-- The tokens of a text, none where it cannot be read to its end: `SqlTokenizer::tokenize`. -/
def tokens (sql : Text) : List Token :=
  (Token.readAll? sql).getD []

/-- The tokens before the first semicolon outside parentheses, of tokens that start at `depth`. -/
def firstFrom : Nat → List Token → List Token
  | _, [] => []
  | depth, token :: rest =>
    if depth = 0 ∧ token = .symbol .semicolon then []
    else token :: firstFrom (token.depthAfter depth) rest

/-- The tokens of the first statement of a text: `SqlTokenizer::tokenize_first_statement`. -/
def first (sql : Text) : List Token :=
  firstFrom 0 (tokens sql)

theorem firstFrom_isPrefix (depth : Nat) (tokens : List Token) :
    firstFrom depth tokens <+: tokens := by
  fun_induction firstFrom depth tokens <;> simp_all

end Statement

end ColumnLineage.Sql
