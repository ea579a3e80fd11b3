import ColumnLineage.Sql.Token.Symbol
import ColumnLineage.Text.Case

/-!
Tokens of SQL text and how they are rendered. A quoted token keeps its decoded value, and its
rendering puts the quotes back without doubling those inside, so rendering need not restore the
text that was read.
-/

namespace ColumnLineage.Sql

/-- What separates tokens: white space and comments. A comment keeps its text between the marks,
a line comment with the line end if there is one. -/
inductive Spacing where
  | space
  | tab
  | newline
  | lineComment (text : Text)
  | blockComment (text : Text)
  deriving DecidableEq

/-- The kinds of quoted constants. -/
inductive Literal where
  | plain
  | national
  | hexadecimal
  | escaped
  | unicode
  | byteSingle
  | byteDouble
  | rawSingle
  | rawDouble
  | rawTripleSingle
  | rawTripleDouble
  deriving DecidableEq

/-- The marks that can quote a word. -/
inductive QuoteMark where
  | double
  | back
  deriving DecidableEq

/-- The character of a quote mark. -/
def QuoteMark.char : QuoteMark → Char
  | .double => '"'
  | .back => '\x60'

/-- A name or keyword, quoted or not. -/
structure Word where
  quote : Option QuoteMark
  value : Text
  deriving DecidableEq

/-- One token. -/
inductive Token where
  | spacing (gap : Spacing)
  | word (word : Word)
  | number (digits : Text) (long : Bool)
  | literal (kind : Literal) (value : Text)
  | dollarQuoted (tag : Text) (value : Text)
  | placeholder (text : Text)
  | symbol (symbol : Symbol)
  | other (char : Char)
  deriving DecidableEq

namespace Spacing

/-- How a separator is written. -/
def render : Spacing → Text
  | space => [' ']
  | tab => ['\t']
  | newline => ['\n']
  | lineComment text => '-' :: '-' :: text
  | blockComment text => '/' :: '*' :: text ++ ['*', '/']

end Spacing

namespace Literal

/-- What opens a constant. -/
def opening : Literal → String
  | plain => "'"
  | national => "N'"
  | hexadecimal => "X'"
  | escaped => "E'"
  | unicode => "U&'"
  | byteSingle => "B'"
  | byteDouble => "B\""
  | rawSingle => "R'"
  | rawDouble => "R\""
  | rawTripleSingle => "R'''"
  | rawTripleDouble => "R\"\"\""

/-- What closes a constant. -/
def closing : Literal → String
  | byteDouble | rawDouble => "\""
  | rawTripleSingle => "'''"
  | rawTripleDouble => "\"\"\""
  | _ => "'"

end Literal

namespace Word

/-- A word as it is written: its value, between its quotes if it has any. -/
def render (w : Word) : Text :=
  match w.quote with
  | none => w.value
  | some mark => mark.char :: w.value ++ [mark.char]

/-- Whether a word stands without quotes and is spelled, up to case, as one of some keywords. The
keywords are given in capitals. -/
def isAnyOf (w : Word) (keywords : List String) : Bool :=
  w.quote.isNone && (keywords.map String.toList).contains (Text.toCapitals w.value)

end Word

namespace Token

/-- A token as it is written. -/
def render : Token → Text
  | spacing gap => gap.render
  | word w => w.render
  | number digits long => if long then digits ++ ['L'] else digits
  | literal kind value => kind.opening.toList ++ value ++ kind.closing.toList
  | dollarQuoted tag value => '$' :: tag ++ '$' :: value ++ '$' :: tag ++ ['$']
  | placeholder text => text
  | symbol s => s.spelling.toList
  | other c => [c]

/-- Tokens written one after another: `render`. -/
def renderAll (tokens : List Token) : Text :=
  tokens.flatMap render

/-- Whether a token only separates others: `is_whitespace`. -/
def isSpacing : Token → Bool
  | spacing _ => true
  | _ => false

/-- Whether a token is a word without quotes that spells one of some keywords: `is_keyword`, which
has one keyword. -/
def isAnyOf (token : Token) (keywords : List String) : Bool :=
  match token with
  | word w => w.isAnyOf keywords
  | _ => false

@[simp] theorem renderAll_nil : renderAll [] = [] := rfl

@[simp] theorem renderAll_cons (token : Token) (tokens : List Token) :
    renderAll (token :: tokens) = token.render ++ renderAll tokens := rfl

@[simp] theorem renderAll_append (first second : List Token) :
    renderAll (first ++ second) = renderAll first ++ renderAll second := by
  simp [renderAll]

end Token

end ColumnLineage.Sql
