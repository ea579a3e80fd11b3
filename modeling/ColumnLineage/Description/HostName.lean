import ColumnLineage.Text.Blank
import ColumnLineage.Text.Digit

/-!
Names of hosts beyond ASCII. Which characters such a name may hold and which of them mean the same is
known from tables of all characters, which are not part of this project: what is made of these names
is a parameter, `Names`, and nothing is proved of one reading of them alone. In a run `Names.untabled`
stands in for it. That reading knows how a label spells characters in ASCII, which is Punycode, and
refuses what no table allows.
-/

namespace ColumnLineage.Description

/-- What `domain_to_ascii` makes of a name that is more than plain ASCII: the name in ASCII, or
nothing where there is no such name. -/
abbrev Names := Text → Option Text

namespace Punycode

/-- What has been read of the code of a label: the characters, the code point that was inserted last
and the place after it, and of the number that is being read its value, the weight of its next digit
and how many digits it has. The bias tells which digits end a number. -/
structure State where
  characters : Text
  code : Nat
  place : Nat
  bias : Nat
  value : Nat
  weight : Nat
  digits : Nat

/-- Before the first digit, with the characters that stand for themselves. -/
def State.initial (characters : Text) : State :=
  ⟨characters, 128, 0, 72, 0, 1, 0⟩

/-- The value of a digit: letters come before figures. -/
def digit? (c : Char) : Option Nat :=
  (digitValue? c).map fun d => if d < 10 then d + 26 else d - 10

/-- The least value of a digit that does not end its number. -/
def threshold (bias digits : Nat) : Nat :=
  min (max (36 * (digits + 1) - bias) 1) 26

/-- The bias for numbers that are about as large as `delta`. -/
def settledBias (rounds delta : Nat) : Nat :=
  if 455 < delta then settledBias (rounds + 36) (delta / 35)
  else rounds + 36 * delta / (delta + 38)
termination_by delta
decreasing_by exact Nat.div_lt_self (by omega) (by omega)

/-- The bias after a number, when there are `count` characters. -/
def nextBias (first : Bool) (number count : Nat) : Nat :=
  let delta := if first then number / 700 else number / 2
  settledBias 0 (delta + delta / count)

/-- Reads one digit. One that ends its number inserts a character. -/
def State.next? (state : State) (c : Char) : Option State := do
  let d ← digit? c
  let value := state.value + d * state.weight
  let least := threshold state.bias state.digits
  if d < least then
    let count := state.characters.length + 1
    let code := state.code + (state.place + value) / count
    let place := (state.place + value) % count
    return {
      characters := state.characters.insertIdx place (← scalar? code)
      code := code
      place := place + 1
      bias := nextBias (state.place = 0) value count
      value := 0
      weight := 1
      digits := 0 }
  else
    return { state with
      value := value
      weight := state.weight * (36 - least)
      digits := state.digits + 1 }

/-- The characters that a text spells in ASCII. Those before its last hyphen stand for
themselves. -/
def decode? (s : Text) : Option Text := do
  let code := (s.reverse.takeWhile (· ≠ '-')).reverse
  let basic := (s.take (s.length - code.length)).dropLast
  let code := if basic.isEmpty then s else code
  let final ← code.foldlM State.next? (State.initial basic)
  if final.digits = 0 then return final.characters else none

end Punycode

namespace Names

/-- What a label begins with that spells its characters in ASCII. -/
def codeMark : Text := "xn--".toList

/-- Whether a name is plain: it is ASCII, and none of its labels spells other characters. -/
def isPlain (name : Text) : Bool :=
  name.all (·.toNat < 128) &&
    ((name.map Char.toLower).splitOn '.').all fun label => (Text.after? codeMark label).isNone

/-- Whether no table of characters allows a character in a name. -/
def isExcluded (c : Char) : Bool :=
  c.toNat < 32 || (127 ≤ c.toNat && c.toNat < 160) || isBlank c || c = '\uFFFD'

/-- Whether a label can be part of a name, as far as can be told without tables. -/
def isLabel (label : Text) : Bool :=
  match Text.after? codeMark label with
  | none => !label.any isExcluded
  | some code =>
    (Punycode.decode? code).any fun characters =>
      !characters.any isExcluded && characters.any (128 ≤ ·.toNat)

/-- A reading of names without tables: each name is its own form in ASCII. -/
def untabled : Names := fun name =>
  let name := name.map Char.toLower
  if (name.splitOn '.').all isLabel then some name else none

end Names

end ColumnLineage.Description
