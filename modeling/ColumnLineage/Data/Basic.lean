import ColumnLineage.Text.Basic
import ColumnLineage.Decimal.Binary64

/-!
Structured data as the text formats hold it, and how typed values are taken from it. Taking a record
apart names its fields once: a member that is named twice, a list of the wrong length and a value of
another kind have no fields, and members with other names are passed over.
-/

namespace ColumnLineage

open Decimal (Binary64)

/-- A piece of structured data. What is written correctly and yet denotes no value is `unreadable`:
it may be passed over but not used. -/
inductive Data where
  | null
  | bool (b : Bool)
  | integer (n : Int)
  | float (x : Binary64)
  | text (s : Text)
  | list (items : List Data)
  | record (members : List (Text × Data))
  | unreadable

namespace Data

/-- The text that data hold. -/
def text? : Data → Option Text
  | text s => some s
  | _ => none

/-- The truth value that data hold. -/
def bool? : Data → Option Bool
  | bool b => some b
  | _ => none

/-- The natural number below a bound that data hold. -/
def natBelow? (bound : Nat) : Data → Option Nat
  | integer n => if 0 ≤ n ∧ n < bound then some n.toNat else none
  | _ => none

/-- The floating-point number that data hold, which an integer stands for too. -/
def binary64? : Data → Option Binary64
  | float x => some x
  | integer n => some (.ofInt n)
  | _ => none

/-- What data hold, where null stands for nothing. -/
def nullable? (value? : Data → Option α) : Data → Option (Option α)
  | null => some none
  | d => (value? d).map some

/-- The items of a list, each taken in the same way. -/
def listOf? (value? : Data → Option α) : Data → Option (List α)
  | list items => items.mapM value?
  | _ => none

/-- The values of all members with a name. -/
def membersNamed (name : Text) (members : List (Text × Data)) : List Data :=
  (members.filter (·.1 = name)).map (·.2)

/-- The value of the member with a name, if there is one; nothing at all if there are several. -/
def member? (members : List (Text × Data)) (name : Text) : Option (Option Data) :=
  match membersNamed name members with
  | [] => some none
  | [d] => some (some d)
  | _ => none

/-- The values of the named fields, in the order of the names. A list gives them by position, if its
length is allowed. -/
def fields? (names : List Text) (allowed : Nat → Bool) : Data → Option (List (Option Data))
  | record members => names.mapM (member? members)
  | list items =>
    if allowed items.length then some ((List.range names.length).map (items[·]?)) else none
  | _ => none

/-- The value of a field that has to be there. -/
def required? (value? : Data → Option α) : Option Data → Option α
  | some d => value? d
  | none => none

/-- The value of a field that may be left out. -/
def default? (absent : α) (value? : Data → Option α) : Option Data → Option α
  | some d => value? d
  | none => some absent

end Data

end ColumnLineage
