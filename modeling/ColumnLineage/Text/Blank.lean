import ColumnLineage.Text.Basic
import ColumnLineage.Text.CodePoint

/-!
Blank characters are those with the Unicode property White_Space. Trimming takes them from both
ends of a text; what is left neither starts nor ends with one.
-/

namespace ColumnLineage

/-- The code points with the property White_Space. -/
def CodePoint.blank : CodePoint.Ranges :=
  [(0x9, 0xD), (0x20, 0x20), (0x85, 0x85), (0xA0, 0xA0), (0x1680, 0x1680), (0x2000, 0x200A),
   (0x2028, 0x2029), (0x202F, 0x202F), (0x205F, 0x205F), (0x3000, 0x3000)]

theorem CodePoint.blank_rises : CodePoint.blank.risesFrom 0 = true := by
  decide +kernel

/-- Whether a character is blank. -/
def isBlank (c : Char) : Bool :=
  CodePoint.blank.has c.toNat

namespace Text

/-- The text from its first character that is not blank. -/
def trimStart (s : Text) : Text :=
  s.dropWhile isBlank

/-- The text up to its last character that is not blank. -/
def trimEnd (s : Text) : Text :=
  (s.reverse.dropWhile isBlank).reverse

/-- The text without blanks at its ends. -/
def trim (s : Text) : Text :=
  trimEnd (trimStart s)

@[simp] theorem trim_nil : trim [] = [] := rfl

theorem trimStart_suffix (s : Text) : trimStart s <:+ s :=
  List.dropWhile_suffix _

theorem trimEnd_isPrefix (s : Text) : trimEnd s <+: s := by
  have h : s.reverse.dropWhile isBlank <:+ s.reverse := List.dropWhile_suffix _
  simpa [trimEnd] using List.reverse_prefix.2 h

theorem trim_infix (s : Text) : trim s <:+: s :=
  (trimEnd_isPrefix _).isInfix.trans (trimStart_suffix s).isInfix

end Text

end ColumnLineage
