import ColumnLineage.Text.Basic

/-!
Text in bytes. UTF-8 gives each character one to four bytes; strict reading refuses bytes that are
no such text, lenient reading puts the replacement character in place of every longest run that
could have begun a character. A mark at the start of some bytes may say that they are UTF-8 or
UTF-16.
-/

namespace ColumnLineage

/-- A sequence of bytes. -/
abbrev Bytes := List UInt8

namespace Utf8

/-- What has been read of a character that takes several bytes: its bits so far, how many bytes are
missing, and between which bounds the next one has to be. -/
structure Pending where
  bits : Nat
  missing : Nat
  least : Nat
  most : Nat

/-- What a first byte of several begins. -/
def begin? (b : Nat) : Option Pending :=
  if 0xC2 ≤ b ∧ b ≤ 0xDF then some ⟨b - 0xC0, 1, 0x80, 0xBF⟩
  else if b = 0xE0 then some ⟨0, 2, 0xA0, 0xBF⟩
  else if b = 0xED then some ⟨0xD, 2, 0x80, 0x9F⟩
  else if 0xE1 ≤ b ∧ b ≤ 0xEF then some ⟨b - 0xE0, 2, 0x80, 0xBF⟩
  else if b = 0xF0 then some ⟨0, 3, 0x90, 0xBF⟩
  else if 0xF1 ≤ b ∧ b ≤ 0xF3 then some ⟨b - 0xF0, 3, 0x80, 0xBF⟩
  else if b = 0xF4 then some ⟨4, 3, 0x80, 0x8F⟩
  else none

/-- The character that goes on with some bytes, if they fit, and the bytes after it or after those
that fit. -/
def complete (pending : Pending) : Bytes → Option Char × Bytes
  | [] => (none, [])
  | b :: rest =>
    if pending.least ≤ b.toNat ∧ b.toNat ≤ pending.most then
      let bits := pending.bits * 64 + b.toNat % 64
      match pending.missing with
      | 0 => (none, b :: rest)
      | 1 => (some (Char.ofNat bits), rest)
      | missing + 1 => complete ⟨bits, missing, 0x80, 0xBF⟩ rest
    else (none, b :: rest)

/-- The character at the start of some bytes, none where they begin none, and the bytes after it or
after the longest run that could have begun one. -/
def step (b : UInt8) (rest : Bytes) : Option Char × Bytes :=
  if b.toNat < 0x80 then (some (Char.ofNat b.toNat), rest)
  else
    match begin? b.toNat with
    | some pending => complete pending rest
    | none => (none, rest)

theorem complete_length_le (pending : Pending) (bytes : Bytes) :
    (complete pending bytes).2.length ≤ bytes.length := by
  fun_induction complete pending bytes <;> simp_all
  omega

theorem step_length_le (b : UInt8) (rest : Bytes) : (step b rest).2.length ≤ rest.length := by
  unfold step
  split
  · simp
  · split
    · exact complete_length_le _ _
    · simp

/-- The characters of some bytes, none for each run that is no character. -/
def characters : Bytes → List (Option Char)
  | [] => []
  | b :: rest => (step b rest).1 :: characters (step b rest).2
termination_by bytes => bytes.length
decreasing_by
  have := step_length_le b rest
  simp only [List.length_cons]; omega

/-- The text of some bytes, if all of them are UTF-8. -/
def decode? (bytes : Bytes) : Option Text :=
  (characters bytes).mapM id

/-- The character in place of bytes that are no text. -/
def replacement : Char := '\uFFFD'

/-- The text of some bytes with replacements. -/
def decodeLenient (bytes : Bytes) : Text :=
  (characters bytes).map (·.getD replacement)

/-- The bytes of a text. -/
def encode (s : Text) : Bytes :=
  s.flatMap String.utf8EncodeChar

end Utf8

namespace Utf16

/-- The units of sixteen bits that some bytes make, most significant byte first if `big`, and
whether a byte is left over. -/
def units (big : Bool) : Bytes → List Nat × Bool
  | [] => ([], false)
  | [_] => ([], true)
  | a :: b :: rest =>
    let (us, left) := units big rest
    ((if big then a.toNat * 256 + b.toNat else b.toNat * 256 + a.toNat) :: us, left)

/-- The text of some units with replacements. A half of a pair that ends the text together with a
byte left over takes one replacement. -/
def decodeUnits (left : Bool) : List Nat → Text
  | [] => if left then [Utf8.replacement] else []
  | [u] =>
    if 0xD800 ≤ u ∧ u < 0xDC00 then [Utf8.replacement]
    else (scalarOf u) :: if left then [Utf8.replacement] else []
  | u :: v :: rest =>
    if 0xD800 ≤ u ∧ u < 0xDC00 then
      if 0xDC00 ≤ v ∧ v < 0xE000 then
        Char.ofNat (0x10000 + (u - 0xD800) * 0x400 + (v - 0xDC00)) :: decodeUnits left rest
      else Utf8.replacement :: decodeUnits left (v :: rest)
    else scalarOf u :: decodeUnits left (v :: rest)
where
  /-- The character of a unit that is not the first half of a pair. -/
  scalarOf (u : Nat) : Char :=
    if 0xDC00 ≤ u ∧ u < 0xE000 then Utf8.replacement else Char.ofNat u

/-- The text of some bytes with replacements. -/
def decodeLenient (big : Bool) (bytes : Bytes) : Text :=
  let (us, left) := units big bytes
  decodeUnits left us

end Utf16

/-- The text of some bytes with replacements: UTF-16 where they begin with its mark and UTF-8
elsewhere, without the mark. -/
def Bytes.decodeLenient : Bytes → Text
  | 0xEF :: 0xBB :: 0xBF :: rest => Utf8.decodeLenient rest
  | 0xFE :: 0xFF :: rest => Utf16.decodeLenient true rest
  | 0xFF :: 0xFE :: rest => Utf16.decodeLenient false rest
  | bytes => Utf8.decodeLenient bytes

end ColumnLineage
