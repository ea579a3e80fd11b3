import ColumnLineage.Text.Utf8

/-! Texts in bytes and back. The bytes of a character are read as that character, whatever comes after them, so
the bytes of a text are read as the text. -/

namespace ColumnLineage.EncodedText
open Utf8 (Pending begin? characters complete decode? encode step)

variable {bits missing least most k n b : Nat} {rest : Bytes} {pending : Pending} {c mark : Char}

/-! ## One character -/

/-- The last byte of a character completes it. -/
theorem complete_last (small : k < 0x40) (low : least ≤ k + 0x80) (high : k + 0x80 ≤ most) :
    complete ⟨bits, 1, least, most⟩ (UInt8.ofNat (k + 0x80) :: rest) =
      (some (Char.ofNat (bits * 64 + k)), rest) := by
  have byte : (UInt8.ofNat (k + 0x80)).toNat = k + 0x80 :=
    UInt8.toNat_ofNat_of_lt' (by simp only [UInt8.size]; omega)
  have last : (k + 0x80) % 64 = k := by omega
  simp only [complete, byte, last, if_pos (And.intro low high)]

/-- A byte before the last one adds its bits, and the next may be any. -/
theorem complete_more (small : k < 0x40) (low : least ≤ k + 0x80) (high : k + 0x80 ≤ most) :
    complete ⟨bits, missing + 2, least, most⟩ (UInt8.ofNat (k + 0x80) :: rest) =
      complete ⟨bits * 64 + k, missing + 1, 0x80, 0xBF⟩ rest := by
  have byte : (UInt8.ofNat (k + 0x80)).toNat = k + 0x80 :=
    UInt8.toNat_ofNat_of_lt' (by simp only [UInt8.size]; omega)
  have last : (k + 0x80) % 64 = k := by omega
  simp only [complete, byte, last, if_pos (And.intro low high)]

theorem step_begin (small : b < 0x100) (begun : begin? b = some pending) :
    step (UInt8.ofNat b) rest = complete pending rest := by
  have byte : (UInt8.ofNat b).toNat = b := UInt8.toNat_ofNat_of_lt' (by simpa only [UInt8.size])
  have several : ¬ b < 0x80 := by
    intro single
    rw [begin?] at begun
    repeat rw [if_neg (by omega)] at begun
    cases begun
  simp only [step, byte, if_neg several, begun]

/-- The first of three bytes allows the second, since no character lies among the surrogates. -/
theorem begin?_three (wide : 0x800 ≤ n ∧ n < 0x10000) (valid : n < 0xD800 ∨ 0xDFFF < n) :
    ∃ least most, least ≤ n / 64 % 64 + 0x80 ∧ n / 64 % 64 + 0x80 ≤ most ∧
      begin? (n / 4096 % 16 + 0xE0) = some ⟨n / 4096, 2, least, most⟩ := by
  have lead : n / 4096 % 16 + 0xE0 - 0xE0 = n / 4096 := by omega
  by_cases first : n / 4096 = 0
  · exact ⟨0xA0, 0xBF, by omega, by omega, by rw [first]; rfl⟩
  · by_cases surrogate : n / 4096 = 0xD
    · exact ⟨0x80, 0x9F, by omega, by omega, by rw [surrogate]; rfl⟩
    · refine ⟨0x80, 0xBF, by omega, by omega, ?_⟩
      rw [begin?, if_neg (by omega), if_neg (by omega), if_neg (by omega), if_pos (by omega), lead]

/-- The first of four bytes allows the second, since there is no character from `0x110000` on. -/
theorem begin?_four (wide : 0x10000 ≤ n) (valid : n < 0x110000) :
    ∃ least most, least ≤ n / 4096 % 64 + 0x80 ∧ n / 4096 % 64 + 0x80 ≤ most ∧
      begin? (n / 262144 % 8 + 0xF0) = some ⟨n / 262144, 3, least, most⟩ := by
  have lead : n / 262144 % 8 + 0xF0 - 0xF0 = n / 262144 := by omega
  by_cases first : n / 262144 = 0
  · exact ⟨0x90, 0xBF, by omega, by omega, by rw [first]; rfl⟩
  · by_cases final : n / 262144 = 4
    · exact ⟨0x80, 0x8F, by omega, by omega, by rw [final]; rfl⟩
    · refine ⟨0x80, 0xBF, by omega, by omega, ?_⟩
      rw [begin?, if_neg (by omega), if_neg (by omega), if_neg (by omega), if_neg (by omega),
        if_neg (by omega), if_pos (by omega), lead]

/-- A character is read off its bytes, and what comes after them is left. -/
theorem step_utf8EncodeChar (c : Char) : ∃ b more, String.utf8EncodeChar c = b :: more ∧
    ∀ rest, step b (more ++ rest) = (some c, rest) := by
  have self : Char.ofNat c.val.toNat = c := Char.ofNat_toNat c
  have valid : c.val.toNat < 0xD800 ∨ 0xDFFF < c.val.toNat ∧ c.val.toNat < 0x110000 := c.valid
  simp only [String.utf8EncodeChar]
  generalize c.val.toNat = n at self valid
  subst self
  -- The four lengths, in the order in which they are tried.
  split
  · refine ⟨_, _, rfl, fun rest => ?_⟩
    have byte : (UInt8.ofNat n).toNat = n := UInt8.toNat_ofNat_of_lt' (by simp only [UInt8.size]; omega)
    simp only [step, byte, if_pos (show n < 0x80 by omega), List.nil_append]
  split
  · refine ⟨_, _, rfl, fun rest => ?_⟩
    have begun : begin? (n / 64 % 32 + 0xC0) = some ⟨n / 64, 1, 0x80, 0xBF⟩ := by
      rw [begin?, if_pos (by omega), show n / 64 % 32 + 0xC0 - 0xC0 = n / 64 by omega]
    rw [step_begin (by omega) begun, List.cons_append, complete_last (by omega) (by omega) (by omega),
      List.nil_append, show n / 64 * 64 + n % 64 = n by omega]
  split
  · refine ⟨_, _, rfl, fun rest => ?_⟩
    obtain ⟨least, most, low, high, begun⟩ := begin?_three (n := n) (by omega) (by omega)
    rw [step_begin (by omega) begun, List.cons_append, complete_more (by omega) low high,
      List.cons_append, complete_last (by omega) (by omega) (by omega), List.nil_append,
      show (n / 4096 * 64 + n / 64 % 64) * 64 + n % 64 = n by omega]
  · refine ⟨_, _, rfl, fun rest => ?_⟩
    obtain ⟨least, most, low, high, begun⟩ := begin?_four (n := n) (by omega) (by omega)
    rw [step_begin (by omega) begun, List.cons_append, complete_more (by omega) low high,
      List.cons_append, complete_more (by omega) (by omega) (by omega),
      List.cons_append, complete_last (by omega) (by omega) (by omega), List.nil_append,
      show ((n / 262144 * 64 + n / 4096 % 64) * 64 + n / 64 % 64) * 64 + n % 64 = n by omega]

/-- A character is a single byte, its code point, or its bytes are none of ASCII. -/
theorem toNat_of_mem {byte : UInt8} (member : byte ∈ String.utf8EncodeChar c) :
    byte.toNat = c.toNat ∨ 0x80 ≤ byte.toNat := by
  have value (k : Nat) (small : k < 0x100) : (UInt8.ofNat k).toNat = k :=
    UInt8.toNat_ofNat_of_lt' (by simpa only [UInt8.size])
  have high (k : Nat) (bounds : 0x80 ≤ k ∧ k < 0x100) : 0x80 ≤ (UInt8.ofNat k).toNat := by
    rw [value k bounds.2]
    exact bounds.1
  simp only [String.utf8EncodeChar] at member
  split at member
  · obtain rfl := List.mem_singleton.1 member
    exact .inl (value _ (by omega))
  split at member
  · simp only [List.mem_cons, List.not_mem_nil, or_false] at member
    rcases member with rfl | rfl <;> exact .inr (high _ (by omega))
  split at member
  · simp only [List.mem_cons, List.not_mem_nil, or_false] at member
    rcases member with rfl | rfl | rfl <;> exact .inr (high _ (by omega))
  · simp only [List.mem_cons, List.not_mem_nil, or_false] at member
    rcases member with rfl | rfl | rfl | rfl <;> exact .inr (high _ (by omega))

theorem utf8EncodeChar_ascii (ascii : c.toNat < 0x80) : String.utf8EncodeChar c = [UInt8.ofNat c.toNat] := by
  rw [String.utf8EncodeChar]
  exact if_pos (by change c.toNat ≤ 127; omega)

/-! ## Texts -/

/-- The bytes of a text begin with those of its first character. -/
theorem encode_cons (c : Char) (s : Text) :
    ∃ b more, encode (c :: s) = b :: (more ++ encode s) ∧
      ∀ rest, step b (more ++ rest) = (some c, rest) := by
  obtain ⟨b, more, bytes, read⟩ := step_utf8EncodeChar c
  refine ⟨b, more, ?_, read⟩
  rw [encode, List.flatMap_cons, bytes, List.cons_append, encode]

theorem characters_encode (s : Text) : characters (encode s) = s.map some := by
  induction s with
  | nil => rw [encode, List.flatMap_nil, characters, List.map_nil]
  | cons c s ih =>
    obtain ⟨b, more, parts, read⟩ := encode_cons c s
    rw [parts, characters, read, ih, List.map_cons]

/-- A text is what its bytes are read as. -/
theorem decode?_encode (s : Text) : decode? (encode s) = some s := by
  rw [decode?, characters_encode]
  induction s with
  | nil => rfl
  | cons c s ih =>
    simp only [List.map_cons, List.mapM_cons, ih]
    rfl

/-- What stands before a mark in the bytes of a text is what stands before it in the text. -/
theorem takeWhile_encode (ascii : mark.toNat < 0x80) (s : Text) :
    (encode s).takeWhile (· ≠ UInt8.ofNat mark.toNat) = encode (s.takeWhile (· ≠ mark)) := by
  induction s with
  | nil => rfl
  | cons c s ih =>
    rw [encode, List.flatMap_cons]
    by_cases same : c = mark
    · subst same
      rw [utf8EncodeChar_ascii ascii, List.cons_append, List.takeWhile_cons_of_neg (by simp),
        List.takeWhile_cons_of_neg (by simp)]
      rfl
    · have other : ∀ byte ∈ String.utf8EncodeChar c, decide (byte ≠ UInt8.ofNat mark.toNat) = true := by
        intro byte member
        have value : (UInt8.ofNat mark.toNat).toNat = mark.toNat :=
          UInt8.toNat_ofNat_of_lt' (by simp only [UInt8.size]; omega)
        have apart : c.toNat ≠ mark.toNat := fun equal => same (Char.toNat_inj.1 equal)
        rw [decide_eq_true_eq]
        rintro rfl
        rcases toNat_of_mem member with own | high
        · omega
        · omega
      rw [List.takeWhile_append_of_pos other, List.takeWhile_cons_of_pos (by simpa using same), encode,
        List.flatMap_cons]
      exact congrArg (String.utf8EncodeChar c ++ ·) ih

end ColumnLineage.EncodedText
