import ColumnLineage.Json.Reading

/-! The grammar of JSON numbers and strings, told apart from any reader, and the readers against it. A number
is read as far as it goes, so it is found where nothing that follows could carry it on; a string ends at its
own quote, whatever follows. -/

namespace ColumnLineage.JsonScalars
open Json Json.Number

/-! ## Numbers -/

/-- A run of digits, at least one. -/
def Digits (s : Text) : Prop :=
  s ≠ [] ∧ ∀ c ∈ s, isDigitIn 10 c = true

/-- The digits before the point: zero alone, or digits of which the first is not zero. -/
inductive Whole : Text → Prop where
  | zero : Whole ['0']
  | digits (run : Digits s) (first : s.head? ≠ some '0') : Whole s

/-- The digits after the point with their text, which is empty where there is no point. -/
inductive Fraction : Text → Text → Prop where
  | none : Fraction [] []
  | point (run : Digits digits) : Fraction digits ('.' :: digits)

/-- Whether an exponent is negative and its digits, with its text. -/
inductive Exponent : Option (Bool × Text) → Text → Prop where
  | none : Exponent none []
  | bare (mark : c = 'e' ∨ c = 'E') (run : Digits digits) : Exponent (some (false, digits)) (c :: digits)
  | plus (mark : c = 'e' ∨ c = 'E') (run : Digits digits) :
      Exponent (some (false, digits)) (c :: '+' :: digits)
  | minus (mark : c = 'e' ∨ c = 'E') (run : Digits digits) :
      Exponent (some (true, digits)) (c :: '-' :: digits)

/-- A number without its sign. -/
structure Unsigned (parts : Parts) (text : Text) : Prop where
  whole : Whole parts.whole
  tail : ∃ fraction exponent, Fraction parts.fraction fraction ∧ Exponent parts.exponent exponent ∧
    text = parts.whole ++ (fraction ++ exponent)

/-- A written number with its parts. -/
inductive Numeral : Parts → Text → Prop where
  | positive (unsigned : Unsigned parts text) (sign : parts.negative = false) : Numeral parts text
  | negative (unsigned : Unsigned parts text) (sign : parts.negative = true) : Numeral parts ('-' :: text)

/-- A text that does not begin with a digit. -/
def EndsDigits (rest : Text) : Prop :=
  ∀ c ∈ rest.head?, isDigitIn 10 c = false

/-- A text that carries no number on: its first character has no place within one. -/
def Stops (rest : Text) : Prop :=
  ∀ c ∈ rest.head?, isDigitIn 10 c = false ∧ c ≠ '.' ∧ c ≠ 'e' ∧ c ≠ 'E'

theorem Digits.begins (run : Digits s) : ∃ c more, s = c :: more ∧ isDigitIn 10 c = true := by
  obtain ⟨c, more, rfl⟩ := List.exists_cons_of_ne_nil run.1
  exact ⟨c, more, rfl, run.2 c (by simp)⟩

theorem Whole.begins (whole : Whole s) : ∃ c more, s = c :: more ∧ isDigitIn 10 c = true := by
  cases whole with
  | zero => exact ⟨'0', [], rfl, by decide⟩
  | digits run first => exact run.begins

private theorem mark_not_digit (mark : c = 'e' ∨ c = 'E') : isDigitIn 10 c = false ∧ c ≠ '.' := by
  rcases mark with rfl | rfl <;> decide

/-- Neither a digit nor a point stands where the exponent begins. -/
theorem Exponent.begins (exponent : Exponent e text) (stops : Stops rest) :
    ∀ c ∈ (text ++ rest).head?, isDigitIn 10 c = false ∧ c ≠ '.' := by
  cases exponent with
  | none => exact fun c head => ⟨(stops c head).1, (stops c head).2.1⟩
  | bare mark run | plus mark run | minus mark run =>
    intro c head
    cases Option.some.inj head
    exact mark_not_digit mark

theorem Fraction.endsDigits (fraction : Fraction digits text) (ends : EndsDigits rest) :
    EndsDigits (text ++ rest) := by
  cases fraction with
  | none => exact ends
  | point run =>
    intro c head
    cases Option.some.inj head
    decide

theorem digits_of_readDigits? (read : readDigits? s = some (digits, rest)) :
    s = digits ++ rest ∧ Digits digits := by
  unfold readDigits? at read
  split at read
  · cases read
  · rename_i run
    cases read
    exact ⟨List.takeWhile_append_dropWhile.symm, run, List.all_eq_true.1 List.all_takeWhile⟩

/-- A run of digits is read to its end. -/
theorem Digits.read (run : Digits digits) (ends : EndsDigits rest) :
    readDigits? (digits ++ rest) = some (digits, rest) := by
  have nothing : rest.takeWhile (isDigitIn 10) = [] ∧ rest.dropWhile (isDigitIn 10) = rest := by
    cases rest with
    | nil => exact ⟨rfl, rfl⟩
    | cons c rest => simp [ends c rfl]
  have taken : (digits ++ rest).takeWhile (isDigitIn 10) = digits := by
    rw [List.takeWhile_append_of_pos run.2, nothing.1, List.append_nil]
  have left : (digits ++ rest).dropWhile (isDigitIn 10) = rest := by
    rw [List.dropWhile_append_of_pos run.2, nothing.2]
  obtain ⟨c, more, begins, -⟩ := run.begins
  rw [readDigits?, taken, left, begins]

theorem whole_of_readWhole? (read : readWhole? s = some (whole, rest)) : s = whole ++ rest ∧ Whole whole := by
  unfold readWhole? at read
  split at read
  · cases read
    exact ⟨rfl, .zero⟩
  · rename_i other
    obtain ⟨rfl, run⟩ := digits_of_readDigits? read
    refine ⟨rfl, .digits run fun first => ?_⟩
    obtain ⟨more, rfl⟩ := List.head?_eq_some_iff.1 first
    exact other _ rfl

theorem Whole.read (whole : Whole w) (ends : EndsDigits rest) : readWhole? (w ++ rest) = some (w, rest) := by
  cases whole with
  | zero => rfl
  | digits run first =>
    obtain ⟨c, more, rfl, -⟩ := run.begins
    have other : c ≠ '0' := fun zero => first (zero ▸ rfl)
    rw [← run.read ends]
    simp [readWhole?, other]

theorem fraction_of_readFraction? (read : readFraction? s = some (digits, rest)) :
    ∃ text, s = text ++ rest ∧ Fraction digits text := by
  unfold readFraction? at read
  split at read
  · obtain ⟨rfl, run⟩ := digits_of_readDigits? read
    exact ⟨_, rfl, .point run⟩
  · cases read
    exact ⟨[], rfl, .none⟩

theorem Fraction.read (fraction : Fraction digits text)
    (ends : ∀ c ∈ rest.head?, isDigitIn 10 c = false ∧ c ≠ '.') :
    readFraction? (text ++ rest) = some (digits, rest) := by
  cases fraction with
  | none =>
    cases rest with
    | nil => rfl
    | cons c rest => simp [readFraction?, (ends c rfl).2]
  | point run => exact run.read fun c head => (ends c head).1

private theorem exponent_of_digits (negative : Bool)
    (read : (readDigits? s).map (fun (digits, rest) => (some (negative, digits), rest)) = some (exponent, rest)) :
    ∃ digits, exponent = some (negative, digits) ∧ s = digits ++ rest ∧ Digits digits := by
  obtain ⟨⟨digits, rest⟩, found, made⟩ := Option.map_eq_some_iff.1 read
  cases made
  exact ⟨digits, rfl, digits_of_readDigits? found⟩

theorem exponent_of_readExponent? (read : readExponent? s = some (exponent, rest)) :
    ∃ text, s = text ++ rest ∧ Exponent exponent text := by
  unfold readExponent? at read
  split at read
  · cases read
    exact ⟨[], rfl, .none⟩
  split at read
  · rename_i c s mark
    split at read
    · obtain ⟨digits, rfl, rfl, run⟩ := exponent_of_digits true read
      exact ⟨_, rfl, .minus mark run⟩
    · obtain ⟨digits, rfl, rfl, run⟩ := exponent_of_digits false read
      exact ⟨_, rfl, .plus mark run⟩
    · obtain ⟨digits, rfl, rfl, run⟩ := exponent_of_digits false read
      exact ⟨_, rfl, .bare mark run⟩
  · cases read
    exact ⟨[], rfl, .none⟩

theorem Exponent.read (exponent : Exponent e text) (stops : Stops rest) :
    readExponent? (text ++ rest) = some (e, rest) := by
  have ends : EndsDigits rest := fun c head => (stops c head).1
  cases exponent with
  | none =>
    cases rest with
    | nil => rfl
    | cons c rest =>
      have other : ¬ (c = 'e' ∨ c = 'E') := not_or.2 (stops c rfl).2.2
      simp [readExponent?, other]
  | @bare digits c mark run =>
    have read := run.read ends
    obtain ⟨d, more, rfl, digit⟩ := run.begins
    have sign : d ≠ '-' ∧ d ≠ '+' := by
      constructor <;> rintro rfl <;> cases digit
    simp only [List.cons_append] at read ⊢
    simp [readExponent?, mark, sign, read]
  | plus mark run | minus mark run => simp [readExponent?, mark, run.read ends]

theorem unsigned_of_readUnsigned? (read : readUnsigned? negative s = some (parts, rest)) :
    ∃ text, s = text ++ rest ∧ parts.negative = negative ∧ Unsigned parts text := by
  unfold readUnsigned? at read
  split at read
  · cases read
  rename_i whole afterWhole readWhole
  split at read
  · cases read
  rename_i fraction afterFraction readFraction
  obtain ⟨⟨exponent, rest⟩, readExponent, made⟩ := Option.map_eq_some_iff.1 read
  cases made
  obtain ⟨rfl, isWhole⟩ := whole_of_readWhole? readWhole
  obtain ⟨fractionText, rfl, isFraction⟩ := fraction_of_readFraction? readFraction
  obtain ⟨exponentText, rfl, isExponent⟩ := exponent_of_readExponent? readExponent
  exact ⟨whole ++ (fractionText ++ exponentText), by simp, rfl, isWhole, _, _, isFraction, isExponent, rfl⟩

theorem Unsigned.read (unsigned : Unsigned parts text) (stops : Stops rest) :
    readUnsigned? parts.negative (text ++ rest) = some (parts, rest) := by
  obtain ⟨whole, fraction, exponent, isFraction, isExponent, rfl⟩ := unsigned
  have after := isExponent.begins stops
  have ends : EndsDigits (fraction ++ (exponent ++ rest)) :=
    isFraction.endsDigits fun c head => (after c head).1
  simp only [List.append_assoc, readUnsigned?, whole.read ends, isFraction.read after, isExponent.read stops,
    Option.map_some]

theorem Numeral.begins (numeral : Numeral parts text) :
    ∃ c more, text = c :: more ∧ (c = '-' ∨ isDigitIn 10 c = true) := by
  cases numeral with
  | positive unsigned sign =>
    obtain ⟨whole, _, _, -, -, rfl⟩ := unsigned
    obtain ⟨c, more, begins, digit⟩ := whole.begins
    exact ⟨c, _, by rw [begins, List.cons_append], .inr digit⟩
  | negative unsigned sign => exact ⟨'-', _, rfl, .inl rfl⟩

/-- What is read as a number is one. -/
theorem numeral_of_read? (read : Number.read? s = some (parts, rest)) :
    ∃ text, s = text ++ rest ∧ Numeral parts text := by
  unfold Number.read? at read
  split at read
  · obtain ⟨text, rfl, sign, unsigned⟩ := unsigned_of_readUnsigned? read
    exact ⟨'-' :: text, rfl, .negative unsigned sign⟩
  · obtain ⟨text, rfl, sign, unsigned⟩ := unsigned_of_readUnsigned? read
    exact ⟨text, rfl, .positive unsigned sign⟩

/-- A number is read to its end where nothing carries it on. -/
theorem Numeral.read (numeral : Numeral parts text) (stops : Stops rest) :
    Number.read? (text ++ rest) = some (parts, rest) := by
  cases numeral with
  | positive unsigned sign =>
    have read := unsigned.read stops
    obtain ⟨whole, _, _, -, -, rfl⟩ := unsigned
    obtain ⟨c, more, begins, digit⟩ := whole.begins
    have unsign : c ≠ '-' := by
      rintro rfl
      cases digit
    rw [sign] at read
    rw [begins] at read ⊢
    simpa [Number.read?, unsign] using read
  | negative unsigned sign =>
    have read := unsigned.read stops
    rwa [sign] at read

/-! ## Strings -/

/-- A part of a string with its text: a character as it is, one after a backslash, or four hexadecimal
digits. -/
inductive Spells : StringPart → Text → Prop where
  | plain (solid : 32 ≤ c.toNat) (quote : c ≠ '"') (backslash : c ≠ '\\') : Spells (.char c) [c]
  | escaped (listed : escaped? e = some c) : Spells (.char c) ['\\', e]
  | unit (digits : number? 16 [a, b, c, d] = some n) : Spells (.ofUnit n) ['\\', 'u', a, b, c, d]

/-- The parts of a string with their text, without the quotes. -/
inductive Body : List StringPart → Text → Prop where
  | nil : Body [] []
  | cons (first : Spells part text) (others : Body parts body) : Body (part :: parts) (text ++ body)

/-- The characters that the parts of a string make: a high surrogate and the low one after it are one
character. -/
inductive Joins : List StringPart → Text → Prop where
  | nil : Joins [] []
  | char (c : Char) (others : Joins parts s) : Joins (.char c :: parts) (c :: s)
  | pair (h l : Nat) (others : Joins parts s) :
      Joins (.high h :: .low l :: parts) (Char.ofNat (0x10000 + h * 0x400 + l) :: s)

theorem textOfParts?_eq_some_iff {parts : List StringPart} {s : Text} :
    textOfParts? parts = some s ↔ Joins parts s := by
  constructor
  · intro joined
    fun_induction textOfParts? parts generalizing s with
    | case1 => cases joined; exact .nil
    | case2 c rest ih =>
      obtain ⟨t, found, rfl⟩ := Option.map_eq_some_iff.1 joined
      exact .char c (ih found)
    | case3 h l rest ih =>
      obtain ⟨t, found, rfl⟩ := Option.map_eq_some_iff.1 joined
      exact .pair h l (ih found)
    | case4 => cases joined
  · intro joins
    induction joins with
    | nil => rfl
    | char c _ ih => rw [textOfParts?, ih, Option.map_some]
    | pair h l _ ih => rw [textOfParts?, ih, Option.map_some]

theorem textOfParts?_eq_none_iff : textOfParts? parts = none ↔ ∀ s, ¬ Joins parts s := by
  simp only [Option.eq_none_iff_forall_ne_some, ne_eq, textOfParts?_eq_some_iff]

/-- Any text is joined from its own characters. -/
theorem joins_chars (s : Text) : Joins (s.map .char) s := by
  induction s with
  | nil => exact .nil
  | cons c s ih => exact .char c ih

/-- A text without quotes, backslashes and characters below the space. -/
def Plain (s : Text) : Prop :=
  ∀ c ∈ s, 32 ≤ c.toNat ∧ c ≠ '"' ∧ c ≠ '\\'

instance (s : Text) : Decidable (Plain s) :=
  List.decidableBAll _ s

/-- Such a text is written as it is. -/
theorem Plain.body {s : Text} (plain : Plain s) : Body (s.map .char) s := by
  induction s with
  | nil => exact .nil
  | cons c s ih =>
    obtain ⟨⟨solid, quote, backslash⟩, others⟩ := List.forall_mem_cons.1 plain
    exact .cons (.plain solid quote backslash) (ih others)

/-- A part of a string is read, and then whatever follows it. -/
theorem Spells.read (spells : Spells part text) (rest : Text) :
    readParts (text ++ rest) = consPart part (readParts rest) := by
  cases spells with
  | plain solid quote backslash =>
    have above : ¬ _ < 32 := Nat.not_lt.2 solid
    simp [readParts, backslash, above]
  | @escaped e c listed =>
    have single : e ≠ 'u' := by
      rintro rfl
      cases listed
    simp [readParts, listed, single]
  | unit digits => simp [readParts, digits]

private theorem consPart_eq_some_iff {read : Option (List StringPart × Text)} :
    consPart part read = some (parts, rest) ↔ ∃ others, read = some (others, rest) ∧ parts = part :: others := by
  cases read with
  | none => simp [consPart]
  | some pair =>
    obtain ⟨others, left⟩ := pair
    simp only [consPart, Option.some.injEq, Prod.mk.injEq]
    constructor
    · rintro ⟨rfl, rfl⟩
      exact ⟨others, ⟨rfl, rfl⟩, rfl⟩
    · rintro ⟨_, ⟨rfl, rfl⟩, rfl⟩
      exact ⟨rfl, rfl⟩

/-- A string is read up to its closing quote. -/
theorem readParts_eq_some_iff {s : Text} {parts : List StringPart} {rest : Text} :
    readParts s = some (parts, rest) ↔ ∃ body, Body parts body ∧ s = body ++ '"' :: rest := by
  constructor
  · intro read
    fun_induction readParts s generalizing parts with
    | case1 => cases read
    | case2 s => cases read; exact ⟨[], .nil, rfl⟩
    | case3 a b c d s n digits ih =>
      obtain ⟨others, found, rfl⟩ := consPart_eq_some_iff.1 read
      obtain ⟨body, spelled, rfl⟩ := ih found
      exact ⟨_, .cons (.unit digits) spelled, rfl⟩
    | case4 => cases read
    | case5 c s notUnit e listed ih =>
      obtain ⟨others, found, rfl⟩ := consPart_eq_some_iff.1 read
      obtain ⟨body, spelled, rfl⟩ := ih found
      exact ⟨_, .cons (.escaped listed) spelled, rfl⟩
    | case6 => cases read
    | case7 => cases read
    | case8 c s quote unit escape solid ih =>
      obtain ⟨others, found, rfl⟩ := consPart_eq_some_iff.1 read
      obtain ⟨body, spelled, rfl⟩ := ih found
      obtain ⟨backslash, above⟩ := not_or.1 solid
      exact ⟨_, .cons (.plain (Nat.not_lt.1 above) quote backslash) spelled, rfl⟩
  · rintro ⟨body, spelled, rfl⟩
    induction spelled with
    | nil => simp [readParts]
    | cons first others ih => rw [List.append_assoc, first.read, ih, consPart]

end ColumnLineage.JsonScalars
