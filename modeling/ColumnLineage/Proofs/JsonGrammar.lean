import ColumnLineage.Proofs.DataFields
import ColumnLineage.Proofs.JsonScalars

/-! The grammar of JSON text, and the reader against it: a text is read as some data exactly where the grammar
writes these data with it. The grammar knows no positions and no steps. Its lists and records are joined from
items and members that carry their own spaces. -/

namespace ColumnLineage.JsonGrammar
open Json JsonScalars DataFields

/-! ## Texts of data -/

/-- A text of spaces alone. -/
def Spaces (s : Text) : Prop :=
  ∀ c ∈ s, isSpace c = true

instance (s : Text) : Decidable (Spaces s) :=
  List.decidableBAll _ s

theorem Spaces.nil : Spaces [] :=
  List.forall_mem_nil _

/-- Data with a text for them and the spaces around it. -/
structure Slot where
  before : Text
  datum : Data
  text : Text
  after : Text
  spaces_before : Spaces before
  spaces_after : Spaces after

def Slot.written (slot : Slot) : Text :=
  slot.before ++ (slot.text ++ slot.after)

/-- A member of a record as it stands in a text: its name in quotes, a colon and its value. -/
structure Member where
  before : Text
  parts : List StringPart
  name : Text
  gap : Text
  value : Slot
  spaces_before : Spaces before
  spelled : Body parts name
  spaces_gap : Spaces gap

def Member.written (m : Member) : Text :=
  m.before ++ '"' :: (m.name ++ '"' :: (m.gap ++ ':' :: m.value.written))

/-- Parts as they are written, with a comma between two neighbours. -/
def separated (written : α → Text) (parts : List α) : Text :=
  Text.joinWith [','] (parts.map written)

/-- The member of a record that a written one stands for. -/
def Member.Names (m : Member) (field : Text × Data) : Prop :=
  Joins m.parts field.1 ∧ m.value.datum = field.2

/-- Data with their text, without spaces around it. What is written correctly and holds no value, a string with
a surrogate left alone, a record with a member of such a name or a number that is too large, is a text of
`unreadable` data. -/
inductive Writes : Data → Text → Prop where
  | null : Writes .null ['n', 'u', 'l', 'l']
  | true : Writes (.bool true) ['t', 'r', 'u', 'e']
  | false : Writes (.bool false) ['f', 'a', 'l', 's', 'e']
  | number (numeral : Numeral parts w) (value : parts.data = d) : Writes d w
  | text (spelled : Body parts body) (joined : Joins parts s) : Writes (.text s) ('"' :: (body ++ ['"']))
  | unpaired (spelled : Body parts body) (alone : ∀ s, ¬ Joins parts s) :
      Writes .unreadable ('"' :: (body ++ ['"']))
  | emptyList (spaces : Spaces s) : Writes (.list []) ('[' :: (s ++ [']']))
  | list (slots : List Slot) (nonempty : slots ≠ []) (each : ∀ slot ∈ slots, Writes slot.datum slot.text) :
      Writes (.list (slots.map Slot.datum)) ('[' :: (separated Slot.written slots ++ [']']))
  | emptyRecord (spaces : Spaces s) : Writes (.record []) ('\x7b' :: (s ++ ['\x7d']))
  | record (members : List Member) (nonempty : members ≠ [])
      (each : ∀ m ∈ members, Writes m.value.datum m.value.text)
      (named : List.Forall₂ Member.Names members fields) :
      Writes (.record fields) ('\x7b' :: (separated Member.written members ++ ['\x7d']))
  | unnamed (members : List Member) (each : ∀ m ∈ members, Writes m.value.datum m.value.text)
      (inside : m ∈ members) (alone : ∀ s, ¬ Joins m.parts s) :
      Writes .unreadable ('\x7b' :: (separated Member.written members ++ ['\x7d']))

/-- A member whose name is written as it is, without spaces before its value. -/
def Member.plain (name : Text) (plain : Plain name) (value : Slot) : Member :=
  ⟨[], name.map .char, name, [], value, .nil, plain.body, .nil⟩

/-- A slot whose text is one of its data. -/
def Slot.Proper (slot : Slot) : Prop :=
  Writes slot.datum slot.text

/-- A whole text of data, with spaces around it and nothing else. -/
def Document (d : Data) (s : Text) : Prop :=
  ∃ slot : Slot, slot.written = s ∧ slot.datum = d ∧ slot.Proper

/-! ## What is written is read -/

/-- Spaces are skipped up to a character that is none. -/
theorem skipSpace_spaces (spaces : Spaces s) (solid : isSpace c = false) (rest : Text) :
    skipSpace (s ++ c :: rest) = c :: rest := by
  rw [skipSpace, List.dropWhile_append_of_pos spaces, List.dropWhile_cons_of_neg (by simp [solid])]

/-- Skipping takes spaces and nothing else. -/
theorem exists_spaces (s : Text) : ∃ before, Spaces before ∧ s = before ++ skipSpace s :=
  ⟨s.takeWhile isSpace, List.all_eq_true.1 List.all_takeWhile, List.takeWhile_append_dropWhile.symm⟩

/-- A character that begins a value: no space, and no end of a list. -/
def BeginsValue (c : Char) : Prop :=
  isSpace c = false ∧ c ≠ ']'

/-- A character that ends a value: no space, and nothing that carries a number on. -/
def EndsValue (c : Char) : Prop :=
  isSpace c = false ∧ isDigitIn 10 c = false ∧ c ≠ '.' ∧ c ≠ 'e' ∧ c ≠ 'E'

instance : Decidable (EndsValue c) :=
  inferInstanceAs (Decidable (isSpace c = false ∧ isDigitIn 10 c = false ∧ c ≠ '.' ∧ c ≠ 'e' ∧ c ≠ 'E'))

private theorem beginsNumeral_ne (begins : c = '-' ∨ isDigitIn 10 c = true) :
    BeginsValue c ∧ c ≠ 'n' ∧ c ≠ 't' ∧ c ≠ 'f' ∧ c ≠ '"' ∧ c ≠ '[' ∧ c ≠ '\x7b' := by
  have solid : isSpace c = false := by
    rw [Bool.eq_false_iff]
    intro space
    simp only [isSpace, Bool.or_eq_true, decide_eq_true_eq] at space
    rcases begins with rfl | digit
    · simp at space
    · rcases space with ((rfl | rfl) | rfl) | rfl <;> cases digit
  refine ⟨⟨solid, ?_⟩, ?_, ?_, ?_, ?_, ?_, ?_⟩
  all_goals
    rintro rfl
    rcases begins with minus | digit
    · cases minus
    · cases digit

theorem Writes.begins (writes : Writes d w) : ∃ c more, w = c :: more ∧ BeginsValue c := by
  cases writes with
  | number numeral value =>
    obtain ⟨c, more, rfl, begins⟩ := numeral.begins
    exact ⟨c, more, rfl, (beginsNumeral_ne begins).1⟩
  | _ => exact ⟨_, _, rfl, rfl, by decide⟩

/-- Data that are read from a text for them wherever nothing carries it on. A step for each character is
enough. -/
def Reads (d : Data) (w : Text) : Prop :=
  ∀ steps rest, w.length ≤ steps → Stops rest → readValue steps (w ++ rest) = some (d, rest)

/-- Reading a text that begins with a character takes a step, and the others have one for each character left. -/
private theorem reads_cons {c : Char} {more : Text}
    (step : ∀ left rest, more.length ≤ left → Stops rest →
      readValue (left + 1) (c :: (more ++ rest)) = some (d, rest)) :
    Reads d (c :: more) := by
  intro steps rest enough stops
  obtain ⟨left, rfl⟩ := Nat.exists_eq_succ_of_ne_zero (Nat.ne_zero_of_lt enough)
  exact step left rest (Nat.le_of_succ_le_succ enough) stops

/-- Spaces carry no number on, whatever they stand before. -/
private theorem stops_spaces (spaces : Spaces s) (stops : Stops rest) : Stops (s ++ rest) := by
  cases s with
  | nil => exact stops
  | cons c s =>
    intro e head
    cases Option.some.inj head
    have space := spaces c (by simp)
    simp only [isSpace, Bool.or_eq_true, decide_eq_true_eq] at space
    rcases space with ((rfl | rfl) | rfl) | rfl <;> decide

private theorem EndsValue.stops (ends : EndsValue c) (rest : Text) : Stops (c :: rest) := by
  intro e head
  cases Option.some.inj head
  exact ends.2

/-- A slot begins with its value where its spaces are skipped. -/
private theorem Slot.skip (slot : Slot) (proper : slot.Proper) (rest : Text) :
    skipSpace (slot.written ++ rest) = slot.text ++ (slot.after ++ rest) := by
  obtain ⟨c, more, begins, solid, -⟩ := Writes.begins proper
  simp only [written, begins, List.append_assoc, List.cons_append, skipSpace_spaces slot.spaces_before solid]

/-- The value of a slot is read up to the spaces after it. -/
private theorem Slot.read (slot : Slot) (proper : slot.Proper) (reads : Reads slot.datum slot.text)
    (ends : EndsValue c) (enough : slot.written.length ≤ steps) (rest : Text) :
    readValue steps (skipSpace (slot.written ++ c :: rest)) = some (slot.datum, slot.after ++ c :: rest) := by
  simp only [written, List.length_append] at enough
  rw [slot.skip proper]
  exact reads steps _ (by omega) (stops_spaces slot.spaces_after (ends.stops rest))

@[simp] theorem separated_singleton (written : α → Text) (part : α) : separated written [part] = written part :=
  rfl

theorem separated_cons (written : α → Text) (part : α) {parts : List α} (more : parts ≠ []) :
    separated written (part :: parts) = written part ++ ',' :: separated written parts := by
  obtain ⟨next, rest, rfl⟩ := List.exists_cons_of_ne_nil more
  simp only [separated, List.map_cons, Text.joinWith, List.append_assoc, List.cons_append, List.nil_append]

/-- Separated parts begin with the first of them. -/
theorem separated_begins (written : α → Text) (part : α) (parts : List α) :
    written part <+: separated written (part :: parts) := by
  by_cases last : parts = []
  · subst last
    exact List.prefix_rfl
  · exact ⟨_, (separated_cons written part last).symm⟩

/-- One item of a list is read, and what ends it tells whether others follow. -/
private theorem readItems_succ (slot : Slot) (proper : slot.Proper) (reads : Reads slot.datum slot.text)
    (enough : slot.written.length ≤ left) (ends : EndsValue c) (rest : Text) :
    readItems (left + 1) (skipSpace (slot.written ++ c :: rest)) = match c :: rest with
      | ',' :: rest => (readItems left (skipSpace rest)).map fun (ds, rest) => (slot.datum :: ds, rest)
      | ']' :: rest => some ([slot.datum], rest)
      | _ => none := by
  simp only [readItems, slot.read proper reads ends enough, skipSpace_spaces slot.spaces_after ends.1]
  rfl

/-- The items of a list are read with its end. -/
private theorem readItems_slots {slots : List Slot} (nonempty : slots ≠ []) (proper : ∀ slot ∈ slots, slot.Proper)
    (reads : ∀ slot ∈ slots, Reads slot.datum slot.text)
    (enough : (separated Slot.written slots).length < steps) (rest : Text) :
    readItems steps (skipSpace (separated Slot.written slots ++ ']' :: rest)) =
      some (slots.map Slot.datum, rest) := by
  induction slots generalizing steps with
  | nil => exact absurd rfl nonempty
  | cons slot slots ih =>
    obtain ⟨left, rfl⟩ := Nat.exists_eq_succ_of_ne_zero (Nat.ne_zero_of_lt enough)
    obtain ⟨firstProper, othersProper⟩ := List.forall_mem_cons.1 proper
    obtain ⟨firstReads, othersRead⟩ := List.forall_mem_cons.1 reads
    have fits := (separated_begins Slot.written slot slots).length_le
    by_cases last : slots = []
    · subst last
      rw [separated_singleton]
      exact readItems_succ slot firstProper firstReads (by omega) (c := ']') (by decide) rest
    · simp only [separated_cons Slot.written slot last, List.length_append, List.length_cons] at enough fits
      have others : readItems left (skipSpace (separated Slot.written slots ++ ']' :: rest)) =
          some (slots.map Slot.datum, rest) :=
        ih last othersProper othersRead (by omega)
      rw [separated_cons Slot.written slot last, List.append_assoc, List.cons_append,
        readItems_succ slot firstProper firstReads (by omega) (c := ',') (by decide)]
      simp only [others, Option.map_some, List.map_cons]

/-- A member as the reader gives it: its name, if it holds a text, and its value. -/
def Member.read (m : Member) : Option Text × Data :=
  (textOfParts? m.parts, m.value.datum)

/-- One member of a record is read, and what ends it tells whether others follow. -/
private theorem readMembers_succ (m : Member) (proper : m.value.Proper) (reads : Reads m.value.datum m.value.text)
    (enough : m.written.length ≤ left) (ends : EndsValue c) (rest : Text) :
    readMembers (left + 1) (skipSpace (m.written ++ c :: rest)) = match c :: rest with
      | ',' :: rest => (readMembers left (skipSpace rest)).map fun (ms, rest) => (m.read :: ms, rest)
      | '\x7d' :: rest => some ([m.read], rest)
      | _ => none := by
  have name (rest : Text) : readString (m.name ++ '"' :: rest) = some (textOfParts? m.parts, rest) := by
    rw [readString, readParts_eq_some_iff.2 ⟨_, m.spelled, rfl⟩, Option.map_some]
  simp only [Member.written, List.length_append, List.length_cons] at enough
  have value := m.value.read proper reads ends (by omega : m.value.written.length ≤ left) rest
  simp only [Member.written, List.append_assoc, List.cons_append, skipSpace_spaces m.spaces_before (c := '"') rfl,
    readMembers, name, skipSpace_spaces m.spaces_gap (c := ':') rfl, value,
    skipSpace_spaces m.value.spaces_after ends.1, Member.read]
  rfl

/-- The members of a record are read with its end. -/
private theorem readMembers_members {members : List Member} (nonempty : members ≠ [])
    (proper : ∀ m ∈ members, m.value.Proper) (reads : ∀ m ∈ members, Reads m.value.datum m.value.text)
    (enough : (separated Member.written members).length < steps) (rest : Text) :
    readMembers steps (skipSpace (separated Member.written members ++ '\x7d' :: rest)) =
      some (members.map Member.read, rest) := by
  induction members generalizing steps with
  | nil => exact absurd rfl nonempty
  | cons m members ih =>
    obtain ⟨left, rfl⟩ := Nat.exists_eq_succ_of_ne_zero (Nat.ne_zero_of_lt enough)
    obtain ⟨firstProper, othersProper⟩ := List.forall_mem_cons.1 proper
    obtain ⟨firstReads, othersRead⟩ := List.forall_mem_cons.1 reads
    have fits := (separated_begins Member.written m members).length_le
    by_cases last : members = []
    · subst last
      rw [separated_singleton]
      exact readMembers_succ m firstProper firstReads (by omega) (c := '\x7d') (by decide) rest
    · simp only [separated_cons Member.written m last, List.length_append, List.length_cons] at enough fits
      have others :
          readMembers left (skipSpace (separated Member.written members ++ '\x7d' :: rest)) =
            some (members.map Member.read, rest) :=
        ih last othersProper othersRead (by omega)
      rw [separated_cons Member.written m last, List.append_assoc, List.cons_append,
        readMembers_succ m firstProper firstReads (by omega) (c := ',') (by decide)]
      simp only [others, Option.map_some, List.map_cons]

private theorem mapM_read_eq_some_iff {members : List Member} :
    (members.map Member.read).mapM (fun m => m.1.map (·, m.2)) = some fields ↔
      List.Forall₂ Member.Names members fields := by
  have same (m : Member) (field : Text × Data) : m.read.1.map (·, m.read.2) = some field ↔ m.Names field := by
    obtain ⟨name, d⟩ := field
    simp [Member.read, Member.Names, textOfParts?_eq_some_iff]
  rw [mapM_eq_some_iff, List.forall₂_map_left_iff]
  simp only [same]

/-- Members whose names hold texts make a record. -/
theorem dataOfMembers_named {members : List Member} (named : List.Forall₂ Member.Names members fields) :
    dataOfMembers (members.map Member.read) = .record fields := by
  simp only [dataOfMembers, mapM_read_eq_some_iff.2 named]

/-- With a name that holds no text, there is no record. -/
theorem dataOfMembers_unnamed {members : List Member} (inside : m ∈ members) (alone : ∀ s, ¬ Joins m.parts s) :
    dataOfMembers (members.map Member.read) = .unreadable := by
  have nothing : (members.map Member.read).mapM (fun m => m.1.map (·, m.2)) = none :=
    mapM_eq_none_iff.2 ⟨m.read, List.mem_map_of_mem inside, by
      rw [Member.read, textOfParts?_eq_none_iff.2 alone, Option.map_none]⟩
  simp only [dataOfMembers, nothing]

/-- The first item of a list stands where its spaces end. -/
private theorem slots_begin {slot : Slot} (proper : slot.Proper) (slots : List Slot) (rest : Text) :
    ∃ c more, skipSpace (separated Slot.written (slot :: slots) ++ rest) = c :: more ∧ c ≠ ']' := by
  obtain ⟨c, more, begins, -, inside⟩ := Writes.begins proper
  obtain ⟨others, joined⟩ := separated_begins Slot.written slot slots
  refine ⟨c, more ++ (slot.after ++ (others ++ rest)), ?_, inside⟩
  rw [← joined, List.append_assoc, slot.skip proper, begins, List.cons_append]

private theorem members_begin (m : Member) (members : List Member) (rest : Text) :
    ∃ more, skipSpace (separated Member.written (m :: members) ++ rest) = '"' :: more := by
  obtain ⟨others, joined⟩ := separated_begins Member.written m members
  refine ⟨m.name ++ '"' :: (m.gap ++ ':' :: m.value.written) ++ (others ++ rest), ?_⟩
  rw [← joined, Member.written]
  simp only [List.append_assoc, List.cons_append, skipSpace_spaces m.spaces_before (c := '"') rfl]

/-- A record with members is read, whatever its names hold. -/
private theorem readValue_members {members : List Member} (nonempty : members ≠ [])
    (proper : ∀ m ∈ members, m.value.Proper) (reads : ∀ m ∈ members, Reads m.value.datum m.value.text)
    (made : dataOfMembers (members.map Member.read) = d) :
    Reads d ('\x7b' :: (separated Member.written members ++ ['\x7d'])) := by
  refine reads_cons fun left rest enough _ => ?_
  simp only [List.length_append, List.length_cons, List.length_nil] at enough
  have read : readMembers left
      (skipSpace (separated Member.written members ++ '\x7d' :: rest)) =
        some (members.map Member.read, rest) :=
    readMembers_members nonempty proper reads (by omega) rest
  obtain ⟨m, others, rfl⟩ := List.exists_cons_of_ne_nil nonempty
  obtain ⟨more, begins⟩ := members_begin m others ('\x7d' :: rest)
  rw [begins] at read
  simp only [List.cons_append, List.append_assoc, List.nil_append, readValue, begins]
  change (readMembers left ('"' :: more)).map _ = _
  rw [read, Option.map_some, made]

private theorem readValue_string (spelled : Body parts body) (made : dataOfString (textOfParts? parts) = d) :
    Reads d ('"' :: (body ++ ['"'])) := by
  refine reads_cons fun left rest _ _ => ?_
  have read : readParts (body ++ '"' :: rest) = some (parts, rest) := readParts_eq_some_iff.2 ⟨body, spelled, rfl⟩
  simp only [List.cons_append, List.append_assoc, List.nil_append, readValue, readString, read, Option.map_some,
    made]

private theorem readValue_numeral (numeral : Numeral parts w) : Reads parts.data w := by
  obtain ⟨c, more, rfl, begins⟩ := numeral.begins
  refine reads_cons fun left rest _ stops => ?_
  have read := numeral.read stops
  obtain ⟨-, n, t, f, quote, bracket, brace⟩ := beginsNumeral_ne begins
  rw [List.cons_append] at read
  simp [readValue, n, t, f, quote, bracket, brace, read]

/-- A text of data is read as these data. -/
theorem Writes.reads (writes : Writes d w) : Reads d w := by
  -- The induction is on the grammar. Only a number asks what follows it; all other texts end by themselves.
  induction writes with
  | null | true | false =>
    exact reads_cons fun _ _ _ _ => rfl
  | number numeral value => exact value ▸ readValue_numeral numeral
  | text spelled joined =>
    exact readValue_string spelled (by rw [textOfParts?_eq_some_iff.2 joined, dataOfString])
  | unpaired spelled alone =>
    exact readValue_string spelled (by rw [textOfParts?_eq_none_iff.2 alone, dataOfString])
  | emptyList spaces | emptyRecord spaces =>
    refine reads_cons fun left rest _ _ => ?_
    simp only [List.cons_append, List.append_assoc, List.nil_append, readValue,
      skipSpace_spaces spaces (c := ']') rfl, skipSpace_spaces spaces (c := '\x7d') rfl]
  | list slots nonempty each ih =>
    refine reads_cons fun left rest enough _ => ?_
    simp only [List.length_append, List.length_cons, List.length_nil] at enough
    have read : readItems left (skipSpace (separated Slot.written slots ++ ']' :: rest)) =
        some (slots.map Slot.datum, rest) :=
      readItems_slots nonempty each ih (by omega) rest
    obtain ⟨slot, others, rfl⟩ := List.exists_cons_of_ne_nil nonempty
    obtain ⟨c, more, begins, inside⟩ := slots_begin (each slot (by simp)) others (']' :: rest)
    rw [begins] at read
    simp only [List.cons_append, List.append_assoc, List.nil_append, readValue, begins]
    simp [inside, read]
  | record members nonempty each named ih =>
    exact readValue_members nonempty each ih (dataOfMembers_named named)
  | unnamed members each inside alone ih =>
    exact readValue_members (List.ne_nil_of_mem inside) each ih (dataOfMembers_unnamed inside alone)

/-! ## What is read is written -/

/-- What reading with a number of steps gives has a text in the grammar. Items and members are read without the
spaces before the first of them, so these are given with it. -/
structure Sound (steps : Nat) : Prop where
  value {s d rest} (read : readValue steps s = some (d, rest)) : ∃ w, s = w ++ rest ∧ Writes d w
  items {s before ds rest} (read : readItems steps s = some (ds, rest)) (spaces : Spaces before) :
    ∃ slots : List Slot, slots ≠ [] ∧ slots.map Slot.datum = ds ∧ (∀ slot ∈ slots, slot.Proper) ∧
      before ++ s = separated Slot.written slots ++ ']' :: rest
  members {s before ms rest} (read : readMembers steps s = some (ms, rest)) (spaces : Spaces before) :
    ∃ members : List Member, members ≠ [] ∧ members.map Member.read = ms ∧ (∀ m ∈ members, m.value.Proper) ∧
      before ++ s = separated Member.written members ++ '\x7d' :: rest

/-- A value that is read after spaces fills a slot up to the next character that is no space. -/
theorem Sound.slot (sound : Sound steps) (spaces : Spaces before)
    (read : readValue steps s = some (d, rest)) :
    ∃ slot : Slot, slot.datum = d ∧ slot.Proper ∧ before ++ s = slot.written ++ skipSpace rest := by
  obtain ⟨w, rfl, writes⟩ := sound.value read
  obtain ⟨after, spaces_after, split⟩ := exists_spaces rest
  refine ⟨⟨before, d, w, after, spaces, spaces_after⟩, rfl, writes, ?_⟩
  simp only [Slot.written, List.append_assoc, ← split]

private theorem value_of_string
    (read : (readString s).map (fun (t, rest) => (dataOfString t, rest)) = some (d, rest)) :
    ∃ w, '"' :: s = w ++ rest ∧ Writes d w := by
  obtain ⟨⟨t, left⟩, string, made⟩ := Option.map_eq_some_iff.1 read
  obtain ⟨⟨parts, left⟩, found, joined⟩ := Option.map_eq_some_iff.1 string
  obtain ⟨body, spelled, rfl⟩ := readParts_eq_some_iff.1 found
  cases joined
  cases made
  refine ⟨'"' :: (body ++ ['"']), by simp, ?_⟩
  cases joined : textOfParts? parts with
  | none => exact .unpaired spelled (textOfParts?_eq_none_iff.1 joined)
  | some t => exact .text spelled (textOfParts?_eq_some_iff.1 joined)

/-- Members that are written make a record or something that is unreadable. -/
private theorem writes_members {members : List Member} (nonempty : members ≠ [])
    (proper : ∀ m ∈ members, m.value.Proper) :
    Writes (dataOfMembers (members.map Member.read))
      ('\x7b' :: (separated Member.written members ++ ['\x7d'])) := by
  cases named : (members.map Member.read).mapM (fun m => m.1.map (·, m.2)) with
  | some fields =>
    have named := mapM_read_eq_some_iff.1 named
    exact dataOfMembers_named named ▸ .record members nonempty proper named
  | none =>
    obtain ⟨field, listed, nothing⟩ := mapM_eq_none_iff.1 named
    obtain ⟨m, inside, rfl⟩ := List.mem_map.1 listed
    have alone := textOfParts?_eq_none_iff.1 (Option.map_eq_none_iff.1 nothing)
    exact dataOfMembers_unnamed inside alone ▸ .unnamed members proper inside alone

private theorem Sound.value_succ (sound : Sound steps) (read : readValue (steps + 1) s = some (d, rest)) :
    ∃ w, s = w ++ rest ∧ Writes d w := by
  unfold readValue at read
  split at read
  · cases read; exact ⟨_, rfl, .null⟩
  · cases read; exact ⟨_, rfl, .true⟩
  · cases read; exact ⟨_, rfl, .false⟩
  · exact value_of_string read
  · rename_i inside
    obtain ⟨before, spaces, split⟩ := exists_spaces inside
    split at read
    · rename_i closed
      cases read
      refine ⟨'[' :: (before ++ [']']), ?_, .emptyList spaces⟩
      rw [split, closed]
      simp
    · obtain ⟨⟨items, left⟩, found, made⟩ := Option.map_eq_some_iff.1 read
      obtain ⟨slots, nonempty, rfl, proper, joined⟩ := sound.items found spaces
      cases made
      refine ⟨_, ?_, .list slots nonempty proper⟩
      rw [split, joined]
      simp
  · rename_i inside
    obtain ⟨before, spaces, split⟩ := exists_spaces inside
    split at read
    · rename_i closed
      cases read
      refine ⟨'\x7b' :: (before ++ ['\x7d']), ?_, .emptyRecord spaces⟩
      rw [split, closed]
      simp
    · obtain ⟨⟨ms, left⟩, found, made⟩ := Option.map_eq_some_iff.1 read
      obtain ⟨members, nonempty, rfl, proper, joined⟩ := sound.members found spaces
      cases made
      refine ⟨_, ?_, writes_members nonempty proper⟩
      rw [split, joined]
      simp
  · obtain ⟨⟨parts, left⟩, found, made⟩ := Option.map_eq_some_iff.1 read
    obtain ⟨w, rfl, numeral⟩ := numeral_of_read? found
    cases made
    exact ⟨w, rfl, .number numeral rfl⟩

private theorem Sound.items_succ (sound : Sound steps) (read : readItems (steps + 1) s = some (ds, rest))
    (spaces : Spaces before) :
    ∃ slots : List Slot, slots ≠ [] ∧ slots.map Slot.datum = ds ∧ (∀ slot ∈ slots, slot.Proper) ∧
      before ++ s = separated Slot.written slots ++ ']' :: rest := by
  unfold readItems at read
  split at read
  · cases read
  rename_i d left value
  obtain ⟨slot, rfl, proper, split⟩ := sound.slot spaces value
  rw [split]
  split at read
  · rename_i more comma
    obtain ⟨⟨ds, left⟩, found, made⟩ := Option.map_eq_some_iff.1 read
    obtain ⟨between, spaces_between, apart⟩ := exists_spaces more
    obtain ⟨slots, nonempty, rfl, others, joined⟩ := sound.items found spaces_between
    cases made
    refine ⟨slot :: slots, List.cons_ne_nil _ _, rfl, List.forall_mem_cons.2 ⟨proper, others⟩, ?_⟩
    rw [separated_cons Slot.written slot nonempty, comma, apart, joined]
    simp
  · rename_i closed
    cases read
    refine ⟨[slot], List.cons_ne_nil _ _, rfl, by simpa using proper, ?_⟩
    rw [closed]
    rfl
  · cases read

private theorem Sound.members_succ (sound : Sound steps) (read : readMembers (steps + 1) s = some (ms, rest))
    (spaces : Spaces before) :
    ∃ members : List Member, members ≠ [] ∧ members.map Member.read = ms ∧ (∀ m ∈ members, m.value.Proper) ∧
      before ++ s = separated Member.written members ++ '\x7d' :: rest := by
  unfold readMembers at read
  split at read
  on_goal 2 => cases read
  split at read
  · cases read
  rename_i quoted name afterName string
  obtain ⟨⟨parts, left⟩, found, joined⟩ := Option.map_eq_some_iff.1 string
  obtain ⟨body, spelled, rfl⟩ := readParts_eq_some_iff.1 found
  cases joined
  -- From here on the parts of the first member come up in the order in which they are read.
  obtain ⟨gap, spaces_gap, apart⟩ := exists_spaces afterName
  split at read
  on_goal 2 => cases read
  rename_i afterColon colon
  obtain ⟨front, spaces_front, start⟩ := exists_spaces afterColon
  split at read
  · cases read
  rename_i d afterValue value
  obtain ⟨slot, rfl, proper, split⟩ := sound.slot spaces_front value
  let m : Member := ⟨before, parts, body, gap, slot, spaces, spelled, spaces_gap⟩
  have whole : before ++ '"' :: (body ++ '"' :: afterName) = m.written ++ skipSpace afterValue := by
    rw [apart, colon, start, split]
    simp [m, Member.written]
  rw [whole]
  split at read
  · rename_i more comma
    obtain ⟨⟨ms, left⟩, found, made⟩ := Option.map_eq_some_iff.1 read
    obtain ⟨between, spaces_between, apart⟩ := exists_spaces more
    obtain ⟨members, nonempty, rfl, others, joined⟩ := sound.members found spaces_between
    cases made
    refine ⟨m :: members, List.cons_ne_nil _ _, rfl, List.forall_mem_cons.2 ⟨proper, others⟩, ?_⟩
    rw [separated_cons Member.written m nonempty, comma, apart, joined]
    simp
  · rename_i closed
    cases read
    refine ⟨[m], List.cons_ne_nil _ _, rfl, by simpa using proper, ?_⟩
    rw [closed]
    rfl
  · cases read

theorem sound (steps : Nat) : Sound steps := by
  induction steps with
  | zero => exact ⟨nofun, nofun, nofun⟩
  | succ steps ih => exact ⟨ih.value_succ, ih.items_succ, ih.members_succ⟩

/-- A text is read as some data exactly where it is a text of them. -/
theorem read?_eq_some_iff : Json.read? s = some d ↔ Document d s := by
  constructor
  · intro read
    unfold Json.read? at read
    split at read
    · rename_i value
      split at read
      · rename_i nothing
        cases read
        obtain ⟨before, spaces, split⟩ := exists_spaces s
        obtain ⟨slot, made, proper, whole⟩ := (sound _).slot spaces value
        rw [← split, List.isEmpty_iff.1 nothing, List.append_nil] at whole
        exact ⟨slot, whole.symm, made, proper⟩
      · cases read
    · cases read
  · rintro ⟨slot, rfl, rfl, proper⟩
    have start := slot.skip proper []
    rw [List.append_nil, List.append_nil] at start
    have stops : Stops slot.after := List.append_nil slot.after ▸ stops_spaces slot.spaces_after (by simp [Stops])
    have enough : slot.text.length ≤ 2 * slot.written.length + 1 := by
      simp only [Slot.written, List.length_append]
      omega
    have nothing : skipSpace slot.after = [] := by
      rw [← List.append_nil slot.after, skipSpace, List.dropWhile_append_of_pos slot.spaces_after,
        List.dropWhile_nil]
    rw [Json.read?, start, Writes.reads proper _ _ enough stops]
    simp only [nothing, List.isEmpty_nil, if_true]

/-- A text is one of some data at most. -/
theorem Document.unique (first : Document d s) (second : Document e s) : d = e :=
  Option.some.inj ((read?_eq_some_iff.2 first).symm.trans (read?_eq_some_iff.2 second))

end ColumnLineage.JsonGrammar
