import ColumnLineage.Json.Writing
import ColumnLineage.Proofs.JsonGrammar

/-! Written data against reading. What is written for data without numbers is a text of them in the grammar,
without any space, so it is read back as they were. The text of such data tells them apart from all others, and
as it holds no character below the space it is one line. -/

namespace ColumnLineage.WrittenData
open Json JsonScalars JsonGrammar

/-! ## Strings -/

/-- A character is written as itself, after a backslash, or by its number if it is below the space. -/
theorem writeChar_cases (c : Char) :
    (∃ e, writeChar c = ['\\', e] ∧ escaped? e = some c) ∨
      (c.toNat < 32 ∧ writeChar c =
        ['\\', 'u', '0', '0', hexDigit (c.toNat / 16), hexDigit (c.toNat % 16)]) ∨
      (32 ≤ c.toNat ∧ c ≠ '"' ∧ c ≠ '\\' ∧ writeChar c = [c]) := by
  by_cases listed : c ∈ ['"', '\\', '\x08', '\x0c', '\n', '\r', '\t']
  · simp only [List.mem_cons, List.not_mem_nil, or_false] at listed
    rcases listed with rfl | rfl | rfl | rfl | rfl | rfl | rfl
    all_goals exact .inl ⟨_, rfl, rfl⟩
  · simp only [List.mem_cons, List.not_mem_nil, or_false, not_or] at listed
    obtain ⟨quote, backslash, others⟩ := listed
    by_cases control : c.toNat < 32
    · refine .inr (.inl ⟨control, ?_⟩)
      simp only [writeChar, quote, backslash, others, control, if_false, if_true]
    · refine .inr (.inr ⟨Nat.le_of_not_lt control, quote, backslash, ?_⟩)
      simp only [writeChar, quote, backslash, others, control, if_false]

private theorem control_digits :
    ∀ n < 32, number? 16 ['0', '0', hexDigit (n / 16), hexDigit (n % 16)] = some n ∧
      StringPart.ofUnit n = .char (Char.ofNat n) ∧
      32 ≤ (hexDigit (n / 16)).toNat ∧ 32 ≤ (hexDigit (n % 16)).toNat := by
  decide +kernel

/-- A written character is a part of a string. -/
theorem writeChar_spells (c : Char) : Spells (.char c) (writeChar c) := by
  rcases writeChar_cases c with
    ⟨e, written, escaped⟩ | ⟨control, written⟩ | ⟨solid, quote, backslash, written⟩
  · exact written ▸ .escaped escaped
  · obtain ⟨digits, unit, -⟩ := control_digits c.toNat control
    have spells := Spells.unit digits
    rwa [unit, Char.ofNat_toNat, ← written] at spells
  · exact written ▸ .plain solid quote backslash

theorem body_writeChars (s : Text) : Body (s.map .char) (s.flatMap writeChar) := by
  induction s with
  | nil => exact .nil
  | cons c s ih => exact .cons (writeChar_spells c) ih

/-! ## Data without numbers -/

/-- Data that hold no number, and nothing that cannot be read. -/
inductive Numberless : Data → Prop where
  | null : Numberless .null
  | bool (b : Bool) : Numberless (.bool b)
  | text (s : Text) : Numberless (.text s)
  | list (inside : ∀ d ∈ items, Numberless d) : Numberless (.list items)
  | record (inside : ∀ m ∈ members, Numberless m.2) : Numberless (.record members)

/-- A text that may be left out, with null in its place. -/
theorem Numberless.optionalText (text? : Option Text) : Numberless (text?.elim .null .text) := by
  cases text? with
  | none => exact .null
  | some s => exact .text s

/-- Data as they are written, without spaces around them. -/
def slot (d : Data) : Slot :=
  ⟨[], d, write d, [], .nil, .nil⟩

/-- A member as it is written. -/
def member (m : Text × Data) : Member :=
  ⟨[], m.1.map .char, m.1.flatMap writeChar, [], slot m.2, .nil, body_writeChars m.1, .nil⟩

theorem slot_written (d : Data) : (slot d).written = write d :=
  List.append_nil _

theorem member_written (m : Text × Data) : (member m).written = writeString m.1 ++ ':' :: write m.2 := by
  simp [member, slot_written, Member.written, writeString]

theorem writeItems_eq (items : List Data) : writeItems items = separated Slot.written (items.map slot) := by
  induction items with
  | nil => rfl
  | cons d items ih =>
    cases items with
    | nil => exact (slot_written d).symm
    | cons e items =>
      have more : (e :: items).map slot ≠ [] := List.cons_ne_nil _ _
      rw [writeItems, ih, List.map_cons (a := d), separated_cons Slot.written (slot d) more, slot_written]

theorem writeMembers_eq (members : List (Text × Data)) :
    writeMembers members = separated Member.written (members.map member) := by
  induction members with
  | nil => rfl
  | cons m members ih =>
    cases members with
    | nil => exact (member_written m).symm
    | cons n members =>
      have more : (n :: members).map member ≠ [] := List.cons_ne_nil _ _
      rw [writeMembers, ih, List.map_cons (a := m), separated_cons Member.written (member m) more, member_written]

/-- What is written for data without numbers is a text of them. -/
theorem write_writes (plain : Numberless d) : Writes d (write d) := by
  induction plain with
  | null => exact .null
  | bool b =>
    cases b
    · exact .false
    · exact .true
  | text s => exact .text (body_writeChars s) (joins_chars s)
  | @list items _ ih =>
    by_cases empty : items = []
    · subst empty
      exact .emptyList .nil
    · have some : items.map slot ≠ [] := mt List.map_eq_nil_iff.1 empty
      have writes := Writes.list (items.map slot) some (List.forall_mem_map.2 ih)
      have data : (items.map slot).map Slot.datum = items := by rw [List.map_map]; exact List.map_id items
      rwa [data, ← writeItems_eq] at writes
  | @record members _ ih =>
    by_cases empty : members = []
    · subst empty
      exact .emptyRecord .nil
    · have some : members.map member ≠ [] := mt List.map_eq_nil_iff.1 empty
      have named : List.Forall₂ Member.Names (members.map member) members :=
        List.forall₂_map_left_iff.2 (List.forall₂_same.2 fun m _ => ⟨joins_chars m.1, rfl⟩)
      have writes := Writes.record (members.map member) some (List.forall_mem_map.2 ih) named
      rwa [← writeMembers_eq] at writes

/-- The text of data without numbers is read as these data. -/
theorem read?_write (plain : Numberless d) : read? (write d) = some d :=
  read?_eq_some_iff.2 ⟨slot d, List.append_nil _, rfl, write_writes plain⟩

/-- The text of data without numbers tells them apart. -/
theorem write_inj {d e : Data} (plain : Numberless d) (other : Numberless e) :
    write d = write e ↔ d = e := by
  refine ⟨?_, congrArg write⟩
  intro same
  have read := read?_write plain
  rw [same, read?_write other] at read
  exact (Option.some.inj read).symm

/-! ## One line -/

/-- A text without characters below the space. -/
def Printable (s : Text) : Prop :=
  ∀ c ∈ s, 32 ≤ c.toNat

instance (s : Text) : Decidable (Printable s) :=
  List.decidableBAll _ s

theorem Printable.nil : Printable [] :=
  List.forall_mem_nil _

theorem Printable.append {s t : Text} (first : Printable s) (second : Printable t) : Printable (s ++ t) :=
  fun c member => (List.mem_append.1 member).elim (first c) (second c)

theorem Printable.cons {c : Char} {s : Text} (first : 32 ≤ c.toNat) (rest : Printable s) :
    Printable (c :: s) :=
  List.forall_mem_cons.2 ⟨first, rest⟩

private theorem printable_of_escaped? {e c : Char} (escaped : escaped? e = some c) : 32 ≤ e.toNat := by
  unfold escaped? at escaped
  split at escaped <;> first | decide | cases escaped

private theorem writeChar_printable (c : Char) : Printable (writeChar c) := by
  rcases writeChar_cases c with ⟨e, written, escaped⟩ | ⟨control, written⟩ | ⟨solid, -, -, written⟩
  · rw [written]
    exact .cons (by decide) (.cons (printable_of_escaped? escaped) .nil)
  · obtain ⟨-, -, high, low⟩ := control_digits c.toNat control
    rw [written]
    exact .cons (by decide) (.cons (by decide) (.cons (by decide) (.cons (by decide)
      (.cons high (.cons low .nil)))))
  · rw [written]
    exact .cons solid .nil

theorem writeString_printable (s : Text) : Printable (writeString s) := by
  have characters : Printable (s.flatMap writeChar) := by
    intro d member
    obtain ⟨c, -, inside⟩ := List.mem_flatMap.1 member
    exact writeChar_printable c d inside
  exact .append (.cons (by decide) characters) (.cons (by decide) .nil)

private theorem writeItems_printable {items : List Data} (printable : ∀ d ∈ items, Printable (write d)) :
    Printable (writeItems items) := by
  induction items with
  | nil => exact .nil
  | cons d items ih =>
    have first := printable d (by simp)
    have others := ih fun e member => printable e (List.mem_cons_of_mem _ member)
    cases items with
    | nil => exact first
    | cons e items => exact .append first (.cons (by decide) others)

private theorem writeMembers_printable {members : List (Text × Data)}
    (printable : ∀ m ∈ members, Printable (write m.2)) : Printable (writeMembers members) := by
  induction members with
  | nil => exact .nil
  | cons m members ih =>
    have first := (writeString_printable m.1).append (.cons (c := ':') (by decide) (printable m (by simp)))
    have others := ih fun n member => printable n (List.mem_cons_of_mem _ member)
    cases members with
    | nil => exact first
    | cons n members => exact first.append (.cons (by decide) others)

/-- Data without numbers are written in one line. -/
theorem write_printable (plain : Numberless d) : Printable (write d) := by
  induction plain with
  | null => decide
  | bool b => cases b <;> decide
  | text s => exact writeString_printable s
  | list _ ih =>
    exact .append (.cons (by decide) (writeItems_printable ih)) (.cons (by decide) .nil)
  | record _ ih =>
    exact .append (.cons (by decide) (writeMembers_printable ih)) (.cons (by decide) .nil)

end ColumnLineage.WrittenData
