import ColumnLineage.Text.Blank
import Mathlib.Data.List.DropRight

/-! Trimming. What is left of a text has no blank at its ends, so trimming it again changes nothing, and
neither do blanks that are put around it; what stands between two characters that are not blank is never
lost. -/

namespace ColumnLineage.Text

theorem trimEnd_eq_rdropWhile (s : Text) : trimEnd s = s.rdropWhile isBlank := rfl

/-- A text begins with a character that is not blank. -/
def BeginsSolid (s : Text) : Prop :=
  ∃ c more, s = c :: more ∧ isBlank c = false

/-- A text ends with a character that is not blank. -/
def EndsSolid (s : Text) : Prop :=
  ∃ front c, s = front ++ [c] ∧ isBlank c = false

instance (s : Text) : Decidable (BeginsSolid s) :=
  decidable_of_iff (s.head?.any (!isBlank ·) = true) (by cases s <;> simp [BeginsSolid])

instance (s : Text) : Decidable (EndsSolid s) :=
  decidable_of_iff (s.getLast?.any (!isBlank ·) = true) (by
    rcases List.eq_nil_or_concat s with rfl | ⟨front, last, rfl⟩ <;> simp [EndsSolid])

theorem BeginsSolid.append {s : Text} (begins : BeginsSolid s) (t : Text) : BeginsSolid (s ++ t) := by
  obtain ⟨c, more, rfl, solid⟩ := begins
  exact ⟨c, more ++ t, rfl, solid⟩

theorem EndsSolid.append {t : Text} (ends : EndsSolid t) (s : Text) : EndsSolid (s ++ t) := by
  obtain ⟨front, c, rfl, solid⟩ := ends
  exact ⟨s ++ front, c, by simp, solid⟩

theorem trimStart_of_beginsSolid {s : Text} (begins : BeginsSolid s) : trimStart s = s := by
  obtain ⟨c, more, rfl, solid⟩ := begins
  exact List.dropWhile_cons_of_neg (by simp [solid])

theorem trimEnd_of_endsSolid {s : Text} (ends : EndsSolid s) : trimEnd s = s := by
  obtain ⟨front, c, rfl, solid⟩ := ends
  rw [trimEnd_eq_rdropWhile, List.rdropWhile_concat_neg]
  simp [solid]

/-- Blanks at the end of a text are trimmed. -/
theorem trimEnd_append_of_blank {t : Text} (blank : ∀ c ∈ t, isBlank c = true) (s : Text) :
    trimEnd (s ++ t) = trimEnd s := by
  rw [trimEnd, List.reverse_append, List.dropWhile_append_of_pos, trimEnd]
  exact fun c member => blank c (List.mem_reverse.1 member)

/-- Of a text with blanks after it, trimming leaves what it leaves of the text at its end. -/
theorem trim_append_of_blank {s t : Text} (begins : BeginsSolid s)
    (blank : ∀ c ∈ t, isBlank c = true) : trim (s ++ t) = trimEnd s := by
  rw [trim, trimStart_of_beginsSolid (begins.append t), trimEnd_append_of_blank blank]

/-- Blanks at the end of a text make no difference to trimming. -/
theorem trim_append_blank (s : Text) {t : Text} (blank : ∀ c ∈ t, isBlank c = true) :
    trim (s ++ t) = trim s := by
  by_cases none : trimStart s = []
  · have all : ∀ c ∈ s ++ t, isBlank c = true :=
      List.forall_mem_append.2 ⟨List.dropWhile_eq_nil_iff.1 none, blank⟩
    rw [trim, trim, none, trimStart, List.dropWhile_eq_nil_iff.2 all]
  · have kept : trimStart (s ++ t) = trimStart s ++ t := by
      rw [trimStart, List.dropWhile_append, if_neg (by rwa [List.isEmpty_iff])]
      rfl
    rw [trim, kept, trimEnd_append_of_blank blank, trim]

/-- Trimming the end of a text stops within a part of it that is not blank. -/
theorem trimEnd_append_of_solid {t : Text} {c : Char} (member : c ∈ t) (solid : isBlank c = false)
    (s : Text) : trimEnd (s ++ t) = s ++ trimEnd t := by
  have kept : t.reverse.dropWhile isBlank ≠ [] := by
    intro none
    have blank := List.dropWhile_eq_nil_iff.1 none c (List.mem_reverse.2 member)
    simp [solid] at blank
  simp [trimEnd, List.dropWhile_append, kept]

/-- A text is what trimming leaves of its end and blanks after it. -/
theorem exists_gap (s : Text) : ∃ gap, s = trimEnd s ++ gap ∧ ∀ c ∈ gap, isBlank c = true :=
  ⟨s.rtakeWhile isBlank, List.rdropWhile_append_rtakeWhile.symm, fun _ member =>
    List.mem_rtakeWhile_imp (p := isBlank) member⟩

/-- Trimming the end of a text leaves the character that it begins with. -/
theorem BeginsSolid.trimEnd {s : Text} (begins : BeginsSolid s) : BeginsSolid (Text.trimEnd s) := by
  obtain ⟨c, more, rfl, solid⟩ := begins
  cases left : Text.trimEnd (c :: more) with
  | nil =>
    have blank := List.rdropWhile_eq_nil_iff.1 left c (by simp)
    rw [solid] at blank
    cases blank
  | cons d rest =>
    have start : d :: rest <+: c :: more := left ▸ trimEnd_isPrefix (c :: more)
    obtain ⟨rfl, -⟩ := List.cons_prefix_cons.1 start
    exact ⟨d, rest, rfl, solid⟩

theorem BeginsSolid.ne_nil {s : Text} (begins : BeginsSolid s) : s ≠ [] := by
  obtain ⟨c, more, rfl, -⟩ := begins
  exact List.cons_ne_nil c more

/-- What is left after a run was dropped, or a part at the front of it, does not begin with more of the
run. -/
theorem head_of_prefix_dropWhile {p : α → Bool} {list rest : List α} {first : α}
    (start : first :: rest <+: list.dropWhile p) : p first = false := by
  obtain ⟨more, whole⟩ := start
  have head := List.head_dropWhile_not p (l := list)
  simp only [← whole, List.cons_append, List.head_cons] at head
  exact head (List.cons_ne_nil _ _)

private theorem trimStart_trim (s : Text) : trimStart (trim s) = trim s := by
  cases left : trim s with
  | nil => rfl
  | cons c rest =>
    have start : c :: rest <+: s.dropWhile isBlank := left ▸ trimEnd_isPrefix (trimStart s)
    exact trimStart_of_beginsSolid ⟨c, rest, rfl, head_of_prefix_dropWhile start⟩

@[simp] theorem trim_trim (s : Text) : trim (trim s) = trim s := by
  conv => lhs; rw [trim]
  rw [trimStart_trim]
  exact List.rdropWhile_idempotent isBlank (trimStart s)

private theorem infix_trimStart {run s : Text} (solid : ∀ c ∈ run, isBlank c = false)
    (inside : run <:+: s) : run <:+: trimStart s := by
  induction s with
  | nil => exact inside
  | cons c s ih =>
    by_cases blank : isBlank c = true
    · rw [trimStart, List.dropWhile_cons_of_pos blank]
      rcases List.infix_cons_iff.1 inside with start | inside
      · cases run with
        | nil => exact List.nil_infix
        | cons first run =>
          obtain ⟨rfl, -⟩ := List.cons_prefix_cons.1 start
          simp [blank] at solid
      · exact ih inside
    · rwa [trimStart, List.dropWhile_cons_of_neg blank]

/-- Trimming loses no run of characters that are not blank. -/
theorem infix_trim {run s : Text} (solid : ∀ c ∈ run, isBlank c = false) (inside : run <:+: s) :
    run <:+: trim s := by
  have atStart := infix_trimStart solid inside
  have solidBack : ∀ c ∈ run.reverse, isBlank c = false :=
    fun c member => solid c (List.mem_reverse.1 member)
  have atEnd := infix_trimStart solidBack (List.reverse_infix.2 atStart)
  rw [← List.reverse_infix]
  rwa [trim, trimEnd, List.reverse_reverse]

end ColumnLineage.Text
