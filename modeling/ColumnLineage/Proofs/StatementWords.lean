import ColumnLineage.Proofs.Trimming
import ColumnLineage.Report.Processing

/-! Words in raw text, in any case. A scan that compares folded characters from left to right finds a
word exactly where a run of neighbouring characters folds to it, and such a run is there in a text
exactly if it is there without the blanks at its ends. -/

namespace ColumnLineage.StatementWords
open Report (mentionsFolded looksLikeSql)

/-- Some neighbouring characters of a text spell a word, up to case folding. -/
def Spells (s word : Text) : Prop :=
  ∃ run, run <:+: s ∧ run.map foldCase = word.map foldCase

private theorem afterFolded?_isSome_iff (word s : Text) :
    (Text.afterFolded? word s).isSome = true ↔
      ∃ run, run <+: s ∧ run.map foldCase = word.map foldCase := by
  rw [Option.isSome_iff_exists]
  constructor
  · rintro ⟨rest, found⟩
    obtain ⟨run, rfl, folds⟩ := Text.afterFolded?_eq_some_iff.1 found
    exact ⟨run, List.prefix_append _ _, folds⟩
  · rintro ⟨run, ⟨rest, rfl⟩, folds⟩
    exact ⟨rest, Text.afterFolded?_eq_some_iff.2 ⟨run, rfl, folds⟩⟩

/-- The scan for a word finds it exactly where it is spelled. -/
theorem mentionsFolded_iff (word s : Text) : mentionsFolded word s = true ↔ Spells s word := by
  induction s with
  | nil =>
    rw [mentionsFolded, List.isEmpty_iff]
    constructor
    · rintro rfl
      exact ⟨[], List.infix_rfl, rfl⟩
    · rintro ⟨run, inside, folded⟩
      obtain rfl := List.infix_nil.1 inside
      simpa using folded.symm
  | cons c s ih =>
    rw [mentionsFolded, Bool.or_eq_true, afterFolded?_isSome_iff, ih]
    constructor
    · rintro (⟨run, start, folded⟩ | ⟨run, inside, folded⟩)
      · exact ⟨run, start.isInfix, folded⟩
      · exact ⟨run, List.infix_cons inside, folded⟩
    · rintro ⟨run, inside, folded⟩
      rcases List.infix_cons_iff.1 inside with start | inside
      · exact .inl ⟨run, start, folded⟩
      · exact .inr ⟨run, inside, folded⟩

/-- The gate lets through exactly the texts that spell one of the three words. -/
theorem looksLikeSql_iff (s : Text) :
    looksLikeSql s = true ↔
      Spells s "CREATE".toList ∨ Spells s "INSERT".toList ∨ Spells s "SELECT".toList := by
  simp only [looksLikeSql, Report.statementWords, List.any_cons, List.any_nil, Bool.or_false,
    Bool.or_eq_true, mentionsFolded_iff]

/-- An empty text spells none of the words. -/
theorem not_spells_nil {word : Text} (nonempty : word ≠ []) : ¬ Spells [] word := by
  rintro ⟨run, inside, folded⟩
  obtain rfl := List.infix_nil.1 inside
  exact nonempty (List.map_eq_nil_iff.1 folded.symm)

/-- A blank folds to itself. -/
theorem foldCase_of_isBlank {c : Char} (blank : isBlank c = true) : foldCase c = c := by
  simp only [isBlank, CodePoint.blank, CodePoint.Ranges.has, Bool.and_eq_true, Bool.or_eq_true,
    decide_eq_true_eq, Bool.false_eq_true, or_false] at blank
  have notLongS : c ≠ 'ſ' := by rintro rfl; revert blank; decide
  have notKelvin : c ≠ '\u212A' := by rintro rfl; revert blank; decide
  have notCapital : ¬ (c.val ≥ 'A'.val ∧ c.val ≤ 'Z'.val) := by
    rintro ⟨low, high⟩
    have low : 65 ≤ c.toNat := low
    have high : c.toNat ≤ 90 := high
    omega
  have same : c.toLower = c := dif_neg notCapital
  rw [foldCase, if_neg notLongS, if_neg notKelvin, same]

/-- Folding neither makes nor removes a blank. -/
theorem isBlank_foldCase (c : Char) : isBlank (foldCase c) = isBlank c := by
  cases blank : isBlank c with
  | true => rw [foldCase_of_isBlank blank, blank]
  | false =>
    unfold foldCase
    split
    · decide +kernel
    · split
      · decide +kernel
      · by_cases capital : c.val ≥ 'A'.val ∧ c.val ≤ 'Z'.val
        · have letters : ∀ n ∈ List.range' 65 26, isBlank (Char.ofNat n).toLower = false := by
            decide +kernel
          have low : 65 ≤ c.toNat := capital.1
          have high : c.toNat ≤ 90 := capital.2
          have letter := letters c.toNat (List.mem_range'_1.2 ⟨low, by omega⟩)
          rwa [Char.ofNat_toNat] at letter
        · rw [show c.toLower = c from dif_neg capital, blank]

/-- What is tested of each character of a text holds of them all. -/
theorem forall_mem_of_all {s : Text} {kind : Char → Prop} [DecidablePred kind]
    (all : (s.all fun c => decide (kind c)) = true) : ∀ c ∈ s, kind c := by
  intro c member
  exact of_decide_eq_true (List.all_eq_true.1 all c member)

/-- Letters that fold as a word does have no blank where the word has none. -/
theorem not_isBlank_of_folds {letters word : Text} (folds : letters.map foldCase = word.map foldCase)
    (solid : ∀ c ∈ word, isBlank c = false) : ∀ c ∈ letters, isBlank c = false := by
  intro c member
  have image : foldCase c ∈ word.map foldCase := folds ▸ List.mem_map_of_mem member
  obtain ⟨w, inWord, same⟩ := List.mem_map.1 image
  rw [← isBlank_foldCase, ← same, isBlank_foldCase]
  exact solid w inWord

/-- Blanks at the ends of a text spell no part of a word without blanks. -/
theorem spells_trim_iff {s word : Text} (solid : ∀ c ∈ word, isBlank c = false) :
    Spells (Text.trim s) word ↔ Spells s word := by
  constructor
  · rintro ⟨run, inside, folded⟩
    exact ⟨run, inside.trans (Text.trim_infix s), folded⟩
  · rintro ⟨run, inside, folded⟩
    exact ⟨run, Text.infix_trim (not_isBlank_of_folds folded solid) inside, folded⟩

end ColumnLineage.StatementWords
