/-!
Classes of characters are given as rising lists of code point ranges, both ends included. In a list
that rises the search for a code point misses none (`Ranges.has_iff`).
-/

namespace ColumnLineage.CodePoint

/-- A class of code points: ranges in rising order, both ends included. -/
abbrev Ranges := List (Nat × Nat)

namespace Ranges

/-- Whether a code point lies in one of the ranges. The ranges rise, so the search ends at the
first one that starts beyond the code point. -/
def has : Ranges → Nat → Bool
  | [], _ => false
  | (first, last) :: rest, n => first ≤ n && (n ≤ last || has rest n)

/-- Whether the ranges stand in rising order, apart from each other and from `least` on. -/
def risesFrom : Nat → Ranges → Bool
  | _, [] => true
  | least, (first, last) :: rest => least ≤ first && first ≤ last && risesFrom (last + 1) rest

theorem le_of_mem_of_risesFrom {least : Nat} {ranges : Ranges} (rises : risesFrom least ranges) :
    ∀ r ∈ ranges, least ≤ r.1 := by
  induction ranges generalizing least with
  | nil => simp
  | cons head rest ih =>
    simp only [risesFrom, Bool.and_eq_true, decide_eq_true_eq] at rises
    intro r member
    rcases List.mem_cons.1 member with rfl | member
    · exact rises.1.1
    · have := ih rises.2 r member
      omega

/-- The search finds exactly the code points of the ranges. -/
theorem has_iff {least n : Nat} {ranges : Ranges} (rises : risesFrom least ranges) :
    ranges.has n = true ↔ ∃ r ∈ ranges, r.1 ≤ n ∧ n ≤ r.2 := by
  induction ranges generalizing least with
  | nil => simp [has]
  | cons head rest ih =>
    simp only [risesFrom, Bool.and_eq_true, decide_eq_true_eq] at rises
    simp only [has, Bool.and_eq_true, Bool.or_eq_true, decide_eq_true_eq, ih rises.2,
      List.mem_cons, exists_eq_or_imp]
    constructor
    · rintro ⟨above, within | found⟩
      · exact .inl ⟨above, within⟩
      · exact .inr found
    · rintro (⟨above, within⟩ | ⟨r, member, above, within⟩)
      · exact ⟨above, .inl within⟩
      · have := le_of_mem_of_risesFrom rises.2 r member
        exact ⟨by omega, .inr ⟨r, member, above, within⟩⟩

end Ranges

end ColumnLineage.CodePoint
