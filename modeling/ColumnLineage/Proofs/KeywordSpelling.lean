import ColumnLineage.Proofs.TextPieces

/-! How keywords stand in a text. A keyword is known by the capitals of its letters, and a scan of raw text
by their folded forms. Characters with several capitals hold pairs of letters, and the dotless `i` is folded
otherwise than its capital; a keyword without those pairs and without `I` folds as its letters do. -/

namespace ColumnLineage.KeywordSpelling
open Sql
open TextPieces (Piece)

/-! ## Capitals and folding -/

/-- The capitals of characters that have more than one. -/
def ligatures : List Text :=
  ["SS", "FF", "FI", "FL", "FFI", "FFL", "ST"].map String.toList

private theorem foldCase_toUpper (c : Char) : foldCase c.toUpper = foldCase c := by
  by_cases small : 'a'.val ≤ c.val ∧ c.val ≤ 'z'.val
  · have letters : ∀ n ∈ List.range' 97 26,
        foldCase (Char.ofNat n).toUpper = foldCase (Char.ofNat n) := by decide
    have low : 97 ≤ c.toNat := small.1
    have high : c.toNat ≤ 122 := small.2
    have letter := letters c.toNat (List.mem_range'_1.2 ⟨low, by omega⟩)
    rwa [Char.ofNat_toNat] at letter
  · have same : c.toUpper = c := dif_neg small
    rw [same]

/-- A character has one capital, which folds as it does unless it is the dotless `i`, or it is written
with a ligature. -/
private theorem capitals_cases (c : Char) :
    (∃ capital, capitals c = [capital] ∧ (foldCase c = foldCase capital ∨ capital = 'I')) ∨
      capitals c ∈ ligatures := by
  by_cases listed : c ∈ ['ı', 'ſ', 'ß', 'ﬀ', 'ﬁ', 'ﬂ', 'ﬃ', 'ﬄ', 'ﬅ', 'ﬆ']
  · simp only [List.mem_cons, List.not_mem_nil, or_false] at listed
    rcases listed with rfl | rfl | rfl | rfl | rfl | rfl | rfl | rfl | rfl | rfl
    · exact .inl ⟨'I', rfl, .inr rfl⟩
    · exact .inl ⟨'S', rfl, .inl rfl⟩
    all_goals exact .inr (by decide)
  · simp only [List.mem_cons, List.not_mem_nil, or_false, not_or] at listed
    obtain ⟨notDotless, notLongS, others⟩ := listed
    refine .inl ⟨c.toUpper, ?_, .inl (foldCase_toUpper c).symm⟩
    simp only [capitals, notDotless, notLongS, others, if_false]

/-- A text with the capitals of a word folds as the word does, if the word has no ligature and no `I`. -/
theorem fold_of_toCapitals {value word : Text} (same : Text.toCapitals value = word)
    (apart : ∀ ligature ∈ ligatures, ¬ ligature <:+: word) (dotted : 'I' ∉ word) :
    value.map foldCase = word.map foldCase := by
  induction value generalizing word with
  | nil =>
    obtain rfl : [] = word := same
    rfl
  | cons c value ih =>
    obtain rfl : capitals c ++ Text.toCapitals value = word := same
    rcases capitals_cases c with ⟨capital, single, folds⟩ | ligature
    · rw [single] at apart dotted ⊢
      have rest := ih rfl (fun ligature member inside => apart ligature member
        (inside.trans (List.suffix_append _ _).isInfix)) (fun member => dotted (by simp [member]))
      have first : foldCase c = foldCase capital := by
        rcases folds with folds | rfl
        · exact folds
        · exact absurd (by simp) dotted
      simp only [List.map_cons, rest, first, List.singleton_append]
    · exact absurd (List.prefix_append _ _).isInfix (apart _ ligature)

/-! ## Keywords among others -/

section
variable {word : Word} {few many : List String}

theorem isAnyOf_iff :
    word.isAnyOf few = true ↔
      word.quote = none ∧ ∃ keyword ∈ few, keyword.toList = Text.toCapitals word.value := by
  simp [Word.isAnyOf]

theorem isAnyOf_mono (among : few ⊆ many) (named : word.isAnyOf few = true) :
    word.isAnyOf many = true := by
  obtain ⟨plain, keyword, member, same⟩ := isAnyOf_iff.1 named
  exact isAnyOf_iff.2 ⟨plain, keyword, among member, same⟩

theorem not_isAnyOf_of_apart (apart : ∀ keyword ∈ few, keyword ∉ many) (named : word.isAnyOf few = true) :
    word.isAnyOf many = false := by
  rw [← Bool.not_eq_true]
  intro other
  obtain ⟨-, keyword, member, same⟩ := isAnyOf_iff.1 named
  obtain ⟨-, second, among, spelled⟩ := isAnyOf_iff.1 other
  obtain rfl : keyword = second := String.toList_injective (same.trans spelled.symm)
  exact apart keyword member among

end

/-! ## Keywords in pieces -/

/-- A word without quotes stands in its text as it is. -/
theorem spelling_of_unquoted {piece : Piece} {value : Text} (legible : piece.Legible)
    (word : piece.token = .word ⟨none, value⟩) : piece.spelling = value := by
  obtain ⟨token, spelling⟩ := piece
  obtain rfl : token = _ := word
  rcases legible.spelled with same | altered
  · exact same.symm
  · cases altered

/-- A piece that is a keyword folds to it, if the keyword has no ligature and no `I`. -/
theorem folds_of_isAnyOf {piece : Piece} {word : String} (legible : piece.Legible)
    (named : piece.token.isAnyOf [word] = true)
    (apart : ∀ ligature ∈ ligatures, ¬ ligature <:+: word.toList) (dotted : 'I' ∉ word.toList) :
    piece.spelling.map foldCase = word.toList.map foldCase := by
  cases kind : piece.token with
  | word spelled =>
    obtain ⟨quote, value⟩ := spelled
    rw [kind, Token.isAnyOf, Word.isAnyOf, Bool.and_eq_true] at named
    obtain ⟨plain, capitals⟩ := named
    obtain rfl : quote = none := Option.isNone_iff_eq_none.1 plain
    have capitals : Text.toCapitals value = word.toList := by simpa using capitals
    rw [spelling_of_unquoted legible kind]
    exact fold_of_toCapitals capitals apart dotted
  | _ =>
    rw [kind] at named
    cases named

theorem folds_of_from {piece : Piece} (legible : piece.Legible)
    (named : piece.token.isAnyOf ["FROM"] = true) :
    piece.spelling.map foldCase = "FROM".toList.map foldCase :=
  folds_of_isAnyOf legible named (by decide +kernel) (by decide +kernel)

end ColumnLineage.KeywordSpelling
