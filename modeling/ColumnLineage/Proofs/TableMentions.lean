import ColumnLineage.Proofs.TextPieces
import ColumnLineage.Sql.TableMention

/-! Mentions of tables in raw text. A mention is read where a text begins with letters that fold to the
phrase, blanks, and a run of word characters that goes as far as it can. Every word that a scan gives
stands in such a place. What follows a text can change what is mentioned in it only through the ends of
its last runs: a character that neither continues a word nor a gap, nor folds to a letter of the phrase,
parts the scan in two. -/

namespace ColumnLineage.TableMentions
open Sql.TableMention (read? words)

variable {phrase letters blanks word s rest : Text} {c : Char}

private theorem blank_not_wordPart :
    ∀ r ∈ CodePoint.blank, ∀ n ∈ List.range' r.1 (r.2 + 1 - r.1), CodePoint.wordPart.has n = false := by
  decide +kernel

/-- No blank stands in a word. -/
theorem not_isWordChar_of_isBlank (blank : isBlank c = true) : isWordChar c = false := by
  obtain ⟨r, member, low, high⟩ := (CodePoint.Ranges.has_iff CodePoint.blank_rises).1 blank
  have part := blank_not_wordPart r member c.toNat (List.mem_range'_1.2 ⟨low, by omega⟩)
  simp [isWordChar, TextPieces.not_isAlphabetic_of_isBlank blank, part]

theorem not_isBlank_of_isWordChar (word : isWordChar c = true) : isBlank c = false := by
  by_contra blank
  have apart := not_isWordChar_of_isBlank (by simpa using blank)
  rw [apart] at word
  cases word

/-- No run goes on where it was dropped to its end. -/
theorem takeWhile_dropWhile (p : Char → Bool) (s : Text) : (s.dropWhile p).takeWhile p = [] := by
  have parted := List.takeWhile_append_dropWhile (p := p) (l := s.dropWhile p)
  rw [List.dropWhile_idempotent] at parted
  exact List.append_left_eq_self.1 parted

/-! ## Mentions -/

/-- A mention of a table: letters that fold to the phrase, blanks, and a word that the text after it does
not continue. -/
structure Mention (phrase letters blanks word rest : Text) : Prop where
  folds : letters.map foldCase = phrase.map foldCase
  apart : blanks ≠ []
  blank : ∀ c ∈ blanks, isBlank c = true
  named : word ≠ []
  solid : ∀ c ∈ word, isWordChar c = true
  ends : rest.takeWhile isWordChar = []

/-- The word of a mention begins where its blanks end. -/
theorem Mention.begins (mention : Mention phrase letters blanks word rest) :
    Text.BeginsSolid (word ++ rest) := by
  obtain ⟨first, more, same⟩ := List.exists_cons_of_ne_nil mention.named
  refine ⟨first, more ++ rest, by rw [same, List.cons_append], ?_⟩
  apply not_isBlank_of_isWordChar
  exact mention.solid first (by simp [same])

theorem mention_of_read? (read : read? phrase s = some (word, rest)) :
    ∃ letters blanks, s = letters ++ (blanks ++ (word ++ rest)) ∧
      Mention phrase letters blanks word rest := by
  unfold read? at read
  split at read
  · rename_i first after found
    obtain ⟨letters, rfl, folds⟩ := Text.afterFolded?_eq_some_iff.1 found
    simp only at read
    split at read
    · rename_i holds
      obtain ⟨rfl, rfl⟩ := Prod.mk.inj (Option.some.inj read)
      refine ⟨letters, first :: after.takeWhile isBlank, ?_, folds, List.cons_ne_nil _ _, ?_, holds.2, ?_,
        takeWhile_dropWhile _ _⟩
      · simp [List.takeWhile_append_dropWhile]
      · exact List.forall_mem_cons.2 ⟨holds.1, fun c member => List.mem_takeWhile_imp member⟩
      · exact fun c member => List.mem_takeWhile_imp member
    · cases read
  · cases read

/-- A mention is read where a text begins with it. -/
theorem read?_of_mention (mention : Mention phrase letters blanks word rest) :
    read? phrase (letters ++ (blanks ++ (word ++ rest))) = some (word, rest) := by
  obtain ⟨b, blanks, rfl⟩ := List.exists_cons_of_ne_nil mention.apart
  obtain ⟨blank, blanksBlank⟩ := List.forall_mem_cons.1 mention.blank
  have found : Text.afterFolded? phrase (letters ++ (b :: blanks ++ (word ++ rest))) =
      some (b :: (blanks ++ (word ++ rest))) := Text.afterFolded?_eq_some_iff.2 ⟨letters, rfl, mention.folds⟩
  have gap : (blanks ++ (word ++ rest)).dropWhile isBlank = word ++ rest := by
    rw [List.dropWhile_append_of_pos blanksBlank]
    exact Text.trimStart_of_beginsSolid mention.begins
  have taken : (word ++ rest).takeWhile isWordChar = word := by
    rw [List.takeWhile_append_of_pos mention.solid, mention.ends, List.append_nil]
  have left : (word ++ rest).dropWhile isWordChar = rest := by
    have whole := List.takeWhile_append_dropWhile (p := isWordChar) (l := word ++ rest)
    rw [taken] at whole
    exact List.append_cancel_left whole
  unfold read?
  simp only [found, gap, taken, left]
  exact if_pos ⟨blank, mention.named⟩

/-- Every word of a scan stands in a mention. -/
theorem mention_of_mem_words (member : word ∈ words phrase s) :
    ∃ front letters blanks rest, s = front ++ (letters ++ (blanks ++ (word ++ rest))) ∧
      Mention phrase letters blanks word rest := by
  fun_induction words phrase s with
  | case1 => cases member
  | case2 c s first after read ih =>
    obtain ⟨letters, blanks, whole, mention⟩ := mention_of_read? read
    rcases List.mem_cons.1 member with rfl | later
    · exact ⟨[], letters, blanks, after, whole, mention⟩
    · obtain ⟨front, laterLetters, gap, rest, rfl, found⟩ := ih later
      refine ⟨letters ++ (blanks ++ (first ++ front)), laterLetters, gap, rest, ?_, found⟩
      rw [whole]
      simp only [List.append_assoc]
  | case3 c s _ ih =>
    obtain ⟨front, letters, blanks, rest, rfl, mention⟩ := ih member
    exact ⟨c :: front, letters, blanks, rest, rfl, mention⟩

/-! ## Texts one after another -/

theorem words_of_read? (read : read? phrase s = some (word, rest)) :
    words phrase s = word :: words phrase rest := by
  cases s with
  | nil => exact absurd (Sql.TableMention.length_lt_of_read? read) (by simp)
  | cons c s =>
    rw [words]
    split
    · rename_i found
      obtain ⟨rfl, rfl⟩ := Prod.mk.inj (Option.some.inj (found.symm.trans read))
      rfl
    · rename_i found
      rw [read] at found
      cases found

theorem words_of_unread (unread : read? phrase (c :: s) = none) :
    words phrase (c :: s) = words phrase s := by
  rw [words]
  split
  · rename_i found
    rw [unread] at found
    cases found
  · rfl

private theorem takeWhile_append_stop {p : Char → Bool} (stop : p c = false) (s t : Text) :
    (s ++ c :: t).takeWhile p = s.takeWhile p := by
  rw [List.takeWhile_append, List.takeWhile_cons_of_neg (by simp [stop]), List.append_nil]
  split
  · rename_i whole
    exact ((List.takeWhile_prefix p).eq_of_length whole).symm
  · rfl

private theorem dropWhile_append_stop {p : Char → Bool} (stop : p c = false) (s t : Text) :
    (s ++ c :: t).dropWhile p = s.dropWhile p ++ c :: t := by
  rw [List.dropWhile_append, List.dropWhile_cons_of_neg (by simp [stop])]
  split
  · rename_i none
    rw [List.isEmpty_iff.1 none, List.nil_append]
  · rfl

private theorem dropWhile_append_solid {p : Char → Bool} {d : Char} (member : d ∈ s) (solid : p d = false)
    (t : Text) : (s ++ t).dropWhile p = s.dropWhile p ++ t := by
  have kept : s.dropWhile p ≠ [] := by
    intro none
    have dropped := List.dropWhile_eq_nil_iff.1 none d member
    rw [solid] at dropped
    cases dropped
  rw [List.dropWhile_append, if_neg (by simpa using kept)]

/-- A text after another leaves the mention at its start as it is if its first character continues no word,
the letters are the same, and it does not continue the gap either or the gap ends before. -/
theorem read?_append {t : Text} (stop : isWordChar c = false)
    (same : Text.afterFolded? phrase (s ++ c :: t) = (Text.afterFolded? phrase s).map (· ++ c :: t))
    (shut : isBlank c = false ∨ Text.EndsSolid s ∧ phrase.length < s.length) :
    read? phrase (s ++ c :: t) =
      (read? phrase s).map fun (word, rest) => (word, rest ++ c :: t) := by
  unfold read?
  rw [same]
  cases found : Text.afterFolded? phrase s with
  | none => rfl
  | some after =>
    have length := Text.length_of_afterFolded? found
    cases after with
    | nil =>
      have solid : isBlank c = false := by
        rcases shut with solid | ⟨-, longer⟩
        · exact solid
        · simp only [List.length_nil] at length
          omega
      simp [solid]
    | cons first after =>
      cases blank : isBlank first with
      | false => simp [blank]
      | true =>
        have gap : (after ++ c :: t).dropWhile isBlank = after.dropWhile isBlank ++ c :: t := by
          rcases shut with solid | ⟨⟨front, last, rfl, solid⟩, -⟩
          · exact dropWhile_append_stop solid after t
          · obtain ⟨letters, whole, -⟩ := Text.afterFolded?_eq_some_iff.1 found
            have inside : last ∈ after := by
              rcases List.eq_nil_or_concat after with rfl | ⟨before, final, rfl⟩
              · obtain rfl : last = first := List.singleton_inj.1 (List.append_inj_right' whole rfl)
                rw [solid] at blank
                cases blank
              · rw [List.concat_eq_append, ← List.cons_append, ← List.append_assoc] at whole
                obtain rfl : last = final := List.singleton_inj.1 (List.append_inj_right' whole rfl)
                simp
            exact dropWhile_append_solid inside solid (c :: t)
        simp only [Option.map_some, List.cons_append, gap, takeWhile_append_stop stop,
          dropWhile_append_stop stop]
        split <;> rfl

/-- Letters that do not reach the end of a text are the same before any other text. -/
theorem afterFolded?_append_of_le (fits : phrase.length ≤ s.length) (t : Text) :
    Text.afterFolded? phrase (s ++ t) = (Text.afterFolded? phrase s).map (· ++ t) := by
  fun_induction Text.afterFolded? phrase s with
  | case1 s => rfl
  | case2 => simp at fits
  | case3 w phrase d s folded ih =>
    rw [List.cons_append, Text.afterFolded?, if_pos folded, ih (Nat.le_of_succ_le_succ fits)]
  | case4 w phrase d s differ => rw [List.cons_append, Text.afterFolded?, if_neg differ]; rfl

/-- No letters reach beyond a character that folds to none of them. -/
theorem afterFolded?_append_of_apart (apart : foldCase c ∉ phrase.map foldCase) (s t : Text) :
    Text.afterFolded? phrase (s ++ c :: t) = (Text.afterFolded? phrase s).map (· ++ c :: t) := by
  fun_induction Text.afterFolded? phrase s with
  | case1 s => rfl
  | case2 w phrase =>
    obtain ⟨first, -⟩ := not_or.1 (mt List.mem_cons.2 apart)
    rw [List.nil_append, Text.afterFolded?, if_neg (Ne.symm first)]
    rfl
  | case3 w phrase d s folded ih =>
    rw [List.cons_append, Text.afterFolded?, if_pos folded, ih (mt (List.mem_cons_of_mem _) apart)]
  | case4 w phrase d s differ =>
    rw [List.cons_append, Text.afterFolded?, if_neg differ]
    rfl

/-- A character that stands in no mention: it folds to no letter of the phrase and is neither blank nor part
of a word. -/
structure Apart (phrase : Text) (c : Char) : Prop where
  letters : foldCase c ∉ phrase.map foldCase
  blank : isBlank c = false
  word : isWordChar c = false

/-- Around a character that stands in no mention a text is scanned as two. -/
theorem words_append (some : phrase ≠ []) (apart : Apart phrase c) (s t : Text) :
    words phrase (s ++ c :: t) = words phrase s ++ words phrase t := by
  have same (s : Text) : read? phrase (s ++ c :: t) =
      (read? phrase s).map fun (word, rest) => (word, rest ++ c :: t) :=
    read?_append apart.word (afterFolded?_append_of_apart apart.letters s t) (.inl apart.blank)
  fun_induction words phrase s with
  | case1 =>
    have unread : read? phrase (c :: t) = none := by
      obtain ⟨w, phrase, rfl⟩ := List.exists_cons_of_ne_nil some
      obtain ⟨first, -⟩ := not_or.1 (mt List.mem_cons.2 apart.letters)
      rw [read?, Text.afterFolded?, if_neg (Ne.symm first)]
    exact words_of_unread unread
  | case2 d s word rest read ih =>
    rw [words_of_read? (by rw [same, read]; rfl), ih, List.cons_append]
  | case3 d s unread ih =>
    rw [List.cons_append, words_of_unread, ih]
    rw [← List.cons_append, same, unread]
    rfl

/-- A text that is no longer than the phrase mentions nothing. -/
theorem words_of_length_le (short : s.length ≤ phrase.length) : words phrase s = [] := by
  induction s with
  | nil => rw [words]
  | cons c s ih =>
    have unread : read? phrase (c :: s) = none := by
      cases read : read? phrase (c :: s) with
      | none => rfl
      | some found =>
        obtain ⟨letters, blanks, whole, mention⟩ := mention_of_read? read
        have lengths := congrArg List.length whole
        have folds := congrArg List.length mention.folds
        have apart := List.length_pos_iff.2 mention.apart
        simp only [List.length_append, List.length_map] at lengths folds
        omega
    rw [words_of_unread unread, ih (Nat.le_of_succ_le short)]

/-- The first word that a text mentions, where it holds a mention after some text: the first that is
mentioned up to the letters of that mention, or else its own. -/
theorem head?_words (mention : Mention phrase letters blanks word rest) (solid : Text.EndsSolid letters)
    (front : Text) :
    (words phrase (front ++ letters ++ (blanks ++ (word ++ rest)))).head? =
      ((words phrase (front ++ letters)).head? <|> some word) := by
  have length : letters.length = phrase.length := by simpa using congrArg List.length mention.folds
  induction front with
  | nil =>
    rw [List.nil_append, words_of_read? (read?_of_mention mention), words_of_length_le (Nat.le_of_eq length)]
    rfl
  | cons d front ih =>
    obtain ⟨b, blanks, rfl⟩ := List.exists_cons_of_ne_nil mention.apart
    have longer : phrase.length < (d :: front ++ letters).length := by
      simp only [List.length_append, List.length_cons]
      omega
    have same := read?_append (t := blanks ++ (word ++ rest))
      (not_isWordChar_of_isBlank (mention.blank b (by simp)))
      (afterFolded?_append_of_le (Nat.le_of_lt longer) _) (.inr ⟨solid.append _, longer⟩)
    cases read : read? phrase (d :: front ++ letters) with
    | none =>
      rw [read, Option.map_none] at same
      simp only [List.cons_append] at same read ih ⊢
      rw [words_of_unread same, words_of_unread read, ih]
    | some found =>
      rw [read, Option.map_some] at same
      simp only [List.cons_append] at same read ⊢
      rw [words_of_read? same, words_of_read? read]
      rfl

end ColumnLineage.TableMentions
