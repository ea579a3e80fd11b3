import ColumnLineage.Sql.Token.Reading

/-! How the value of a quoted token stands in its text. Between the quotes stands a body, which is the
value itself unless it holds one of the characters that are written otherwise there: a quote, or a
backslash in the forms that know escapes. Such a body is always longer than its value. -/

namespace ColumnLineage.QuotedBody
open Sql
open Sql.Quoted (keep keep_eq_some readDoubled readBackslashed readTriple)
open Sql.Escape (readEscaped? readExactly? readHexByte? readEscapedValue readUnicodeValue upTo
  suffix_of_readExactly? suffix_of_upTo)

/-- A body that is read as a value, where `marks` are the characters that do not stand for themselves:
without them it is the value, and with one of them it is longer. -/
def Decodes (marks body value : Text) : Prop :=
  (value = body ∧ ∀ c ∈ marks, c ∉ body) ∨ (value.length < body.length ∧ ∃ c ∈ marks, c ∈ body)

theorem Decodes.nil : Decodes marks [] [] :=
  .inl ⟨rfl, fun _ _ => List.not_mem_nil⟩

theorem Decodes.length_le (decodes : Decodes marks body value) : value.length ≤ body.length := by
  rcases decodes with ⟨rfl, -⟩ | ⟨shorter, -⟩
  · exact Nat.le_refl _
  · exact Nat.le_of_lt shorter

theorem Decodes.length_lt (decodes : Decodes marks body value) (mark : c ∈ marks) (inside : c ∈ body) :
    value.length < body.length := by
  rcases decodes with ⟨-, free⟩ | ⟨shorter, -⟩
  · exact absurd inside (free c mark)
  · exact shorter

/-- A character that is no mark stands for itself. -/
theorem Decodes.cons (ordinary : c ∉ marks) (decodes : Decodes marks body value) :
    Decodes marks (c :: body) (c :: value) := by
  rcases decodes with ⟨rfl, free⟩ | ⟨shorter, mark, member, inside⟩
  · refine .inl ⟨rfl, ?_⟩
    intro mark member
    rw [List.mem_cons]
    rintro (rfl | inside)
    · exact ordinary member
    · exact free mark member inside
  · exact .inr ⟨Nat.succ_lt_succ shorter, mark, member, List.mem_cons_of_mem c inside⟩

/-- A mark and at least one character after it stand for one character. -/
theorem Decodes.escape (mark : c ∈ marks) (more : taken ≠ []) (decodes : Decodes marks body value) :
    Decodes marks (c :: taken ++ body) (d :: value) := by
  refine .inr ⟨?_, c, mark, by simp⟩
  have := decodes.length_le
  have := List.length_pos_iff.2 more
  simp only [List.length_cons, List.length_append]
  omega

theorem readDoubled_body {quote : Char} {s value rest : Text}
    (h : readDoubled quote s = some (value, rest)) :
    ∃ body, s = body ++ quote :: rest ∧ Decodes [quote] body value := by
  fun_induction readDoubled quote s generalizing value with
  | case1 => simp at h
  | case2 =>
    obtain ⟨rfl, rfl⟩ := Prod.mk.inj (Option.some.inj h)
    exact ⟨[], rfl, .nil⟩
  | case3 => simp at h
  | case4 r ih =>
    obtain ⟨inner, read, rfl⟩ := keep_eq_some.1 h
    obtain ⟨body, rfl, decodes⟩ := ih read
    exact ⟨quote :: [quote] ++ body, rfl, decodes.escape (by simp) (List.cons_ne_nil _ _)⟩
  | case5 d r =>
    obtain ⟨rfl, rfl⟩ := Prod.mk.inj (Option.some.inj h)
    exact ⟨[], rfl, .nil⟩
  | case6 c d r ordinary ih =>
    obtain ⟨inner, read, rfl⟩ := keep_eq_some.1 h
    obtain ⟨body, split, decodes⟩ := ih read
    exact ⟨c :: body, by rw [split, List.cons_append], decodes.cons (by simpa using ordinary)⟩

theorem readBackslashed_body {s value rest : Text} (h : readBackslashed s = some (value, rest)) :
    ∃ body, s = body ++ '\'' :: rest ∧ Decodes ['\'', '\\'] body value := by
  fun_induction readBackslashed s generalizing value with
  | case1 => simp at h
  | case2 =>
    obtain ⟨rfl, rfl⟩ := Prod.mk.inj (Option.some.inj h)
    exact ⟨[], rfl, .nil⟩
  | case3 => simp at h
  | case4 r ih =>
    obtain ⟨inner, read, rfl⟩ := keep_eq_some.1 h
    obtain ⟨body, rfl, decodes⟩ := ih read
    exact ⟨'\'' :: ['\''] ++ body, rfl, decodes.escape (by simp) (List.cons_ne_nil _ _)⟩
  | case5 d r =>
    obtain ⟨rfl, rfl⟩ := Prod.mk.inj (Option.some.inj h)
    exact ⟨[], rfl, .nil⟩
  | case6 d r _ ih =>
    obtain ⟨inner, read, rfl⟩ := keep_eq_some.1 h
    obtain ⟨body, rfl, decodes⟩ := ih read
    exact ⟨'\\' :: [d] ++ body, rfl, decodes.escape (by simp) (List.cons_ne_nil _ _)⟩
  | case7 c d r quote backslash ih =>
    obtain ⟨inner, read, rfl⟩ := keep_eq_some.1 h
    obtain ⟨body, split, decodes⟩ := ih read
    exact ⟨c :: body, by rw [split, List.cons_append], decodes.cons (by simp [quote, backslash])⟩

theorem readTriple_body {quote : Char} {s value rest : Text}
    (h : readTriple quote s = some (value, rest)) :
    ∃ body, s = body ++ [quote, quote, quote] ++ rest ∧ Decodes [] body value := by
  fun_induction readTriple quote s generalizing value with
  | case1 => simp at h
  | case2 c r after found =>
    obtain ⟨rfl, rfl⟩ := Prod.mk.inj (Option.some.inj h)
    exact ⟨[], Text.append_of_after? found, .nil⟩
  | case3 c r _ ih =>
    obtain ⟨inner, read, rfl⟩ := keep_eq_some.1 h
    obtain ⟨body, split, decodes⟩ := ih read
    exact ⟨c :: body, by rw [split]; rfl, decodes.cons List.not_mem_nil⟩

/-- A text that keeps a suffix of what follows its first character gives up at least that one. -/
private theorem taken_of_suffix (first : Char) {s rest : Text} (after : rest <:+ s) :
    ∃ taken, first :: s = taken ++ rest ∧ taken ≠ [] := by
  obtain ⟨taken, rfl⟩ := after
  exact ⟨first :: taken, rfl, List.cons_ne_nil _ _⟩

private theorem suffix_of_upTo_eq {base n : Nat} {s digits rest : Text}
    (h : upTo base n s = (digits, rest)) : rest <:+ s := by
  have after := suffix_of_upTo base n s
  rwa [h] at after

private theorem suffix_of_readHexByte? {s rest : Text} {c : Char}
    (h : readHexByte? s = some (c, rest)) : rest <:+ s := by
  unfold readHexByte? at h
  split at h
  · rename_i after read
    obtain ⟨rfl, rfl⟩ := Prod.mk.inj (Option.some.inj h)
    exact suffix_of_upTo_eq read
  · rename_i digits after _ read
    obtain ⟨_, _, same⟩ := Option.map_eq_some_iff.1 h
    obtain ⟨rfl, rfl⟩ := Prod.mk.inj same
    exact suffix_of_upTo_eq read

/-- What stands for one character after a backslash is not empty. -/
private theorem taken_of_readEscaped? {s rest : Text} {c : Char}
    (h : readEscaped? s = some (c, rest)) : ∃ taken, s = taken ++ rest ∧ taken ≠ [] := by
  unfold readEscaped? at h
  split at h
  case h_1 => simp at h
  case h_7 => exact taken_of_suffix _ (suffix_of_readExactly? h)
  case h_8 => exact taken_of_suffix _ (suffix_of_readExactly? h)
  case h_9 => exact taken_of_suffix _ (suffix_of_readHexByte? h)
  case h_10 =>
    split at h
    · obtain ⟨_, _, same⟩ := Option.map_eq_some_iff.1 h
      obtain ⟨rfl, rfl⟩ := Prod.mk.inj same
      exact taken_of_suffix _ (suffix_of_upTo _ _ _)
    · obtain ⟨rfl, rfl⟩ := Prod.mk.inj (Option.some.inj h)
      exact taken_of_suffix _ List.suffix_rfl
  all_goals
    obtain ⟨rfl, rfl⟩ := Prod.mk.inj (Option.some.inj h)
    exact taken_of_suffix _ List.suffix_rfl

private theorem taken_of_readExactly? {n : Nat} {char? : Text → Option Char} {s rest : Text}
    {c : Char} (positive : 0 < n) (h : readExactly? n char? s = some (c, rest)) :
    ∃ taken, s = taken ++ rest ∧ taken ≠ [] := by
  unfold readExactly? at h
  split at h
  · rename_i enough
    obtain ⟨_, _, same⟩ := Option.map_eq_some_iff.1 h
    obtain ⟨rfl, rfl⟩ := Prod.mk.inj same
    refine ⟨s.take n, (List.take_append_drop n s).symm, List.length_pos_iff.1 ?_⟩
    rwa [List.length_take_of_le enough]
  · simp at h

theorem readEscapedValue_body {s value rest : Text}
    (h : readEscapedValue s = some (value, rest)) :
    ∃ body, s = body ++ '\'' :: rest ∧ Decodes ['\'', '\\'] body value := by
  fun_induction readEscapedValue s generalizing value with
  | case1 => simp at h
  | case2 r ih =>
    obtain ⟨inner, read, rfl⟩ := keep_eq_some.1 h
    obtain ⟨body, rfl, decodes⟩ := ih read
    exact ⟨'\'' :: ['\''] ++ body, rfl, decodes.escape (by simp) (List.cons_ne_nil _ _)⟩
  | case3 =>
    obtain ⟨rfl, rfl⟩ := Prod.mk.inj (Option.some.inj h)
    exact ⟨[], rfl, .nil⟩
  | case4 => simp at h
  | case5 r c after found _ ih =>
    obtain ⟨inner, read, rfl⟩ := keep_eq_some.1 h
    obtain ⟨body, rfl, decodes⟩ := ih read
    obtain ⟨taken, rfl, more⟩ := taken_of_readEscaped? found
    exact ⟨'\\' :: taken ++ body, by simp, decodes.escape (by simp) more⟩
  | case6 => simp at h
  | case7 c r _ quote backslash ih =>
    obtain ⟨inner, read, rfl⟩ := keep_eq_some.1 h
    obtain ⟨body, split, decodes⟩ := ih read
    refine ⟨c :: body, by rw [split, List.cons_append], decodes.cons ?_⟩
    simp only [List.mem_cons, List.not_mem_nil, or_false, not_or]
    exact ⟨quote, backslash⟩

theorem readUnicodeValue_body {s value rest : Text}
    (h : readUnicodeValue s = some (value, rest)) :
    ∃ body, s = body ++ '\'' :: rest ∧ Decodes ['\'', '\\'] body value := by
  fun_induction readUnicodeValue s generalizing value with
  | case1 => simp at h
  | case2 r ih =>
    obtain ⟨inner, read, rfl⟩ := keep_eq_some.1 h
    obtain ⟨body, rfl, decodes⟩ := ih read
    exact ⟨'\'' :: ['\''] ++ body, rfl, decodes.escape (by simp) (List.cons_ne_nil _ _)⟩
  | case3 =>
    obtain ⟨rfl, rfl⟩ := Prod.mk.inj (Option.some.inj h)
    exact ⟨[], rfl, .nil⟩
  | case4 r ih =>
    obtain ⟨inner, read, rfl⟩ := keep_eq_some.1 h
    obtain ⟨body, rfl, decodes⟩ := ih read
    exact ⟨'\\' :: ['\\'] ++ body, rfl, decodes.escape (by simp) (List.cons_ne_nil _ _)⟩
  | case5 r c after found ih =>
    obtain ⟨inner, read, rfl⟩ := keep_eq_some.1 h
    obtain ⟨body, rfl, decodes⟩ := ih read
    obtain ⟨taken, rfl, -⟩ := taken_of_readExactly? (by decide) found
    exact ⟨'\\' :: ('+' :: taken) ++ body, by simp,
      decodes.escape (by simp) (List.cons_ne_nil _ _)⟩
  | case6 => simp at h
  | case7 r c after _ _ found ih =>
    obtain ⟨inner, read, rfl⟩ := keep_eq_some.1 h
    obtain ⟨body, rfl, decodes⟩ := ih read
    obtain ⟨taken, rfl, more⟩ := taken_of_readExactly? (by decide) found
    exact ⟨'\\' :: taken ++ body, by simp, decodes.escape (by simp) more⟩
  | case8 => simp at h
  | case9 c r _ quote _ _ backslash ih =>
    obtain ⟨inner, read, rfl⟩ := keep_eq_some.1 h
    obtain ⟨body, split, decodes⟩ := ih read
    refine ⟨c :: body, by rw [split, List.cons_append], decodes.cons ?_⟩
    simp only [List.mem_cons, List.not_mem_nil, or_false, not_or]
    exact ⟨quote, backslash⟩

/-- The characters that do not stand for themselves in the body of a constant. -/
def marksOf : Literal → Text
  | .plain | .byteSingle | .rawSingle => ['\'']
  | .byteDouble | .rawDouble => ['"']
  | .national | .hexadecimal | .escaped | .unicode => ['\'', '\\']
  | .rawTripleSingle | .rawTripleDouble => []

/-- Between the opening and the closing of every kind of constant stands a body of its value. -/
theorem readValue?_body {kind : Literal} {s value rest : Text}
    (h : kind.readValue? s = some (value, rest)) :
    ∃ body, s = body ++ kind.closing.toList ++ rest ∧ Decodes (marksOf kind) body value := by
  cases kind with
  | plain | byteSingle | rawSingle =>
    obtain ⟨body, rfl, decodes⟩ := readDoubled_body h
    exact ⟨body, by simp [Literal.closing], decodes⟩
  | byteDouble | rawDouble =>
    obtain ⟨body, rfl, decodes⟩ := readDoubled_body h
    exact ⟨body, by simp [Literal.closing], decodes⟩
  | national | hexadecimal =>
    obtain ⟨body, rfl, decodes⟩ := readBackslashed_body h
    exact ⟨body, by simp [Literal.closing], decodes⟩
  | escaped =>
    obtain ⟨body, rfl, decodes⟩ := readEscapedValue_body h
    exact ⟨body, by simp [Literal.closing], decodes⟩
  | unicode =>
    obtain ⟨body, rfl, decodes⟩ := readUnicodeValue_body h
    exact ⟨body, by simp [Literal.closing], decodes⟩
  | rawTripleSingle =>
    obtain ⟨body, rfl, decodes⟩ := readTriple_body h
    exact ⟨body, rfl, decodes⟩
  | rawTripleDouble =>
    obtain ⟨body, rfl, decodes⟩ := readTriple_body h
    exact ⟨body, rfl, decodes⟩

end ColumnLineage.QuotedBody
