import ColumnLineage.Proofs.QuotedBody

/-! How a token stands in its text. Reading takes a token from a run of characters, its spelling, and
loses none of them. The rendering of the token is that spelling, but for a few forms (`Altered`): the
second spelling of inequality, line ends other than the newline, blanks other than the space,
hexadecimal digits without quotes, small letters before a constant, and quotes and escapes inside one.
In each of these the rendering differs from the spelling. -/

namespace ColumnLineage.TokenSpelling
open Sql
open Sql.Quoted (keep keep_eq_some)
open Sql.Dollar (compareTag compareTag_append keepAll readTagged readUntagged)
open QuotedBody (Decodes marksOf readDoubled_body readValue?_body)

/-- The forms in which a token stands in a text and is rendered otherwise. -/
inductive Altered : Token → Text → Prop where
  | inequality : Altered (.symbol .notEquals) "!=".toList
  | return : Altered (.spacing .newline) ['\r']
  | returnNewline : Altered (.spacing .newline) ['\r', '\n']
  | blank (blank : isBlank c = true) (other : c ≠ ' ') : Altered (.spacing .space) [c]
  | digits (hexadecimal : ∀ c ∈ digits, isDigitIn 16 c = true) :
      Altered (.literal .hexadecimal digits) ('0' :: 'x' :: digits)
  | smallLetter (opened : (opening, kind) ∈ Literal.openings)
      (small : opening ≠ kind.opening.toList) (decodes : Decodes (marksOf kind) body value) :
      Altered (.literal kind value) (opening ++ body ++ kind.closing.toList)
  | escaped (opened : (opening, kind) ∈ Literal.openings) (mark : c ∈ marksOf kind)
      (inside : c ∈ body) (decodes : Decodes (marksOf kind) body value) :
      Altered (.literal kind value) (opening ++ body ++ kind.closing.toList)
  | quotedWord (inside : mark.char ∈ body) (decodes : Decodes [mark.char] body value) :
      Altered (.word ⟨some mark, value⟩) (mark.char :: body ++ [mark.char])

/-- A token that stands in a text as some characters: as it is rendered, or in an altered form. -/
def Spelled (token : Token) (spelling : Text) : Prop :=
  token.render = spelling ∨ Altered token spelling

/-! ## Dollar signs and comments -/

private theorem readUntagged_append {after : Bool} {s value rest : Text}
    (h : readUntagged after s = some (value, rest)) :
    (if after then ['$'] else []) ++ s = value ++ '$' :: '$' :: rest := by
  fun_induction readUntagged after s generalizing value with
  | case1 => simp at h
  | case2 s ih => simpa using ih h
  | case3 c s _ ih =>
    obtain ⟨inner, read, rfl⟩ := keep_eq_some.1 h
    simpa using ih read
  | case4 s =>
    obtain ⟨rfl, rfl⟩ := Prod.mk.inj (Option.some.inj h)
    rfl
  | case5 c s _ ih =>
    obtain ⟨_, kept, rfl⟩ := keep_eq_some.1 h
    obtain ⟨inner, read, rfl⟩ := keep_eq_some.1 kept
    simpa using ih read

private theorem compareTag_found {tag s compared rest : Text}
    (h : compareTag tag s = some (true, compared, rest)) : compared = tag := by
  fun_induction compareTag tag s generalizing compared with
  | case1 => simp_all
  | case2 => simp at h
  | case3 _ t s found _ after read ih =>
    obtain ⟨rfl, tail⟩ := Prod.mk.inj (Option.some.inj h)
    obtain ⟨rfl, rfl⟩ := Prod.mk.inj tail
    rw [ih read]
  | case4 => simp at h
  | case5 => simp at h

private theorem readTagged_append {tag s value rest : Text}
    (h : readTagged tag s = some (value, rest)) :
    s = value ++ '$' :: tag ++ '$' :: rest := by
  fun_induction readTagged tag s generalizing value with
  | case1 => simp at h
  | case2 => simp at h
  | case3 s found compared after compare closes =>
    obtain ⟨rfl, rfl⟩ := Prod.mk.inj (Option.some.inj h)
    obtain ⟨rfl, next⟩ := closes
    have split := compareTag_append compare
    rw [compareTag_found compare] at split
    rw [split]
    cases after with
    | nil => simp at next
    | cons c after => simpa using next
  | case4 s found compared after compare _ ih =>
    unfold keepAll at h
    split at h
    · rename_i inner read
      obtain ⟨rfl, rfl⟩ := Prod.mk.inj (Option.some.inj h)
      rw [compareTag_append compare, ih read]
      simp
    · simp at h
  | case5 c s _ ih =>
    obtain ⟨inner, read, rfl⟩ := keep_eq_some.1 h
    rw [ih read]
    rfl

private theorem readNested_append {level : Nat} {last : Char} {s text rest : Text}
    (h : Comment.readNested level last s = some (text, rest)) :
    s = text ++ '/' :: rest ∧ (last :: text).getLast? = some '*' := by
  fun_induction Comment.readNested level last s generalizing text
  case case1 => simp at h
  case case2 ih | case4 ih | case5 ih =>
    obtain ⟨inner, read, rfl⟩ := keep_eq_some.1 h
    obtain ⟨split, closed⟩ := ih read
    exact ⟨by rw [split]; rfl, by simpa using closed⟩
  case case3 closes =>
    obtain ⟨rfl, rfl⟩ := Prod.mk.inj (Option.some.inj h)
    obtain ⟨rfl, rfl⟩ := closes
    exact ⟨rfl, rfl⟩

private theorem readBlock_append {s text rest : Text}
    (h : Comment.readBlock s = some (text, rest)) : s = text ++ '*' :: '/' :: rest := by
  obtain ⟨⟨inner, _⟩, read, same⟩ := Option.map_eq_some_iff.1 h
  obtain ⟨rfl, rfl⟩ := Prod.mk.inj same
  obtain ⟨split, closed⟩ := readNested_append read
  cases inner with
  | nil => simp at closed
  | cons c inner =>
    rw [List.getLast?_cons_cons] at closed
    obtain ⟨text, same⟩ := List.getLast?_eq_some_iff.1 closed
    rw [split, same, List.dropLast_concat]
    simp

/-! ## Numbers, words and symbols -/

private theorem readLong_append (s : Text) :
    (if (Number.readLong s).1 then ['L'] else []) ++ (Number.readLong s).2 = s := by
  fun_cases Number.readLong s <;> simp_all

theorem number_spelled {s rest : Text} {token : Token} (h : Number.read s = (token, rest)) :
    ∃ spelling, s = spelling ++ rest ∧ Spelled token spelling := by
  have whole := List.takeWhile_append_dropWhile (p := isDigitIn 10) (l := s)
  have fraction := Number.readFraction_append (s.dropWhile (isDigitIn 10))
  simp only [Number.read] at h
  generalize s.takeWhile (isDigitIn 10) = digits at *
  generalize s.dropWhile (isDigitIn 10) = afterDigits at *
  subst whole
  split at h
  · rename_i hexadecimal
    obtain ⟨rfl, rfl⟩ := Prod.mk.inj h
    obtain ⟨rfl, next⟩ := hexadecimal
    cases afterDigits with
    | nil => simp at next
    | cons c afterDigits =>
      obtain rfl : c = 'x' := by simpa using next
      refine ⟨'0' :: 'x' :: afterDigits.takeWhile (isDigitIn 16), ?_, .inr (.digits ?_)⟩
      · simp
      · exact fun c member => List.all_eq_true.1 List.all_takeWhile c member
  · generalize Number.readFraction afterDigits = parts at *
    obtain ⟨fractional, afterFraction⟩ := parts
    simp only at fraction h
    subst fraction
    split at h
    · rename_i point
      obtain ⟨rfl, rfl⟩ := Prod.mk.inj h
      exact ⟨['.'], by rw [← List.append_assoc, point], .inl rfl⟩
    · have exponent := Number.readExponent_append afterFraction
      have long := readLong_append (Number.readExponent afterFraction).2
      obtain ⟨rfl, rfl⟩ := Prod.mk.inj h
      refine ⟨_, ?_, .inl rfl⟩
      have marked (number : Text) (long : Bool) :
          (Token.number number long).render = number ++ if long then ['L'] else [] := by
        cases long <;> simp [Token.render]
      rw [marked]
      conv => lhs; rw [← exponent, ← long]
      simp only [List.append_assoc]

/-! ## Words -/

private theorem readAfter_append (start s : Text) :
    start ++ s = (Word.readAfter start s).1.render ++ (Word.readAfter start s).2 := by
  simp [Word.readAfter, Token.render, Word.render]

private theorem readMarked_append (mark : Text) (symbol : Symbol)
    (same : mark = symbol.spelling.toList) (s : Text) :
    mark ++ s = (Word.readMarked mark symbol s).1.render ++ (Word.readMarked mark symbol s).2 := by
  fun_cases Word.readMarked mark symbol s with
  | case1 => rw [same]; rfl
  | case2 s => rw [same]; rfl
  | case3 c s => rw [← readAfter_append]; simp

private theorem readQuoted?_spelled {mark : QuoteMark} {s rest : Text} {token : Token}
    (h : Word.readQuoted? mark s = some (token, rest)) :
    ∃ spelling, mark.char :: s = spelling ++ rest ∧ Spelled token spelling := by
  obtain ⟨⟨value, _⟩, read, same⟩ := Option.map_eq_some_iff.1 h
  obtain ⟨rfl, rfl⟩ := Prod.mk.inj same
  obtain ⟨body, rfl, decodes⟩ := readDoubled_body read
  refine ⟨mark.char :: body ++ [mark.char], by simp, ?_⟩
  by_cases inside : mark.char ∈ body
  · exact .inr (.quotedWord inside decodes)
  · rcases decodes with ⟨rfl, -⟩ | ⟨-, c, member, escaped⟩
    · exact .inl rfl
    · rw [List.mem_singleton.1 member] at escaped
      exact absurd escaped inside

/-- The spelling of a constant is its opening, its body and its closing. -/
theorem literal_spelled {kind : Literal} {s body value rest : Text}
    (opened : Literal.opened? s = some (kind, body)) (read : kind.readValue? body = some (value, rest)) :
    ∃ spelling, s = spelling ++ rest ∧ Spelled (.literal kind value) spelling := by
  obtain ⟨opening, member, rfl⟩ := Literal.exists_of_openedBy? opened
  obtain ⟨body, rfl, decodes⟩ := readValue?_body read
  refine ⟨opening ++ body ++ kind.closing.toList, by simp, ?_⟩
  by_cases capital : opening = kind.opening.toList
  · rcases decodes with ⟨rfl, -⟩ | ⟨shorter, c, mark, inside⟩
    · exact .inl (by rw [capital]; rfl)
    · exact .inr (.escaped member mark inside (.inr ⟨shorter, c, mark, inside⟩))
  · exact .inr (.smallLetter member capital decodes)

/-! ## All tokens -/

private theorem dollar_append {s rest : Text} {token : Token}
    (h : Dollar.read? s = some (token, rest)) : '$' :: s = token.render ++ rest := by
  have whole := List.takeWhile_append_dropWhile (p := Dollar.isTagChar) (l := s)
  simp only [Dollar.read?] at h
  generalize s.takeWhile Dollar.isTagChar = tag at *
  generalize s.dropWhile Dollar.isTagChar = afterTag at *
  subst whole
  split at h
  · rename_i body
    obtain ⟨⟨value, _⟩, read, same⟩ := Option.map_eq_some_iff.1 h
    obtain ⟨rfl, rfl⟩ := Prod.mk.inj same
    split at read
    · rename_i untagged
      obtain rfl := List.isEmpty_iff.1 untagged
      have split := readUntagged_append read
      simp only [Bool.false_eq_true, if_false, List.nil_append] at split
      simp [Token.render, split]
    · simp [Token.render, readTagged_append read]
  · obtain ⟨rfl, rfl⟩ := Prod.mk.inj (Option.some.inj h)
    simp [Token.render]

private theorem spelled_of_append {s rest : Text} {token : Token} (same : s = token.render ++ rest) :
    ∃ spelling, s = spelling ++ rest ∧ Spelled token spelling :=
  ⟨token.render, same, .inl rfl⟩

theorem readOther?_spelled {c : Char} {s rest : Text} {token : Token} (other : c ≠ ' ')
    (h : Token.readOther? c s = some (token, rest)) :
    ∃ spelling, c :: s = spelling ++ rest ∧ Spelled token spelling := by
  unfold Token.readOther? at h
  split at h
  · rename_i same
    subst same
    have split := readMarked_append ['#'] .sharp rfl s
    rw [Option.some.inj h] at split
    exact spelled_of_append split
  split at h
  · rename_i same
    subst same
    split at h
    · rename_i s
      have split := readMarked_append ['@', '@'] .doubleAt rfl s
      rw [Option.some.inj h] at split
      exact spelled_of_append split
    · have split := readMarked_append ['@'] .atSign rfl s
      rw [Option.some.inj h] at split
      exact spelled_of_append split
  split at h
  · obtain ⟨rfl, rfl⟩ := Prod.mk.inj (Option.some.inj h)
    exact spelled_of_append (by simp [Token.render])
  split at h
  · rename_i same
    subst same
    exact spelled_of_append (dollar_append h)
  split at h
  · have split := readAfter_append [c] s
    rw [Option.some.inj h] at split
    exact spelled_of_append split
  split at h
  · rename_i blank
    obtain ⟨rfl, rfl⟩ := Prod.mk.inj (Option.some.inj h)
    exact ⟨[c], rfl, .inr (.blank blank other)⟩
  · obtain ⟨rfl, rfl⟩ := Prod.mk.inj (Option.some.inj h)
    exact spelled_of_append rfl

theorem readMark?_spelled {c : Char} {s rest : Text} {token : Token} (other : c ≠ ' ')
    (h : Token.readMark? c s = some (token, rest)) :
    ∃ spelling, c :: s = spelling ++ rest ∧ Spelled token spelling := by
  unfold Token.readMark? at h
  split at h
  · rename_i body found
    obtain ⟨rfl, rfl⟩ := Prod.mk.inj (Option.some.inj h)
    refine spelled_of_append ?_
    rw [Text.append_of_after? found]
    simp [Token.render, Spacing.render, Comment.readLine_append]
  · rename_i body found
    obtain ⟨⟨text, _⟩, read, same⟩ := Option.map_eq_some_iff.1 h
    obtain ⟨rfl, rfl⟩ := Prod.mk.inj same
    refine spelled_of_append ?_
    rw [Text.append_of_after? found, readBlock_append read]
    simp [Token.render, Spacing.render]
  · split at h
    · rename_i mark after read
      obtain ⟨rfl, rfl⟩ := Prod.mk.inj (Option.some.inj h)
      rcases Symbol.append_of_read? read with ⟨rfl, split⟩ | split
      · exact ⟨"!=".toList, split, .inr .inequality⟩
      · exact spelled_of_append split
    · exact readOther?_spelled other h

/-- Reading takes a token from its spelling and loses no character of the text. -/
theorem read?_spelled {s rest : Text} {token : Token} (h : Token.read? s = some (token, rest)) :
    ∃ spelling, s = spelling ++ rest ∧ Spelled token spelling := by
  unfold Token.read? at h
  split at h
  · simp at h
  · obtain ⟨rfl, rfl⟩ := Prod.mk.inj (Option.some.inj h)
    exact spelled_of_append rfl
  · obtain ⟨rfl, rfl⟩ := Prod.mk.inj (Option.some.inj h)
    exact spelled_of_append rfl
  · obtain ⟨rfl, rfl⟩ := Prod.mk.inj (Option.some.inj h)
    exact spelled_of_append rfl
  · obtain ⟨rfl, rfl⟩ := Prod.mk.inj (Option.some.inj h)
    exact ⟨['\r', '\n'], rfl, .inr .returnNewline⟩
  · obtain ⟨rfl, rfl⟩ := Prod.mk.inj (Option.some.inj h)
    exact ⟨['\r'], rfl, .inr .return⟩
  · rename_i c s _ _ _ _ _
    split at h
    · rename_i kind body opened
      obtain ⟨⟨value, _⟩, read, same⟩ := Option.map_eq_some_iff.1 h
      obtain ⟨rfl, rfl⟩ := Prod.mk.inj same
      exact literal_spelled opened read
    · split at h
      · rename_i same
        subst same
        exact readQuoted?_spelled h
      · split at h
        · rename_i same
          subst same
          exact readQuoted?_spelled h
        · split at h
          · exact number_spelled (Option.some.inj h)
          · refine readMark?_spelled ?_ h
            assumption

/-! ## Altered forms -/

private theorem opening_length :
    ∀ entry ∈ Literal.openings, entry.1.length = entry.2.opening.toList.length := by
  decide

/-- Only hexadecimal digits are rendered longer than they are spelled. -/
theorem Altered.length_le (altered : Altered token spelling) :
    token.render.length ≤ spelling.length ∨
      ∃ digits, token = .literal .hexadecimal digits ∧ spelling = '0' :: 'x' :: digits := by
  cases altered with
  | inequality => exact .inl (by decide)
  | «return» | returnNewline | blank => exact .inl (by simp [Token.render, Spacing.render])
  | digits => exact .inr ⟨_, rfl, rfl⟩
  | smallLetter opened _ decodes | escaped opened _ _ decodes =>
    have same := opening_length _ opened
    have shorter := decodes.length_le
    left
    simp only [Token.render, List.length_append] at same ⊢
    omega
  | quotedWord _ decodes =>
    have shorter := decodes.length_le
    left
    simp only [Token.render, Word.render, List.length_append, List.length_cons]
    omega

/-- An altered form is rendered otherwise than it is spelled. -/
theorem Altered.render_ne (altered : Altered token spelling) : token.render ≠ spelling := by
  intro same
  cases altered with
  | inequality => exact absurd same (by decide)
  | «return» | returnNewline => simp [Token.render, Spacing.render] at same
  | blank _ other => exact other (List.cons.inj same).1.symm
  | digits => simp [Token.render, Literal.opening] at same
  | smallLetter opened small =>
    simp only [Token.render, List.append_assoc] at same
    exact small (List.append_inj_left same (opening_length _ opened).symm).symm
  | escaped opened mark inside decodes =>
    have lengths := congrArg List.length same
    have opening := opening_length _ opened
    have shorter := decodes.length_lt mark inside
    simp only [Token.render, List.length_append] at lengths opening
    omega
  | quotedWord inside decodes =>
    have lengths := congrArg List.length same
    have shorter := decodes.length_lt (List.mem_singleton_self _) inside
    simp only [Token.render, Word.render, List.length_append, List.length_cons] at lengths
    omega

end ColumnLineage.TokenSpelling
