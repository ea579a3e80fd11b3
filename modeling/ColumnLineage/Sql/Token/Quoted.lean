import ColumnLineage.Sql.Token.Basic

/-!
Quoted constants and words. In the plain form a quote inside is written twice; the raw form with
three quotes ends at the first run of three; two letters bring a form in which a backslash escapes
the character after it. Every reader starts after the opening quote and gives the value and what
follows the closing quote, or nothing where the text ends first.
-/

namespace ColumnLineage.Sql.Quoted

/-- Puts a character in front of the value that was read. -/
def keep (c : Char) : Option (Text × Text) → Option (Text × Text)
  | some (value, rest) => some (c :: value, rest)
  | none => none

@[simp] theorem keep_eq_some {c : Char} {read : Option (Text × Text)} {value rest : Text} :
    keep c read = some (value, rest) ↔ ∃ inner, read = some (inner, rest) ∧ value = c :: inner := by
  unfold keep
  split
  · simp only [Option.some.injEq, Prod.mk.injEq]
    exact ⟨by rintro ⟨rfl, rfl⟩; exact ⟨_, ⟨rfl, rfl⟩, rfl⟩,
      by rintro ⟨_, ⟨rfl, rfl⟩, rfl⟩; exact ⟨rfl, rfl⟩⟩
  · simp

/-- A value up to its closing quote, where a quote written twice is one. -/
def readDoubled (quote : Char) : Text → Option (Text × Text)
  | [] => none
  | [c] => if c = quote then some ([], []) else none
  | c :: d :: rest =>
    if c = quote then
      if d = quote then keep quote (readDoubled quote rest) else some ([], d :: rest)
    else keep c (readDoubled quote (d :: rest))

/-- The character that a backslash and another character stand for. -/
def escapedChar : Char → Char
  | '0' => '\x00'
  | 'a' => '\x07'
  | 'b' => '\x08'
  | 'f' => '\x0c'
  | 'n' => '\n'
  | 'r' => '\r'
  | 't' => '\t'
  | 'Z' => '\x1a'
  | c => c

/-- A value up to its closing quote, where a quote written twice is one and a backslash escapes. -/
def readBackslashed : Text → Option (Text × Text)
  | [] => none
  | [c] => if c = '\'' then some ([], []) else none
  | c :: d :: rest =>
    if c = '\'' then
      if d = '\'' then keep '\'' (readBackslashed rest) else some ([], d :: rest)
    else if c = '\\' then keep (escapedChar d) (readBackslashed rest)
    else keep c (readBackslashed (d :: rest))

/-- A value up to the first run of three quotes. -/
def readTriple (quote : Char) : Text → Option (Text × Text)
  | [] => none
  | c :: rest =>
    match Text.after? [quote, quote, quote] (c :: rest) with
    | some after => some ([], after)
    | none => keep c (readTriple quote rest)

theorem suffix_of_readDoubled {quote : Char} {s value rest : Text}
    (h : readDoubled quote s = some (value, rest)) : rest <:+ s := by
  fun_induction readDoubled quote s generalizing value <;>
    grind [keep_eq_some, List.suffix_cons_iff]

theorem suffix_of_readBackslashed {s value rest : Text}
    (h : readBackslashed s = some (value, rest)) : rest <:+ s := by
  fun_induction readBackslashed s generalizing value <;>
    grind [keep_eq_some, List.suffix_cons_iff]

theorem suffix_of_readTriple {quote : Char} {s value rest : Text}
    (h : readTriple quote s = some (value, rest)) : rest <:+ s := by
  fun_induction readTriple quote s generalizing value with
  | case1 => simp at h
  | case2 c r after found =>
    obtain ⟨rfl, rfl⟩ : [] = value ∧ after = rest := by simpa using h
    rw [Text.append_of_after? found]
    exact List.suffix_append _ _
  | case3 c r _ ih =>
    obtain ⟨_, inner, rfl⟩ := keep_eq_some.1 h
    exact (ih inner).trans (List.suffix_cons _ _)

end ColumnLineage.Sql.Quoted
