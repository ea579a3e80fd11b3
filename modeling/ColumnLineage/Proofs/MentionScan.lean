import ColumnLineage.Proofs.TableMentions
import Mathlib.Data.List.Pairwise
import Mathlib.Data.List.Sort

/-! What a scan for mentions finds, told without the scan. The mentions of a text are all the places where
one stands, overlapping or not. The scan gives those that a walk from the left meets when it goes on behind
each one it has met: they lie apart, and any other begins inside one of them. No other list of places has
these two properties, so the words of the scan are the words of such a list and of no other. -/

namespace ColumnLineage.MentionScan
open Sql.TableMention (read? words sources target? sourcePhrase targetPhrase)
open TableMentions

variable {phrase s t : Text}

/-! ## Occurrences -/

/-- A place where a text mentions a table: what goes before, the letters of the phrase, the blanks, the word
and what follows. -/
structure Occurrence (phrase s : Text) where
  front : Text
  letters : Text
  blanks : Text
  word : Text
  rest : Text
  whole : s = front ++ (letters ++ (blanks ++ (word ++ rest)))
  mention : Mention phrase letters blanks word rest

namespace Occurrence

/-- The number of characters before a mention. -/
def start (o : Occurrence phrase s) : Nat := o.front.length

/-- The number of characters up to the end of a mention. -/
def stop (o : Occurrence phrase s) : Nat :=
  o.start + (o.letters.length + (o.blanks.length + o.word.length))

theorem start_lt_stop (o : Occurrence phrase s) : o.start < o.stop := by
  have named := List.length_pos_iff.2 o.mention.named
  unfold stop
  omega

/-- A mention is known by its start alone. -/
theorem eq_of_start {o p : Occurrence phrase s} (same : o.start = p.start) : o = p := by
  obtain ⟨front, letters, blanks, word, rest, whole, mention⟩ := o
  obtain ⟨front', letters', blanks', word', rest', whole', mention'⟩ := p
  obtain ⟨rfl, remains⟩ := List.append_inj (whole.symm.trans whole') same
  have lengths : letters.length = letters'.length := by
    simpa using congrArg List.length (mention.folds.trans mention'.folds.symm)
  have read := read?_of_mention mention
  rw [remains, read?_of_mention mention'] at read
  obtain ⟨rfl, rfl⟩ := Prod.mk.inj (Option.some.inj read)
  obtain ⟨rfl, gap⟩ := List.append_inj remains lengths
  obtain rfl := List.append_cancel_right gap
  rfl

/-- What follows a mention starts where the mention stops. -/
theorem stop_add_length_rest (o : Occurrence phrase s) : o.stop + o.rest.length = s.length := by
  have lengths := congrArg List.length o.whole
  simp only [List.length_append] at lengths
  unfold stop start
  omega

/-- Nothing is mentioned in an empty text. -/
theorem not_nil (o : Occurrence phrase []) : False := by
  have last := o.stop_add_length_rest
  have first := o.start_lt_stop
  simp only [List.length_nil] at last
  omega

/-- The mention that a text begins with is the one that is read there. -/
theorem read?_eq_some_iff {word rest : Text} :
    read? phrase s = some (word, rest) ↔
      ∃ o : Occurrence phrase s, o.start = 0 ∧ o.word = word ∧ o.rest = rest := by
  constructor
  · intro read
    obtain ⟨letters, blanks, whole, mention⟩ := mention_of_read? read
    exact ⟨⟨[], letters, blanks, word, rest, whole, mention⟩, rfl, rfl, rfl⟩
  · rintro ⟨⟨front, letters, blanks, word, rest, rfl, mention⟩, first, rfl, rfl⟩
    obtain rfl := List.length_eq_zero_iff.1 first
    exact read?_of_mention mention

/-- A mention with a text put before it. -/
def behind (t : Text) (o : Occurrence phrase s) : Occurrence phrase (t ++ s) where
  front := t ++ o.front
  letters := o.letters
  blanks := o.blanks
  word := o.word
  rest := o.rest
  whole := by rw [List.append_assoc, ← o.whole]
  mention := o.mention

@[simp] theorem word_behind (o : Occurrence phrase s) : (o.behind t).word = o.word := rfl

@[simp] theorem start_behind (o : Occurrence phrase s) : (o.behind t).start = t.length + o.start :=
  List.length_append

@[simp] theorem stop_behind (o : Occurrence phrase s) : (o.behind t).stop = t.length + o.stop := by
  have start := start_behind (t := t) o
  unfold stop
  rw [start, Nat.add_assoc]
  rfl

/-- A mention that starts behind a text stands in what follows it. -/
theorem exists_behind (o : Occurrence phrase (t ++ s)) (past : t.length ≤ o.start) :
    ∃ later : Occurrence phrase s, later.behind t = o := by
  obtain ⟨front, letters, blanks, word, rest, whole, mention⟩ := o
  change t.length ≤ front.length at past
  have before : t <+: front :=
    List.prefix_of_prefix_length_le ⟨s, rfl⟩ ⟨_, whole.symm⟩ past
  obtain ⟨more, rfl⟩ := before
  rw [List.append_assoc] at whole
  exact ⟨⟨more, letters, blanks, word, rest, List.append_cancel_left whole, mention⟩, rfl⟩

/-- One mention ends before another starts. -/
def Before (o p : Occurrence phrase s) : Prop := o.stop ≤ p.start

instance : Std.Irrefl (@Before phrase s) where
  irrefl o before := absurd before (Nat.not_le.2 o.start_lt_stop)

instance : Std.Antisymm (@Before phrase s) where
  antisymm o p before after := by
    have first := o.start_lt_stop
    have second := p.start_lt_stop
    unfold Before at before after
    omega

/-- A mention starts inside another. -/
def Inside (o p : Occurrence phrase s) : Prop := p.start < o.start ∧ o.start < p.stop

end Occurrence

open Occurrence

/-! ## Scans -/

variable {found : List (Occurrence phrase s)}

/-- The mentions that a walk from the left meets: each ends before the next one starts, and all others start
inside one of them. -/
structure Scanned (found : List (Occurrence phrase s)) : Prop where
  apart : found.Pairwise Before
  complete : ∀ o : Occurrence phrase s, o ∈ found ∨ ∃ other ∈ found, o.Inside other

/-- Two mentions that a scan gives do not lie inside each other. -/
theorem Scanned.not_inside (scanned : Scanned found) {o p : Occurrence phrase s} (first : o ∈ found)
    (second : p ∈ found) : ¬ o.Inside p := by
  rintro ⟨after, inside⟩
  have differ : o ≠ p := by
    rintro rfl
    exact absurd after (Nat.lt_irrefl _)
  have symmetric : found.Pairwise fun a b => a.Before b ∨ b.Before a :=
    scanned.apart.imp .inl
  have : Std.Symm fun a b : Occurrence phrase s => a.Before b ∨ b.Before a := ⟨fun _ _ => Or.symm⟩
  rcases symmetric.forall first second differ with before | before
  · have := o.start_lt_stop
    unfold Before at before
    omega
  · exact absurd before (Nat.not_le.2 inside)

/-- A mention that one scan gives is given by every other. By induction on where it starts: what it could
start inside of comes before it, and is given by both. -/
theorem Scanned.mem {others : List (Occurrence phrase s)} (scanned : Scanned found) (other : Scanned others)
    (o : Occurrence phrase s) : o ∈ found ↔ o ∈ others := by
  induction start : o.start using Nat.strong_induction_on generalizing o with
  | _ n ih =>
    subst start
    constructor
    · intro member
      rcases other.complete o with given | ⟨p, given, inside⟩
      · exact given
      · exact absurd inside (scanned.not_inside member ((ih _ inside.1 p rfl).2 given))
    · intro member
      rcases scanned.complete o with given | ⟨p, given, inside⟩
      · exact given
      · exact absurd inside (other.not_inside member ((ih _ inside.1 p rfl).1 given))

/-- There is only one list of the mentions that a scan gives. -/
theorem Scanned.unique {others : List (Occurrence phrase s)} (scanned : Scanned found)
    (other : Scanned others) : found = others :=
  scanned.apart.eq_of_mem_iff other.apart (scanned.mem other)

/-! ## The walk -/

theorem Scanned.apart_behind (scanned : Scanned found) (t : Text) :
    (found.map (behind t)).Pairwise Before := by
  refine List.pairwise_map.2 (scanned.apart.imp ?_)
  intro o p before
  unfold Before at before ⊢
  rw [stop_behind, start_behind]
  omega

/-- What is left of a text accounts for all mentions that start in it. -/
theorem Scanned.complete_behind (scanned : Scanned found) (o : Occurrence phrase (t ++ s))
    (past : t.length ≤ o.start) :
    o ∈ found.map (behind t) ∨ ∃ other ∈ found.map (behind t), o.Inside other := by
  obtain ⟨later, rfl⟩ := exists_behind o past
  rcases scanned.complete later with given | ⟨other, given, inside⟩
  · exact .inl (List.mem_map_of_mem given)
  · refine .inr ⟨other.behind t, List.mem_map_of_mem given, ?_⟩
    unfold Inside at inside ⊢
    rw [start_behind, start_behind, stop_behind]
    omega

/-- Where no mention stands at its first character, a text has the mentions of what follows. -/
theorem Scanned.cons_unread {c : Char} (scanned : Scanned found) (unread : read? phrase (c :: s) = none) :
    Scanned (found.map (behind [c])) := by
  refine ⟨scanned.apart_behind [c], ?_⟩
  intro o
  apply scanned.complete_behind
  by_contra first
  have read := read?_eq_some_iff.2 ⟨o, Nat.lt_one_iff.1 (Nat.not_le.1 first), rfl, rfl⟩
  cases unread.symm.trans read

/-- A mention at the start of a text goes before those of what follows it. -/
theorem Scanned.cons_read {letters blanks word : Text} {found : List (Occurrence phrase t)}
    (scanned : Scanned found) (mention : Mention phrase letters blanks word t) :
    ∃ first : Occurrence phrase (letters ++ (blanks ++ word) ++ t), first.word = word ∧
      Scanned (first :: found.map (behind (letters ++ (blanks ++ word)))) := by
  let first : Occurrence phrase (letters ++ (blanks ++ word) ++ t) :=
    ⟨[], letters, blanks, word, t, by simp only [List.append_assoc, List.nil_append], mention⟩
  have stop : first.stop = (letters ++ (blanks ++ word)).length := by
    simp [first, Occurrence.stop, Occurrence.start]
  refine ⟨first, rfl, List.pairwise_cons.2 ⟨?_, scanned.apart_behind _⟩, ?_⟩
  · intro o member
    obtain ⟨later, -, rfl⟩ := List.mem_map.1 member
    unfold Before
    rw [start_behind, stop]
    omega
  · intro o
    by_cases past : (letters ++ (blanks ++ word)).length ≤ o.start
    · rcases scanned.complete_behind o past with given | ⟨other, given, inside⟩
      · exact .inl (List.mem_cons_of_mem _ given)
      · exact .inr ⟨other, List.mem_cons_of_mem _ given, inside⟩
    · by_cases begins : o.start = 0
      · obtain rfl : o = first := eq_of_start begins
        exact .inl List.mem_cons_self
      · refine .inr ⟨first, List.mem_cons_self, Nat.pos_of_ne_zero begins, ?_⟩
        rw [stop]
        exact Nat.not_le.1 past

/-- The words of the scan are those of the mentions that a walk from the left meets. -/
theorem exists_scanned (phrase s : Text) :
    ∃ found : List (Occurrence phrase s), Scanned found ∧ found.map Occurrence.word = words phrase s := by
  fun_induction words phrase s with
  | case1 => exact ⟨[], ⟨.nil, fun o => o.not_nil.elim⟩, rfl⟩
  | case2 c s word rest read ih =>
    obtain ⟨found, scanned, same⟩ := ih
    obtain ⟨letters, blanks, whole, mention⟩ := mention_of_read? read
    obtain ⟨first, named, all⟩ := scanned.cons_read mention
    rw [show c :: s = letters ++ (blanks ++ word) ++ rest by
      rw [whole]; simp only [List.append_assoc]]
    refine ⟨_, all, ?_⟩
    rw [List.map_cons, List.map_map, named, ← same]
    rfl
  | case3 c s unread ih =>
    obtain ⟨found, scanned, same⟩ := ih
    refine ⟨_, scanned.cons_unread unread, ?_⟩
    rw [List.map_map, ← same]
    rfl

theorem words_eq_iff {names : List Text} :
    words phrase s = names ↔
      ∃ found : List (Occurrence phrase s), Scanned found ∧ found.map Occurrence.word = names := by
  obtain ⟨found, scanned, same⟩ := exists_scanned phrase s
  constructor
  · rintro rfl
    exact ⟨found, scanned, same⟩
  · rintro ⟨others, other, rfl⟩
    rw [scanned.unique other] at same
    exact same.symm

/-- The second keyword is the word of the first mention, and what starts with it is passed over. -/
example : sources "FROM from t FROM u".toList = ["from".toList, "u".toList] := by decide +kernel

/-! ## The first mention -/

/-- The first mention of a scan starts before all others, also before those inside another. -/
theorem Scanned.start_le {first : Occurrence phrase s} (scanned : Scanned (first :: found))
    (o : Occurrence phrase s) : first.start ≤ o.start := by
  have least : ∀ p ∈ first :: found, first.start ≤ p.start := by
    intro p member
    rcases List.mem_cons.1 member with rfl | later
    · exact Nat.le_refl _
    · exact Nat.le_trans (Nat.le_of_lt first.start_lt_stop) (List.rel_of_pairwise_cons scanned.apart later)
  rcases scanned.complete o with given | ⟨other, given, inside⟩
  · exact least o given
  · exact Nat.le_trans (least other given) (Nat.le_of_lt inside.1)

/-- The first word of a scan is that of the mention that starts before all others. -/
theorem head?_words_eq_some_iff {name : Text} :
    (words phrase s).head? = some name ↔
      ∃ o : Occurrence phrase s, o.word = name ∧ ∀ other : Occurrence phrase s, o.start ≤ other.start := by
  obtain ⟨found, scanned, same⟩ := exists_scanned phrase s
  rw [← same]
  cases found with
  | nil =>
    constructor
    · intro none
      cases none
    · rintro ⟨o, -, -⟩
      rcases scanned.complete o with given | ⟨other, given, -⟩ <;> cases given
  | cons first found =>
    rw [List.map_cons, List.head?_cons, Option.some.injEq]
    constructor
    · intro named
      exact ⟨first, named, scanned.start_le⟩
    · rintro ⟨o, named, least⟩
      rw [← named, eq_of_start (Nat.le_antisymm (scanned.start_le o) (least first))]

/-- A scan gives no word exactly where the text has no mention. -/
theorem head?_words_eq_none_iff : (words phrase s).head? = none ↔ IsEmpty (Occurrence phrase s) := by
  obtain ⟨found, scanned, same⟩ := exists_scanned phrase s
  rw [← same, List.head?_eq_none_iff, List.map_eq_nil_iff]
  constructor
  · rintro rfl
    refine ⟨fun o => ?_⟩
    rcases scanned.complete o with given | ⟨other, given, -⟩ <;> cases given
  · intro empty
    exact List.eq_nil_iff_forall_not_mem.2 fun o _ => empty.false o

/-! ## Tables -/

/-- The sources of a text are the words of its mentions of `FROM` in the order of a walk from the left, which
passes over those only that start inside one it has met. The target is the word of the mention of
`CREATE TABLE` that starts first, and there is none exactly if there is no such mention. -/
theorem tables_of_occurrences (sql : Text) :
    (∀ names, sources sql = names ↔
      ∃ found : List (Occurrence sourcePhrase sql),
        Scanned found ∧ found.map Occurrence.word = names) ∧
    (∀ name, target? sql = some name ↔
      ∃ o : Occurrence targetPhrase sql, o.word = name ∧
        ∀ other : Occurrence targetPhrase sql, o.start ≤ other.start) ∧
    (target? sql = none ↔ IsEmpty (Occurrence targetPhrase sql)) :=
  ⟨fun _ => words_eq_iff, fun _ => head?_words_eq_some_iff, head?_words_eq_none_iff⟩

end ColumnLineage.MentionScan
