import ColumnLineage.Proofs.ListConcatenation

/-! The select list by positions. The tokens of a list can also be read by counting: a walk keeps the position it
is at, the one where its item began and the depth of parentheses, and cuts out runs between two positions. Each
step of it could fail, at a position outside, at a run that does not lie within, or below zero. None does: the
item begins no later than the walk stands, and the walk stands within the tokens. So it ends with a list, and
that is the select list of the tokens. -/

namespace ColumnLineage.Positions
open ListConcatenation (items_cons)
open ListContext (not_isSkipped_of_endsList)
open Parentheses (Apart apart_of_isAnyOf apart_of_isSpacing)
open SelectListParts (EndsList exists_isItem ofSegment?_of_isItem ofSegment?_of_spacing)
open SelectedItems (segmentsFrom_isInfix)
open Sql
open SelectList (afterAnySelect? afterOuterSelect? afterQuantifiers afterSelect? itemsAtStart ofItems? ofTokens?
  regionFrom segmentsFrom)

/-! ## Steps that can fail -/

/-- Why a step fails: a position outside a list, a run that does not lie within one, or a number below zero. -/
inductive Breach where
  | outside (position length : Nat)
  | run (start stop length : Nat)
  | belowZero

/-- The outcome of steps that can fail. -/
abbrev Checked := Except Breach

/-- A number less another one. -/
def less (n k : Nat) : Checked Nat :=
  if k ≤ n then .ok (n - k) else .error .belowZero

/-- What stands at a position. -/
def get (list : List α) (position : Nat) : Checked α :=
  match list[position]? with
  | some a => .ok a
  | none => .error (.outside position list.length)

/-- The run from one position up to another. -/
def slice (list : List α) (start stop : Nat) : Checked (List α) :=
  if start ≤ stop ∧ stop ≤ list.length then .ok ((list.take stop).drop start)
  else .error (.run start stop list.length)

variable {list front middle back : List α} {a : α}

theorem less_of_le {n k : Nat} (le : k ≤ n) : less n k = .ok (n - k) :=
  if_pos le

theorem get_append (front back : List α) (a : α) : get (front ++ a :: back) front.length = .ok a := by
  rw [get, List.getElem?_append_right (Nat.le_refl _), Nat.sub_self]
  rfl

theorem slice_append (front middle back : List α) :
    slice (front ++ (middle ++ back)) front.length (front.length + middle.length) = .ok middle := by
  rw [slice, if_pos (by simp), ← List.append_assoc, ← List.length_append, List.take_left,
    List.drop_left]

/-! ## Positions of significant tokens -/

/-- The positions of the tokens that are not separators, where the first token stands at `start`. -/
def significantFrom : Nat → List Token → List Nat
  | _, [] => []
  | start, token :: rest =>
    if token.isSpacing then significantFrom (start + 1) rest else start :: significantFrom (start + 1) rest

variable {tokens segment rest done current gap : List Token} {token : Token} {start depth position : Nat}

theorem significantFrom_append (start : Nat) (front back : List Token) :
    significantFrom start (front ++ back) =
      significantFrom start front ++ significantFrom (start + front.length) back := by
  induction front generalizing start with
  | nil => rfl
  | cons token front ih =>
    rw [List.cons_append, significantFrom, significantFrom, ih, List.length_cons,
      Nat.add_right_comm start 1, ← Nat.add_assoc]
    split <;> rfl

theorem significantFrom_of_spacing (spacing : ∀ token ∈ tokens, token.isSpacing = true) (start : Nat) :
    significantFrom start tokens = [] := by
  induction tokens generalizing start with
  | nil => rfl
  | cons token tokens ih =>
    obtain ⟨first, others⟩ := List.forall_mem_cons.1 spacing
    rw [significantFrom, if_pos first, ih others]

theorem significantFrom_cons (solid : token.isSpacing = false) (start : Nat) (rest : List Token) :
    significantFrom start (token :: rest) = start :: significantFrom (start + 1) rest :=
  if_neg (by simp [solid])

/-- The item of a segment: the run from its first significant token to its last. -/
def item (segment : List Token) : Checked (Option SelectItem) :=
  match (significantFrom 0 segment).head?, (significantFrom 0 segment).getLast? with
  | some first, some last => do return some ⟨← slice segment first (last + 1)⟩
  | _, _ => return none

theorem item_eq (segment : List Token) : item segment = .ok (SelectItem.ofSegment? segment) := by
  rcases exists_isItem segment with spacing | ⟨found, held⟩
  · rw [item, significantFrom_of_spacing spacing, ofSegment?_of_spacing spacing]
    rfl
  · rw [ofSegment?_of_isItem held]
    obtain ⟨⟨front, back, rfl, atFront, atBack⟩, trimmed⟩ := held
    obtain ⟨tokens⟩ := found
    obtain ⟨first, more, begins, solidFirst⟩ : ∃ first more, tokens = first :: more ∧ first.isSpacing = false :=
      trimmed.begins
    obtain ⟨others, last, ends, solidLast⟩ : ∃ others last, tokens = others ++ [last] ∧ last.isSpacing = false :=
      trimmed.ends
    have positions : significantFrom 0 (front ++ tokens ++ back) = significantFrom front.length tokens := by
      rw [significantFrom_append, significantFrom_append, significantFrom_of_spacing atFront,
        significantFrom_of_spacing atBack, List.nil_append, List.append_nil, Nat.zero_add]
    have head : (significantFrom front.length tokens).head? = some front.length := by
      rw [begins, significantFrom_cons solidFirst]
      rfl
    have final : (significantFrom front.length tokens).getLast? = some (front.length + others.length) := by
      rw [ends, significantFrom_append, significantFrom_cons solidLast]
      exact List.getLast?_append_of_ne_nil _ (List.cons_ne_nil _ _)
    have within :
        slice (front ++ tokens ++ back) front.length (front.length + others.length + 1) = .ok tokens := by
      have length : front.length + others.length + 1 = front.length + tokens.length := by
        simp [ends, Nat.add_assoc]
      rw [length, List.append_assoc]
      exact slice_append front tokens back
    simp only [item, positions, head, final, within]
    rfl

/-! ## The walk -/

/-- The item between two positions. -/
def itemBetween (tokens : List Token) (start stop : Nat) : Checked (Option SelectItem) := do
  item (← slice tokens start stop)

theorem itemBetween_eq (whole : tokens = done ++ (current ++ rest)) :
    itemBetween tokens done.length (done.length + current.length) = .ok (SelectItem.ofSegment? current) := by
  rw [itemBetween, whole, slice_append]
  exact item_eq current

/-- Where a walk over a list stops: at the position where its last item began and the one that ends the list, with
the items before. -/
structure Stop where
  start : Nat
  stop : Nat
  items : List SelectItem

/-- The walk over what is left of some tokens, from a position on, within an item that began at `start`. -/
def walk (tokens : List Token) : List Token → Nat → Nat → Nat → List SelectItem → Checked Stop
  | [], _, start, _, items => return ⟨start, tokens.length, items⟩
  | token :: rest, position, start, depth, items =>
    match token with
    | .symbol .openParen => walk tokens rest (position + 1) start (depth + 1) items
    | .symbol .closeParen =>
      if depth = 0 then return ⟨start, position, items⟩
      else do walk tokens rest (position + 1) start (← less depth 1) items
    | .symbol .comma =>
      if depth = 0 then do
        let found ← itemBetween tokens start position
        walk tokens rest (position + 1) (position + 1) depth (items ++ found.toList)
      else walk tokens rest (position + 1) start depth items
    | token =>
      if depth = 0 ∧ token.isAnyOf clauseWords = true then return ⟨start, position, items⟩
      else walk tokens rest (position + 1) start depth items

/-- The items where a walk stopped, with the one it was in. -/
def itemsAt (tokens : List Token) (stop : Stop) : Checked (List SelectItem) :=
  if stop.start < stop.stop then do
    let found ← itemBetween tokens stop.start stop.stop
    return stop.items ++ found.toList
  else return stop.items

/-- The items of segments, the first of which has some more tokens before it. -/
def leading (current : List Token) (segments : List (List Token)) : List SelectItem :=
  (segments.modifyHead (current ++ ·)).filterMap SelectItem.ofSegment?

theorem leading_cons (current segment : List Token) (segments : List (List Token)) :
    leading current (segment :: segments) =
      (SelectItem.ofSegment? (current ++ segment)).toList ++ segments.filterMap SelectItem.ofSegment? := by
  rw [leading, List.modifyHead_cons, List.filterMap_cons]
  split <;> rename_i found <;> rw [found] <;> rfl

theorem leading_nil (segments : List (List Token)) :
    leading [] segments = segments.filterMap SelectItem.ofSegment? := by
  have rejoined : ([] ++ · : List Token → List Token) = id := rfl
  rw [leading, rejoined, List.modifyHead_id]
  rfl

/-- A token that neither ends a list nor parts its items goes into the segment it stands in. -/
theorem leading_further (current : List Token)
    (stays : ¬ (depth = 0 ∧ (token = .symbol .closeParen ∨ token.isAnyOf clauseWords = true)))
    (joins : ¬ (depth = 0 ∧ token = .symbol .comma)) :
    leading current (segmentsFrom depth (regionFrom depth (token :: rest))) =
      leading (current ++ [token])
        (segmentsFrom (token.depthAfter depth) (regionFrom (token.depthAfter depth) rest)) := by
  obtain ⟨segment, others, parted, -⟩ :=
    segmentsFrom_isInfix (token.depthAfter depth) (regionFrom (token.depthAfter depth) rest)
  rw [regionFrom, if_neg stays, segmentsFrom, if_neg joins, parted]
  simp only [leading_cons, List.append_assoc, List.singleton_append]

/-- A comma that parts items closes the segment before it. -/
theorem leading_comma (current rest : List Token) :
    leading current (segmentsFrom 0 (regionFrom 0 (.symbol .comma :: rest))) =
      (SelectItem.ofSegment? current).toList ++ leading [] (segmentsFrom 0 (regionFrom 0 rest)) := by
  have stays : ¬ (0 = 0 ∧ (Token.symbol .comma = .symbol .closeParen ∨
      (Token.symbol .comma).isAnyOf clauseWords = true)) := by
    rintro ⟨-, close | clause⟩
    · cases close
    · cases clause
  rw [regionFrom, if_neg stays, segmentsFrom, if_pos ⟨rfl, rfl⟩, leading_cons, List.append_nil, leading_nil]
  rfl

/-- Where a walk stops, the tokens since the last cut are the last segment. -/
theorem itemsAt_stop (whole : tokens = done ++ (current ++ rest)) (items : List SelectItem) :
    itemsAt tokens ⟨done.length, done.length + current.length, items⟩ = .ok (items ++ leading current [[]]) := by
  rw [leading_cons, List.append_nil, List.filterMap_nil, List.append_nil]
  by_cases some : current = []
  · subst some
    have stopped : ¬ done.length < done.length + ([] : List Token).length := Nat.lt_irrefl _
    rw [itemsAt, if_neg stopped]
    exact congrArg Except.ok (List.append_nil items).symm
  · have later : done.length < done.length + current.length :=
      Nat.lt_add_of_pos_right (List.length_pos_iff.2 some)
    simp only [itemsAt, if_pos later, itemBetween_eq whole]
    rfl

/-- From any position on, the walk ends with the items before it and those of what is left, the first of them
with the tokens since the last cut. By induction on what is left; the positions stay where the tokens since the
last cut begin and end. -/
theorem walk_items (whole : tokens = done ++ (current ++ rest)) (depth : Nat) (items : List SelectItem) :
    (walk tokens rest (done.length + current.length) done.length depth items >>= itemsAt tokens) =
      .ok (items ++ leading current (segmentsFrom depth (regionFrom depth rest))) := by
  induction rest generalizing done current depth items with
  | nil =>
    have length : tokens.length = done.length + current.length := by simp [whole]
    have stopped := itemsAt_stop whole items
    rw [← length] at stopped ⊢
    exact stopped
  | cons token rest ih =>
    have stopped := itemsAt_stop whole items
    have further (depth : Nat) :
        (walk tokens rest (done.length + current.length + 1) done.length depth items >>= itemsAt tokens) =
          .ok (items ++ leading (current ++ [token]) (segmentsFrom depth (regionFrom depth rest))) := by
      have next : tokens = done ++ ((current ++ [token]) ++ rest) := by rw [whole]; simp
      have step := ih next depth items
      rwa [List.length_append, List.length_singleton, ← Nat.add_assoc] at step
    unfold walk
    split
    · rw [further, leading_further current (by rintro ⟨-, h | h⟩ <;> cases h) (by rintro ⟨-, h⟩; cases h)]
      rfl
    · by_cases outside : depth = 0
      · rw [if_pos outside, regionFrom, if_pos ⟨outside, .inl rfl⟩]
        exact stopped
      · rw [if_neg outside, less_of_le (Nat.pos_of_ne_zero outside),
          leading_further current (fun ends => outside ends.1) (fun parts => outside parts.1)]
        exact further _
    · by_cases outside : depth = 0
      · subst outside
        have next : tokens = (done ++ (current ++ [.symbol .comma])) ++ ([] ++ rest) := by rw [whole]; simp
        have step := ih next 0 (items ++ (SelectItem.ofSegment? current).toList)
        have position :
            (done ++ (current ++ [Token.symbol .comma])).length = done.length + current.length + 1 := by
          simp [Nat.add_assoc]
        rw [position, List.append_assoc] at step
        simp only [if_true, itemBetween_eq whole, leading_comma]
        exact step
      · rw [if_neg outside, leading_further current (fun ends => outside ends.1) (fun parts => outside parts.1)]
        exact further _
    · rename_i notOpen notClose notComma
      have level : token.depthAfter depth = depth := Apart.depthAfter_eq ⟨notOpen, notClose⟩ depth
      by_cases ends : depth = 0 ∧ token.isAnyOf clauseWords = true
      · rw [if_pos ends, regionFrom, if_pos ⟨ends.1, .inr ends.2⟩]
        exact stopped
      · rw [if_neg ends, further, leading_further current, level]
        · rintro ⟨outside, close | clause⟩
          · exact notClose close
          · exact ends ⟨outside, clause⟩
        · exact fun parts => notComma parts.2

/-! ## The start of the list -/

/-- The position of the `SELECT` whose list is taken, in what is left of some tokens from a position on: the first
outside parentheses or, where there is none, the first one met inside. -/
def selectPosition? : List Token → Nat → Nat → Option Nat → Option Nat
  | [], _, _, nested => nested
  | token :: rest, position, depth, nested =>
    if token.isAnyOf ["SELECT"] = true then
      if depth = 0 then some position
      else selectPosition? rest (position + 1) depth (nested <|> some position)
    else selectPosition? rest (position + 1) (token.depthAfter depth) nested

/-- The position behind the last quantifier at the start of what is left of some tokens, from a position on, or
else `start`. -/
def quantified : List Token → Nat → Nat → Nat
  | [], _, start => start
  | token :: rest, position, start =>
    if token.isSpacing then quantified rest (position + 1) start
    else if token.isAnyOf quantifierWords then quantified rest (position + 1) (position + 1)
    else start

/-- The select list of some tokens. -/
def list? (tokens : List Token) : Checked (Option SelectList) :=
  match selectPosition? tokens 0 0 none with
  | none => return none
  | some select => do
    let start := quantified (tokens.drop (select + 1)) (select + 1) (select + 1)
    let stop ← walk tokens (tokens.drop start) start start 0 []
    return ofItems? (← itemsAt tokens stop)

/-- Whatever stands behind a position that was found is what follows the `SELECT` whose list is taken. -/
theorem drop_selectPosition? (whole : tokens = done ++ rest) (depth : Nat) (nested : Option Nat) :
    (selectPosition? rest done.length depth nested).map (fun select => tokens.drop (select + 1)) =
      (afterOuterSelect? depth rest <|> nested.map (fun select => tokens.drop (select + 1)) <|>
        afterAnySelect? rest) := by
  induction rest generalizing done depth nested with
  | nil => cases nested <;> rfl
  | cons token rest ih =>
    have next : tokens = (done ++ [token]) ++ rest := by rw [whole]; simp
    have behind : tokens.drop (done.length + 1) = rest := by
      rw [next, ← List.length_singleton (a := token), ← List.length_append, List.drop_left]
    have step := ih next
    simp only [List.length_append, List.length_singleton] at step
    rw [selectPosition?, afterOuterSelect?, afterAnySelect?]
    by_cases named : token.isAnyOf ["SELECT"] = true
    · rw [if_pos named, if_pos named]
      by_cases outside : depth = 0
      · rw [if_pos outside, if_pos ⟨outside, named⟩, Option.map_some, behind]
        rfl
      · rw [if_neg outside, if_neg (fun outer => outside outer.1), step,
          (apart_of_isAnyOf named).depthAfter_eq depth]
        cases nested with
        | none => exact congrArg (afterOuterSelect? depth rest <|> some ·) behind
        | some first => rfl
    · rw [if_neg named, if_neg (fun outer => named outer.2), if_neg named, step]

/-- A position that was found is that of a token. -/
theorem selectPosition?_lt {nested : Option Nat} (whole : tokens = done ++ rest)
    (inside : ∀ position ∈ nested, position < tokens.length)
    (found : selectPosition? rest done.length depth nested = some position) : position < tokens.length := by
  induction rest generalizing done depth nested with
  | nil => exact inside position found
  | cons token rest ih =>
    have here : done.length < tokens.length := by simp [whole]
    have next : tokens = (done ++ [token]) ++ rest := by rw [whole]; simp
    have length : (done ++ [token]).length = done.length + 1 := List.length_append
    rw [selectPosition?, ← length] at found
    split at found
    · split at found
      · obtain rfl := Option.some.inj found
        exact here
      · refine ih next ?_ found
        cases nested with
        | none => simpa using here
        | some first => exact inside
    · exact ih next inside found

/-- The position behind the quantifiers stands before the rest, with separators between. -/
theorem quantified_split (whole : tokens = done ++ (gap ++ rest))
    (spacing : ∀ token ∈ gap, token.isSpacing = true) :
    ∃ front blanks, tokens = front ++ (blanks ++ afterQuantifiers rest) ∧
      (∀ token ∈ blanks, token.isSpacing = true) ∧
      quantified rest (done.length + gap.length) done.length = front.length := by
  induction rest generalizing done gap with
  | nil => exact ⟨done, gap, whole, spacing, rfl⟩
  | cons token rest ih =>
    rw [afterQuantifiers, quantified]
    by_cases blank : token.isSpacing = true
    · have next : tokens = done ++ ((gap ++ [token]) ++ rest) := by rw [whole]; simp
      obtain ⟨front, blanks, split, allBlank, position⟩ :=
        ih next (List.forall_mem_append.2 ⟨spacing, by simpa using blank⟩)
      refine ⟨front, blanks, ?_, allBlank, ?_⟩
      · rw [List.dropWhile_cons_of_pos (by simp [blank])]
        exact split
      · rw [if_pos blank, ← position, List.length_append, List.length_singleton, ← Nat.add_assoc]
    · by_cases quantifier : token.isAnyOf quantifierWords = true
      · have next : tokens = (done ++ (gap ++ [token])) ++ ([] ++ rest) := by rw [whole]; simp
        obtain ⟨front, blanks, split, allBlank, position⟩ := ih next (by simp)
        refine ⟨front, blanks, ?_, allBlank, ?_⟩
        · rw [List.dropWhile_cons_of_pos (by simp [quantifier])]
          exact split
        · rw [if_neg blank, if_pos quantifier, ← position]
          simp [Nat.add_assoc]
      · refine ⟨done, gap, ?_, spacing, ?_⟩
        · rw [List.dropWhile_cons_of_neg (by simp [blank, quantifier])]
          exact whole
        · rw [if_neg blank, if_neg quantifier]

/-- Separators before a list belong to no item. -/
theorem items_of_blanks (spacing : ∀ token ∈ gap, token.isSpacing = true) (rest : List Token) :
    (segmentsFrom 0 (regionFrom 0 (gap ++ rest))).filterMap SelectItem.ofSegment? =
      (segmentsFrom 0 (regionFrom 0 rest)).filterMap SelectItem.ofSegment? := by
  induction gap with
  | nil => rfl
  | cons token gap ih =>
    obtain ⟨blank, others⟩ := List.forall_mem_cons.1 spacing
    have stays : ¬ (0 = 0 ∧ EndsList token) := fun ends => not_isSkipped_of_endsList ends.2 (.inl blank)
    rw [List.cons_append, regionFrom, if_neg stays, (apart_of_isSpacing blank).depthAfter_eq, items_cons blank,
      ih others]

/-- The walk over any tokens breaks nowhere, and gives their select list. -/
theorem list?_eq (tokens : List Token) : list? tokens = .ok (ofTokens? tokens) := by
  have whole : tokens = [] ++ tokens := rfl
  have found :
      (selectPosition? tokens 0 0 none).map (fun select => tokens.drop (select + 1)) = afterSelect? tokens :=
    drop_selectPosition? whole 0 none
  unfold list? ofTokens?
  rw [← found]
  cases position : selectPosition? tokens 0 0 none with
  | none => rfl
  | some select =>
    have inside : select < tokens.length := selectPosition?_lt whole (by simp) position
    have before : (tokens.take (select + 1)).length = select + 1 := List.length_take_of_le inside
    have parted : tokens = tokens.take (select + 1) ++ ([] ++ tokens.drop (select + 1)) :=
      (List.take_append_drop _ _).symm
    obtain ⟨front, blanks, split, spacing, start⟩ := quantified_split parted (by simp)
    rw [before, List.length_nil, Nat.add_zero] at start
    have behind : tokens.drop front.length = blanks ++ afterQuantifiers (tokens.drop (select + 1)) :=
      (congrArg (List.drop front.length) split).trans List.drop_left
    have walked : (walk tokens (tokens.drop front.length) front.length front.length 0 [] >>= itemsAt tokens) =
        .ok (itemsAtStart (tokens.drop (select + 1))) := by
      rw [behind, itemsAtStart, ← items_of_blanks spacing, ← leading_nil]
      have fresh : tokens = front ++ ([] ++ (blanks ++ afterQuantifiers (tokens.drop (select + 1)))) := split
      exact walk_items fresh 0 []
    simp only [start, ← bind_assoc]
    rw [walked]
    rfl

end ColumnLineage.Positions
