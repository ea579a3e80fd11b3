import ColumnLineage.Proofs.Parentheses
import ColumnLineage.Proofs.SelectedItems

/-! What the select list of some tokens is, told by its parts. A `SELECT` is taken, separators and quantifiers
after it are skipped, and the region of the list reaches to the first token outside parentheses that ends it.
Commas outside parentheses cut the region into segments, and the items are the segments that hold more than
separators, without those at their ends. The walk over the tokens gives exactly this list, whatever the
tokens are: their parentheses need not match. -/

namespace ColumnLineage.SelectListParts
open Parentheses
open SelectedItems (Trimmed segmentsFrom_isInfix significant_append significant_of_spacing trimSpacing_trimmed)
open Sql
open SelectList (afterAnySelect? afterOuterSelect? afterQuantifiers afterSelect? itemsAtStart ofItems? ofTokens?
  regionFrom segmentsFrom)
open StatementSequence (depthAfter)

/-! ## The parts -/

/-- A `SELECT` without quotes. -/
abbrev IsSelect (token : Token) : Prop :=
  token.isAnyOf ["SELECT"] = true

/-- A token that is skipped before a list: a separator, or `DISTINCT` or `ALL` without quotes. -/
abbrev IsSkipped (token : Token) : Prop :=
  token.isSpacing = true ∨ token.isAnyOf quantifierWords = true

/-- A token that ends a list outside parentheses: a closing parenthesis, or a clause word without quotes. -/
abbrev EndsList (token : Token) : Prop :=
  token = .symbol .closeParen ∨ token.isAnyOf clauseWords = true

/-- A comma. -/
abbrev IsComma (token : Token) : Prop :=
  token = .symbol .comma

/-- The segments of some tokens between the commas outside parentheses. -/
inductive Segments : List Token → List (List Token) → Prop where
  | last {segment : List Token} (whole : ¬ StandsOutside 0 IsComma segment) : Segments segment [segment]
  | comma {segment rest : List Token} {segments : List (List Token)}
      (whole : ¬ StandsOutside 0 IsComma segment) (closed : depthAfter 0 segment = 0)
      (more : Segments rest segments) :
      Segments (segment ++ .symbol .comma :: rest) (segment :: segments)

/-- An item is all of a segment but the separators at its ends. -/
structure IsItem (segment : List Token) (item : SelectItem) : Prop where
  within : ∃ front back, segment = front ++ item.tokens ++ back ∧
    (∀ token ∈ front, token.isSpacing = true) ∧ ∀ token ∈ back, token.isSpacing = true
  trimmed : Trimmed item.tokens

/-- The items of segments, in their order. A segment of separators has none. -/
inductive Items : List (List Token) → List SelectItem → Prop where
  | nil : Items [] []
  | empty {segment : List Token} {segments : List (List Token)} {items : List SelectItem}
      (spacing : ∀ token ∈ segment, token.isSpacing = true) (more : Items segments items) :
      Items (segment :: segments) items
  | item {segment : List Token} {segments : List (List Token)} {item : SelectItem} {items : List SelectItem}
      (held : IsItem segment item) (more : Items segments items) :
      Items (segment :: segments) (item :: items)

/-- Tokens with a `SELECT`, parted at the list of the one that is taken: the first outside parentheses, or
the first of all where none stands outside. -/
structure Parts (tokens : List Token) where
  before : List Token
  select : Token
  skipped : List Token
  region : List Token
  after : List Token
  segments : List (List Token)
  items : List SelectItem
  whole : tokens = before ++ select :: (skipped ++ (region ++ after))
  named : IsSelect select
  first : depthAfter 0 before = 0 ∧ ¬ StandsOutside 0 IsSelect before ∨
    ¬ StandsOutside 0 IsSelect tokens ∧ ∀ token ∈ before, ¬ IsSelect token
  skips : ∀ token ∈ skipped, IsSkipped token
  begins : ∀ token ∈ (region ++ after).head?, ¬ IsSkipped token
  inside : ¬ StandsOutside 0 EndsList region
  ends : ∀ token ∈ after.head?, EndsList token ∧ depthAfter 0 region = 0
  cut : Segments region segments
  held : Items segments items

/-- The answer for some items: none, a single one, or several. -/
inductive Answers : List SelectItem → Option SelectList → Prop where
  | none : Answers [] none
  | single (item : SelectItem) : Answers [item] (some (.single item))
  | several (first second : SelectItem) (others : List SelectItem) :
      Answers (first :: second :: others) (some (.several first second others))

/-- The list of some tokens: none without a `SELECT`, and otherwise that of the items of its parts. -/
inductive Lists (tokens : List Token) : Option SelectList → Prop where
  | missing (unnamed : ∀ token ∈ tokens, ¬ IsSelect token) : Lists tokens none
  | parts (parts : Parts tokens) (answers : Answers parts.items answer) : Lists tokens answer

/-! ## The walk follows the parts -/

variable {depth : Nat} {tokens before rest region after segment : List Token} {select token : Token}
  {segments : List (List Token)} {item : SelectItem} {items : List SelectItem} {answer : Option SelectList}

theorem afterOuterSelect?_of_first (named : IsSelect select) (outside : depthAfter depth before = 0)
    (first : ¬ StandsOutside depth IsSelect before) :
    afterOuterSelect? depth (before ++ select :: rest) = some rest := by
  induction before generalizing depth with
  | nil =>
    obtain rfl : depth = 0 := outside
    rw [List.nil_append, afterOuterSelect?, if_pos ⟨rfl, named⟩]
  | cons token before ih =>
    rw [standsOutside_cons, not_or] at first
    rw [List.cons_append, afterOuterSelect?, if_neg first.1, ih outside first.2]

theorem afterOuterSelect?_of_none (none : ¬ StandsOutside depth IsSelect tokens) :
    afterOuterSelect? depth tokens = .none := by
  induction tokens generalizing depth with
  | nil => rfl
  | cons token tokens ih =>
    rw [standsOutside_cons, not_or] at none
    rw [afterOuterSelect?, if_neg none.1, ih none.2]

theorem afterAnySelect?_of_first (named : IsSelect select) (first : ∀ token ∈ before, ¬ IsSelect token) :
    afterAnySelect? (before ++ select :: rest) = some rest := by
  induction before with
  | nil => rw [List.nil_append, afterAnySelect?, if_pos named]
  | cons token before ih =>
    obtain ⟨head, others⟩ := List.forall_mem_cons.1 first
    rw [List.cons_append, afterAnySelect?, if_neg head, ih others]

theorem afterAnySelect?_of_none (none : ∀ token ∈ tokens, ¬ IsSelect token) :
    afterAnySelect? tokens = .none := by
  induction tokens with
  | nil => rfl
  | cons token tokens ih =>
    obtain ⟨head, others⟩ := List.forall_mem_cons.1 none
    rw [afterAnySelect?, if_neg head, ih others]

theorem afterSelect?_of_parts (parts : Parts tokens) :
    afterSelect? tokens = some (parts.skipped ++ (parts.region ++ parts.after)) := by
  unfold afterSelect?
  rcases parts.first with ⟨outside, first⟩ | ⟨nested, first⟩
  · have found : afterOuterSelect? 0
        (parts.before ++ parts.select :: (parts.skipped ++ (parts.region ++ parts.after))) = some _ :=
      afterOuterSelect?_of_first parts.named outside first
    rw [← parts.whole] at found
    rw [found]
    rfl
  · have found : afterAnySelect?
        (parts.before ++ parts.select :: (parts.skipped ++ (parts.region ++ parts.after))) = some _ :=
      afterAnySelect?_of_first parts.named first
    rw [← parts.whole] at found
    rw [afterOuterSelect?_of_none nested, found]
    rfl

theorem afterQuantifiers_of_skipped {skipped : List Token} (skips : ∀ token ∈ skipped, IsSkipped token)
    (begins : ∀ token ∈ rest.head?, ¬ IsSkipped token) : afterQuantifiers (skipped ++ rest) = rest := by
  have dropped : ∀ token ∈ skipped, (token.isSpacing || token.isAnyOf quantifierWords) = true :=
    fun token member => Bool.or_eq_true_iff.2 (skips token member)
  rw [afterQuantifiers, List.dropWhile_append_of_pos dropped]
  cases rest with
  | nil => rfl
  | cons token more => exact List.dropWhile_cons_of_neg (by simpa using begins token rfl)

theorem regionFrom_of_ends (inside : ¬ StandsOutside depth EndsList region)
    (ends : ∀ token ∈ after.head?, EndsList token ∧ depthAfter depth region = 0) :
    regionFrom depth (region ++ after) = region := by
  induction region generalizing depth with
  | nil =>
    cases after with
    | nil => rfl
    | cons token after =>
      obtain ⟨last, outside⟩ := ends token rfl
      obtain rfl : depth = 0 := outside
      rw [List.nil_append, regionFrom, if_pos ⟨rfl, last⟩]
  | cons token region ih =>
    rw [standsOutside_cons, not_or] at inside
    rw [List.cons_append, regionFrom, if_neg inside.1, ih inside.2 ends]

theorem segmentsFrom_of_whole (whole : ¬ StandsOutside depth IsComma segment) :
    segmentsFrom depth segment = [segment] := by
  induction segment generalizing depth with
  | nil => rfl
  | cons token segment ih =>
    rw [standsOutside_cons, not_or] at whole
    rw [segmentsFrom, if_neg whole.1, ih whole.2]

/-- A comma after tokens that close their parentheses parts the segments before it from those after it. -/
theorem segmentsFrom_append (closed : depthAfter depth before = 0) :
    segmentsFrom depth (before ++ .symbol .comma :: rest) = segmentsFrom depth before ++ segmentsFrom 0 rest := by
  induction before generalizing depth with
  | nil =>
    obtain rfl : depth = 0 := closed
    exact if_pos ⟨rfl, rfl⟩
  | cons token before ih =>
    have more := ih closed
    by_cases cuts : depth = 0 ∧ token = .symbol .comma
    · obtain ⟨rfl, rfl⟩ := cuts
      have same : segmentsFrom 0 (before ++ .symbol .comma :: rest) =
          segmentsFrom 0 before ++ segmentsFrom 0 rest := more
      rw [List.cons_append, segmentsFrom, if_pos ⟨rfl, rfl⟩, segmentsFrom, if_pos ⟨rfl, rfl⟩, same,
        List.cons_append]
    · obtain ⟨segment, others, parted, -⟩ := segmentsFrom_isInfix (token.depthAfter depth) before
      rw [List.cons_append, segmentsFrom, if_neg cuts, segmentsFrom, if_neg cuts, more, parted]
      rfl

theorem segmentsFrom_of_segments (cut : Segments region segments) : segmentsFrom 0 region = segments := by
  induction cut with
  | last whole => exact segmentsFrom_of_whole whole
  | comma whole closed _ ih => rw [segmentsFrom_append closed, segmentsFrom_of_whole whole, ih]; rfl

theorem ofSegment?_of_spacing (spacing : ∀ token ∈ segment, token.isSpacing = true) :
    SelectItem.ofSegment? segment = none := by
  have empty : Token.trimSpacing segment = [] := by
    rw [Token.trimSpacing, List.dropWhile_eq_nil_iff.2 spacing]
    rfl
  simp only [SelectItem.ofSegment?, empty]

theorem trimSpacing_of_isItem (held : IsItem segment item) : Token.trimSpacing segment = item.tokens := by
  obtain ⟨⟨front, back, rfl, atFront, atBack⟩, trimmed⟩ := held
  obtain ⟨first, more, begins, solidFirst⟩ := trimmed.begins
  obtain ⟨others, last, ends, solidLast⟩ := trimmed.ends
  have kept : (front ++ item.tokens ++ back).dropWhile Token.isSpacing = item.tokens ++ back := by
    rw [List.append_assoc, List.dropWhile_append_of_pos atFront, begins, List.cons_append]
    exact List.dropWhile_cons_of_neg (by simp [solidFirst])
  have atEnd : ∀ token ∈ back.reverse, token.isSpacing = true :=
    fun token member => atBack token (List.mem_reverse.1 member)
  rw [Token.trimSpacing, kept, List.reverse_append, List.dropWhile_append_of_pos atEnd, ends,
    List.reverse_concat', List.dropWhile_cons_of_neg (by simp [solidLast])]
  simp

theorem ofSegment?_of_isItem (held : IsItem segment item) : SelectItem.ofSegment? segment = some item := by
  obtain ⟨tokens⟩ := item
  obtain ⟨first, more, rfl, -⟩ : ∃ first more, tokens = first :: more ∧ _ := held.trimmed.begins
  simp only [SelectItem.ofSegment?, trimSpacing_of_isItem held]

theorem filterMap_of_items (held : Items segments items) : segments.filterMap SelectItem.ofSegment? = items := by
  induction held with
  | nil => rfl
  | empty spacing _ ih => rw [List.filterMap_cons_none (ofSegment?_of_spacing spacing), ih]
  | item held _ ih => rw [List.filterMap_cons_some (ofSegment?_of_isItem held), ih]

theorem ofItems?_of_answers (answers : Answers items answer) : ofItems? items = answer := by
  cases answers <;> rfl

/-- The walk over tokens gives the items of their parts. -/
theorem itemsAtStart_of_parts (parts : Parts tokens) :
    itemsAtStart (parts.skipped ++ (parts.region ++ parts.after)) = parts.items := by
  rw [itemsAtStart, afterQuantifiers_of_skipped parts.skips parts.begins, regionFrom_of_ends parts.inside parts.ends,
    segmentsFrom_of_segments parts.cut, filterMap_of_items parts.held]

theorem ofTokens?_of_lists (lists : Lists tokens answer) : ofTokens? tokens = answer := by
  unfold ofTokens?
  cases lists with
  | missing unnamed =>
    have nowhere : ¬ StandsOutside 0 IsSelect tokens := by
      rintro ⟨front, token, back, rfl, -, named⟩
      exact unnamed token (by simp) named
    have unread : afterSelect? tokens = none := by
      rw [afterSelect?, afterOuterSelect?_of_none nowhere, afterAnySelect?_of_none unnamed]
      rfl
    rw [unread]
  | parts parts answers =>
    rw [afterSelect?_of_parts parts]
    simp only [itemsAtStart_of_parts, ofItems?_of_answers answers]

/-! ## All tokens have parts -/

theorem exists_segments (tokens : List Token) : ∃ segments, Segments tokens segments := by
  by_cases stands : StandsOutside 0 IsComma tokens
  · obtain ⟨front, comma, back, whole, outside, rfl, first⟩ := exists_first stands
    have shorter : back.length < tokens.length := by simp [whole]; omega
    obtain ⟨segments, cut⟩ := exists_segments back
    exact ⟨front :: segments, whole ▸ .comma first outside cut⟩
  · exact ⟨[tokens], .last stands⟩
termination_by tokens.length

theorem exists_isItem (segment : List Token) :
    (∀ token ∈ segment, token.isSpacing = true) ∨ ∃ item, IsItem segment item := by
  let solid := segment.dropWhile Token.isSpacing
  have whole : segment.takeWhile Token.isSpacing ++ solid = segment := List.takeWhile_append_dropWhile
  have start : ∀ token ∈ segment.takeWhile Token.isSpacing, token.isSpacing = true :=
    fun token member => List.mem_takeWhile_imp member
  by_cases some : Token.trimSpacing segment = []
  · have spacing : ∀ token ∈ solid, token.isSpacing = true := List.rdropWhile_eq_nil_iff.1 some
    left
    rw [← whole]
    exact List.forall_mem_append.2 ⟨start, spacing⟩
  · have parted : Token.trimSpacing segment ++ solid.rtakeWhile Token.isSpacing = solid :=
      List.rdropWhile_append_rtakeWhile
    have last : ∀ token ∈ solid.rtakeWhile Token.isSpacing, token.isSpacing = true :=
      fun token member => List.mem_rtakeWhile_imp (p := Token.isSpacing) member
    refine .inr ⟨⟨Token.trimSpacing segment⟩, ⟨_, _, ?_, start, last⟩, trimSpacing_trimmed some⟩
    rw [List.append_assoc, parted, whole]

theorem exists_items (segments : List (List Token)) : ∃ items, Items segments items := by
  induction segments with
  | nil => exact ⟨[], .nil⟩
  | cons segment segments ih =>
    obtain ⟨items, held⟩ := ih
    rcases exists_isItem segment with spacing | ⟨item, isItem⟩
    · exact ⟨items, .empty spacing held⟩
    · exact ⟨item :: items, .item isItem held⟩

theorem exists_region (tokens : List Token) :
    ∃ region after, tokens = region ++ after ∧ ¬ StandsOutside 0 EndsList region ∧
      ∀ token ∈ after.head?, EndsList token ∧ depthAfter 0 region = 0 := by
  by_cases stands : StandsOutside 0 EndsList tokens
  · obtain ⟨front, last, back, whole, outside, ends, first⟩ := exists_first stands
    exact ⟨front, last :: back, whole, first, by simp [ends, outside]⟩
  · exact ⟨tokens, [], by simp, stands, by simp⟩

theorem exists_skipped (tokens : List Token) :
    ∃ skipped rest, tokens = skipped ++ rest ∧ (∀ token ∈ skipped, IsSkipped token) ∧
      ∀ token ∈ rest.head?, ¬ IsSkipped token := by
  let skipped (token : Token) : Bool := token.isSpacing || token.isAnyOf quantifierWords
  refine ⟨tokens.takeWhile skipped, tokens.dropWhile skipped, List.takeWhile_append_dropWhile.symm, ?_, ?_⟩
  · intro token member
    exact Bool.or_eq_true_iff.1 (List.mem_takeWhile_imp (p := skipped) member)
  · intro token first
    obtain ⟨more, rest⟩ := List.head?_eq_some_iff.1 first
    have start : token :: more <+: tokens.dropWhile skipped := rest ▸ List.prefix_rfl
    have stays : skipped token = false := Text.head_of_prefix_dropWhile start
    simpa [skipped] using stays

theorem exists_select (tokens : List Token) :
    (∀ token ∈ tokens, ¬ IsSelect token) ∨
      ∃ before select rest, tokens = before ++ select :: rest ∧ IsSelect select ∧
        (depthAfter 0 before = 0 ∧ ¬ StandsOutside 0 IsSelect before ∨
          ¬ StandsOutside 0 IsSelect tokens ∧ ∀ token ∈ before, ¬ IsSelect token) := by
  by_cases stands : StandsOutside 0 IsSelect tokens
  · obtain ⟨before, select, rest, whole, outside, named, first⟩ := exists_first stands
    exact .inr ⟨before, select, rest, whole, named, .inl ⟨outside, first⟩⟩
  · cases found : tokens.find? (·.isAnyOf ["SELECT"]) with
    | none => exact .inl (List.find?_eq_none.1 found)
    | some select =>
      obtain ⟨named, before, rest, whole, first⟩ := List.find?_eq_some_iff_append.1 found
      exact .inr ⟨before, select, rest, whole, named, .inr ⟨stands, by simpa using first⟩⟩

theorem exists_answer (items : List SelectItem) : ∃ answer, Answers items answer :=
  match items with
  | [] => ⟨_, .none⟩
  | [item] => ⟨_, .single item⟩
  | first :: second :: others => ⟨_, .several first second others⟩

theorem exists_lists (tokens : List Token) : ∃ answer, Lists tokens answer := by
  rcases exists_select tokens with unnamed | ⟨before, select, rest, whole, named, first⟩
  · exact ⟨none, .missing unnamed⟩
  · obtain ⟨skipped, list, rfl, skips, begins⟩ := exists_skipped rest
    obtain ⟨region, after, rfl, inside, ends⟩ := exists_region list
    obtain ⟨segments, cut⟩ := exists_segments region
    obtain ⟨items, held⟩ := exists_items segments
    obtain ⟨answer, answers⟩ := exists_answer items
    let parts : Parts tokens :=
      ⟨before, select, skipped, region, after, segments, items, whole, named, first, skips, begins, inside, ends,
        cut, held⟩
    exact ⟨answer, .parts parts answers⟩

/-! ## What the parts keep -/

theorem IsItem.significant_eq (held : IsItem segment item) :
    Token.significant segment = item.significant ∧ item.significant ≠ [] := by
  obtain ⟨⟨front, back, rfl, atFront, atBack⟩, trimmed⟩ := held
  obtain ⟨first, more, begins, solid⟩ := trimmed.begins
  constructor
  · rw [significant_append, significant_append, significant_of_spacing atFront,
      significant_of_spacing atBack, List.nil_append, List.append_nil]
    rfl
  · simp [SelectItem.significant, Token.significant, begins, solid]

/-- The items hold the significant tokens of the segments that have any. -/
theorem significant_of_items (held : Items segments items) :
    items.map SelectItem.significant = (segments.map Token.significant).filter (· ≠ []) := by
  induction held with
  | nil => rfl
  | empty spacing _ ih =>
    rw [List.map_cons, significant_of_spacing spacing, ih]
    rfl
  | item held _ ih =>
    obtain ⟨same, some⟩ := held.significant_eq
    rw [List.map_cons, List.map_cons, same, ih]
    exact (List.filter_cons_of_pos (by simpa using some)).symm

theorem Segments.ne_nil (cut : Segments region segments) : segments ≠ [] := by
  cases cut <;> exact List.cons_ne_nil _ _

/-- With the commas between them the segments hold the significant tokens of the region. -/
theorem significant_of_segments (cut : Segments region segments) :
    Token.significant region = [.symbol .comma].intercalate (segments.map Token.significant) := by
  induction cut with
  | last whole => simp
  | @comma segment rest segments whole closed more ih =>
    obtain ⟨second, others, rfl⟩ := List.exists_cons_of_ne_nil more.ne_nil
    rw [significant_append]
    change _ ++ .symbol .comma :: Token.significant rest = _
    rw [ih]
    simp

/-- What stands outside parentheses in a segment stands outside them in the region. -/
theorem Segments.standsOutside {kind : Token → Prop} (cut : Segments region segments)
    (member : segment ∈ segments) (stands : StandsOutside 0 kind segment) :
    StandsOutside 0 kind region := by
  induction cut with
  | last => rwa [← List.mem_singleton.1 member]
  | comma whole closed more ih =>
    rw [standsOutside_append, closed]
    rcases List.mem_cons.1 member with rfl | member
    · exact .inl stands
    · exact .inr (standsOutside_cons.2 (.inr (ih member)))

/-- Every segment but the last closes its parentheses. -/
theorem Segments.closed (cut : Segments region segments) (member : segment ∈ segments.dropLast) :
    depthAfter 0 segment = 0 := by
  induction cut with
  | last => cases member
  | comma whole closed more ih =>
    rw [List.dropLast_cons_of_ne_nil more.ne_nil] at member
    rcases List.mem_cons.1 member with rfl | member
    · exact closed
    · exact ih member

/-- An item with one after it is of a segment with one after it. -/
theorem Items.exists_segment (held : Items segments items) (member : item ∈ items.dropLast) :
    ∃ segment ∈ segments.dropLast, IsItem segment item := by
  induction held with
  | nil => cases member
  | @empty segment segments items spacing more ih =>
    obtain ⟨other, inside, isItem⟩ := ih member
    have some : segments ≠ [] := by
      rintro rfl
      cases inside
    exact ⟨other, by simp [List.dropLast_cons_of_ne_nil some, inside], isItem⟩
  | @item segment segments first items isFirst more ih =>
    cases items with
    | nil => cases member
    | cons second others =>
      have some : segments ≠ [] := by
        rintro rfl
        cases more
      rw [List.dropLast_cons_of_ne_nil some]
      rcases List.mem_cons.1 member with rfl | member
      · exact ⟨segment, by simp, isFirst⟩
      · obtain ⟨other, inside, isItem⟩ := ih member
        exact ⟨other, List.mem_cons_of_mem _ inside, isItem⟩

theorem IsItem.balanced (held : IsItem segment item) (inside : ¬ StandsOutside 0 EndsList segment)
    (closed : depthAfter 0 segment = 0) : Balanced item.tokens := by
  obtain ⟨⟨front, back, rfl, atFront, atBack⟩, -⟩ := held
  rw [depthAfter_append, depthAfter_append, depthAfter_of_spacing atFront, depthAfter_of_spacing atBack] at closed
  refine balanced_of_closed (fun stands => inside ?_) closed
  rw [standsOutside_append, standsOutside_append, depthAfter_of_spacing atFront]
  exact .inl (.inr (stands.mono fun token close => .inl close))

/-- Every item but the last is balanced. -/
theorem Parts.balanced (parts : Parts tokens) (member : item ∈ parts.items.dropLast) :
    Balanced item.tokens := by
  obtain ⟨segment, among, isItem⟩ := parts.held.exists_segment member
  have inside : ¬ StandsOutside 0 EndsList segment := fun stands =>
    parts.inside (parts.cut.standsOutside ((List.dropLast_prefix _).subset among) stands)
  exact isItem.balanced inside (parts.cut.closed among)

/-- The select list of any tokens, whether their parentheses match or not. The walk gives exactly the list that
the parts of the tokens tell. Of any such parts, the items hold all significant tokens of the region but the
commas that cut it, each once and in their order, and all items but the last are balanced. -/
theorem list_of_parts (tokens : List Token) :
    (∀ answer, ofTokens? tokens = answer ↔ Lists tokens answer) ∧
    ∀ parts : Parts tokens,
      Answers parts.items (ofTokens? tokens) ∧
      Token.significant parts.region =
        [.symbol .comma].intercalate (parts.segments.map Token.significant) ∧
      parts.items.map SelectItem.significant =
        (parts.segments.map Token.significant).filter (· ≠ []) ∧
      ∀ item ∈ parts.items.dropLast, Balanced item.tokens := by
  constructor
  · intro answer
    refine ⟨?_, ofTokens?_of_lists⟩
    rintro rfl
    obtain ⟨answer, lists⟩ := exists_lists tokens
    rwa [ofTokens?_of_lists lists]
  · intro parts
    obtain ⟨answer, answers⟩ := exists_answer parts.items
    rw [ofTokens?_of_lists (.parts parts answers)]
    exact ⟨answers, significant_of_segments parts.cut, significant_of_items parts.held,
      fun item member => parts.balanced member⟩

end ColumnLineage.SelectListParts
