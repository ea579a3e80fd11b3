import ColumnLineage.Proofs.EncodedText
import ColumnLineage.Proofs.RunOutput

/-! A query that begins with a comment. Two dashes before a blank are no option, whatever follows them, so the argument
is the query as it stands and standard input is left alone. The flag for more messages may stand before it once. -/

namespace ColumnLineage.LeadingComment
open CommandLine (ArgumentError Arguments Invocation Opt Reading behindProxy brokenOffStatus dash equalsSign lineOf
  loadSettings loadVariables processArguments queryText run)
open Description (InferenceClient)
open EncodedText (decode?_encode encode_cons takeWhile_encode)
open Files (Path ReadError)
open Report (process)
open RunOutput (BreaksOff loadVariables_impossible_iff run_cases)
open Settings (Environment)
open Utf8 (encode)

variable {flag s : Text} {flags : List Text} {invocation : Invocation}

/-! ## Reading the arguments -/

/-- A text that begins with two dashes and a blank. -/
def BeginsComment (s : Text) : Prop :=
  ∃ c rest, s = '-' :: '-' :: c :: rest ∧ isBlank c = true

/-- The two spellings of the flag for more messages. -/
def IsVerboseFlag (flag : Text) : Prop :=
  flag = "-v".toList ∨ flag = "--verbose".toList

/-- No option has a name that begins with a blank. -/
theorem ofName?_of_blank {c : Char} {rest : Text} (blank : isBlank c = true) : Opt.ofName? (c :: rest) = none := by
  have solid : ∀ entry ∈ Opt.table, entry.1.head?.any isBlank = false := by decide +kernel
  have other : ∀ entry ∈ Opt.table, ¬ entry.1 = c :: rest := by
    intro entry member same
    have clash := solid entry member
    rw [same, List.head?_cons, Option.any_some, blank] at clash
    cases clash
  simpa [Opt.ofName?] using other

/-- The name of an option in a text is read off the bytes of the text. -/
theorem decode?_name (body : Text) :
    Utf8.decode? ((encode body).takeWhile (· ≠ equalsSign)) = some (body.takeWhile (· ≠ '=')) := by
  have name := @takeWhile_encode '=' (by decide) body
  exact (congrArg Utf8.decode? name).trans (decode?_encode _)

/-- Two dashes with something after them are read as the name of an option. -/
theorem take_dashes (arguments : Arguments) {body more : Bytes} {b : UInt8} (some : body = b :: more) :
    Reading.take ⟨arguments, none, false⟩ (dash :: dash :: body) =
      Reading.takeLong ⟨arguments, none, false⟩ (dash :: dash :: body) body := by
  subst some
  rfl

/-- Where there is no query yet and no option waits for its value, a text that begins with a comment is the query. -/
theorem take_comment (comment : BeginsComment s) (files : List Path) (config : Option Path) (verbose : Bool) :
    Reading.take ⟨⟨none, files, config, verbose⟩, none, false⟩ (encode s) =
      .ok ⟨⟨none, files, config, verbose⟩, some (.query (encode s)), false⟩ := by
  obtain ⟨c, rest, rfl, blank⟩ := comment
  have start : ¬ c = '=' := by
    rintro rfl
    exact absurd blank (by decide +kernel)
  -- The name of an option would begin with the blank, since it ends only before an equals sign.
  have unnamed : Opt.ofName? ((c :: rest).takeWhile (· ≠ '=')) = none := by
    rw [List.takeWhile_cons_of_pos (by simpa using start)]
    exact ofName?_of_blank blank
  have dashes : encode ('-' :: '-' :: c :: rest) = dash :: dash :: encode (c :: rest) := rfl
  obtain ⟨b, more, body, -⟩ := encode_cons c rest
  rw [dashes, take_dashes _ body]
  simp only [Reading.takeLong, decode?_name, unnamed]
  rfl

/-- The flag for more messages is taken once. -/
theorem take_first_flag (flagged : IsVerboseFlag flag) :
    Reading.initial.take (encode flag) = .ok ⟨⟨none, [], none, true⟩, none, false⟩ := by
  rcases flagged with rfl | rfl <;> decide +kernel

theorem take_second_flag (flagged : IsVerboseFlag flag) :
    Reading.take ⟨⟨none, [], none, true⟩, none, false⟩ (encode flag) = .error (.refused .conflict) := by
  rcases flagged with rfl | rfl <;> decide +kernel

/-- A query that begins with a comment is read as it stands, behind one flag as without any. -/
theorem read_of_few (flagged : ∀ flag ∈ flags, IsVerboseFlag flag) (comment : BeginsComment s)
    (few : flags.length ≤ 1) :
    Arguments.read ((flags ++ [s]).map encode) = .ok ⟨some s, [], none, !flags.isEmpty⟩ := by
  have settled (verbose : Bool) :
      Reading.finish ⟨⟨none, [], none, verbose⟩, some (.query (encode s)), false⟩ =
        .ok ⟨some s, [], none, verbose⟩ := by
    simp only [Reading.finish, Reading.settle, decode?_encode]
    rfl
  match flags with
  | [] =>
    have taken : Reading.initial.take (encode s) = _ := take_comment comment [] none false
    simp only [Arguments.read, List.nil_append, List.map_cons, List.map_nil, List.foldlM_cons, taken]
    exact settled false
  | [flag] =>
    have first := take_first_flag (flagged flag List.mem_cons_self)
    have taken := take_comment comment [] none true
    simp only [Arguments.read, List.cons_append, List.nil_append, List.map_cons, List.map_nil, List.foldlM_cons,
      first, bind, Except.bind, taken]
    exact settled true

/-- Behind more flags nothing is read. -/
theorem read_of_many (flagged : ∀ flag ∈ flags, IsVerboseFlag flag) (many : 2 ≤ flags.length) (s : Text) :
    Arguments.read ((flags ++ [s]).map encode) = .error (.refused .conflict) := by
  match flags with
  | one :: two :: more =>
    have first := take_first_flag (flagged one List.mem_cons_self)
    have second := take_second_flag (flagged two (List.mem_cons_of_mem _ List.mem_cons_self))
    simp only [Arguments.read, List.cons_append, List.map_cons, List.foldlM_cons, first, bind, Except.bind, second]

/-! ## Running the program -/

/-- A run with accepted arguments ends with status zero where it is not broken off. -/
theorem status_eq_zero_iff {arguments : Arguments} (fresh : invocation.exchange.brokenOff = false)
    (read : Arguments.read invocation.arguments = .ok arguments) :
    (run invocation).status = 0 ↔ ¬ BreaksOff invocation := by
  rcases run_cases fresh (by simp [read]) (by simp [read]) with
    ⟨broken, after, ran, -⟩ | ⟨whole, -, report, ran⟩ | ⟨whole, _, _, -, lines, after, -, ran⟩
  · simp [ran, broken, brokenOffStatus]
  · simp [ran, whole]
  · simp [ran, whole]

/-- A run on one query, with its variables and settings loaded, prints the report on the query. -/
theorem run_of_query {config : Option Path} {verbose : Bool} {environment : Environment} {settings : Settings}
    (read : Arguments.read invocation.arguments = .ok ⟨some s, [], config, verbose⟩)
    (held : loadVariables invocation = .loaded environment)
    (loaded : loadSettings invocation config = .ok settings) (ended : (run invocation).status = 0) :
    let client : InferenceClient := ⟨settings, settings.apiKey? environment⟩
    let done := process client.service s (behindProxy environment settings invocation.exchange)
    run invocation = ⟨0, [lineOf done.1], done.2⟩ := by
  intro client done
  have ran : run invocation =
      if done.2.brokenOff then ⟨brokenOffStatus, [], done.2⟩ else ⟨0, [lineOf done.1], done.2⟩ := by
    simp only [run, read, held, loaded, processArguments, queryText]
    rfl
  split at ran
  · rw [ran] at ended
    cases ended
  · exact ran

/-- A run with a query among its arguments takes nothing from standard input. -/
theorem run_input {config : Option Path} {verbose : Bool} {files : List Path}
    (read : Arguments.read invocation.arguments = .ok ⟨some s, files, config, verbose⟩)
    (input : Except ReadError Bytes) :
    run { invocation with input := input } = run invocation := by
  simp only [run, read, processArguments, queryText]
  rfl

/-- A run on a query behind some flags, without files or variables. -/
private def bare (flags : List Text) (s : Text) : Invocation :=
  { arguments := (flags ++ [s]).map encode
    environment := []
    files := fun _ => .error .notFound
    standing := fun _ => .nothing
    directories := []
    input := .ok []
    exchange := .start none 0 [] }

/-- A query with a comment before it that could be read as options. -/
private def commented : Text := "-- file=\"x\" --help\nSELECT a FROM t".toList

private theorem commented_begins : BeginsComment commented :=
  ⟨' ', "file=\"x\" --help\nSELECT a FROM t".toList, by decide +kernel, by decide +kernel⟩

private theorem flagged_verbose (count : Nat) :
    ∀ flag ∈ List.replicate count "-v".toList, IsVerboseFlag flag :=
  fun _ member => .inl (List.eq_of_mem_replicate member)

private theorem bare_whole : ¬ BreaksOff (bare ["-v".toList] commented) := by
  have read : Arguments.read (bare ["-v".toList] commented).arguments = _ :=
    read_of_few (flagged_verbose 1) commented_begins (le_refl 1)
  exact (status_eq_zero_iff rfl read).1 (by decide +kernel)

end ColumnLineage.LeadingComment
