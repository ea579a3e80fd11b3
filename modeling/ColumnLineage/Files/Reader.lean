import ColumnLineage.Files.Path

/-!
Reading files, whatever holds them: a reader tells the bytes at the end of a path or why there are
none. What stands there can also be told without reading it.
-/

namespace ColumnLineage.Files

/-- Why a file could not be read. -/
inductive ReadError where
  | notFound
  | notDirectory
  | isDirectory
  | nameTooLong
  | nulByte
  | invalidUtf8
  | other (reason : Text)
  deriving DecidableEq

/-- The wording of an error. -/
def ReadError.message : ReadError → Text
  | notFound => "No such file or directory (os error 2)".toList
  | notDirectory => "Not a directory (os error 20)".toList
  | isDirectory => "Is a directory (os error 21)".toList
  | nameTooLong => "File name too long (os error 36)".toList
  | nulByte => "file name contained an unexpected NUL byte".toList
  | invalidUtf8 => "stream did not contain valid UTF-8".toList
  | other reason => reason

/-- What stands at the end of a path. -/
abbrev Reader := Path → Except ReadError Bytes

/-- The text of some bytes, or the error. -/
def textOf (bytes : Bytes) : Except ReadError Text :=
  match Utf8.decode? bytes with
  | some text => .ok text
  | none => .error .invalidUtf8

/-- The text at the end of a path, as `read_to_string` reads it. -/
def readText (files : Reader) (path : Path) : Except ReadError Text :=
  match files path with
  | .error e => .error e
  | .ok bytes => textOf bytes

/-- What is told of a path without reading it: it leads to a file, to something else or to nothing,
or it is not told where it leads. -/
inductive Standing where
  | file
  | other
  | nothing
  | unknown
  deriving DecidableEq

/-- Whether there is something, as `Path::exists` tells it. -/
def Standing.isThere : Standing → Bool
  | file | other => true
  | nothing | unknown => false

/-- The first of some paths that leads to a file, if none before it is in doubt. -/
def firstFile? (standing : Path → Standing) : List Path → Option Path
  | [] => none
  | path :: rest =>
    match standing path with
    | .file => some path
    | .other | .nothing => firstFile? standing rest
    | .unknown => none

/-- It is found behind paths all of which are known to lead to no file. -/
theorem firstFile?_eq_some_iff {standing : Path → Standing} {paths : List Path} {path : Path} :
    firstFile? standing paths = some path ↔
      ∃ before after, paths = before ++ path :: after ∧ standing path = .file ∧
        ∀ earlier ∈ before, standing earlier = .other ∨ standing earlier = .nothing := by
  induction paths with
  | nil => simp [firstFile?]
  | cons head rest ih =>
    constructor
    · intro found
      unfold firstFile? at found
      split at found
      · rename_i isFile
        obtain rfl := Option.some.inj found
        exact ⟨[], rest, rfl, isFile, List.forall_mem_nil _⟩
      · rename_i isOther
        obtain ⟨before, after, rfl, isFile, passed⟩ := ih.1 found
        exact ⟨head :: before, after, rfl, isFile, List.forall_mem_cons.2 ⟨.inl isOther, passed⟩⟩
      · rename_i isNothing
        obtain ⟨before, after, rfl, isFile, passed⟩ := ih.1 found
        exact ⟨head :: before, after, rfl, isFile, List.forall_mem_cons.2 ⟨.inr isNothing, passed⟩⟩
      · cases found
    · rintro ⟨before, after, parts, isFile, passed⟩
      cases before with
      | nil =>
        obtain ⟨rfl, rfl⟩ := List.cons.inj parts
        simp only [firstFile?, isFile]
      | cons first before =>
        obtain ⟨rfl, rfl⟩ := List.cons.inj parts
        obtain ⟨isOther | isNothing, passed⟩ := List.forall_mem_cons.1 passed
        · simp only [firstFile?, isOther]
          exact ih.2 ⟨before, after, rfl, isFile, passed⟩
        · simp only [firstFile?, isNothing]
          exact ih.2 ⟨before, after, rfl, isFile, passed⟩

end ColumnLineage.Files
