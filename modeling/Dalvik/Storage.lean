import Dalvik.Bytes.Basic

/-!
# Storage

Where the bytes of a file come from when it is named by a path. A path is walked one part at a time:
every part but the last must lead to a directory, a dot or nothing between two slashes stays where
it is, and two dots lead back to the directory above.
-/

namespace Dalvik

/-- Why a path leads to no content. -/
inductive Storage.Refusal where
  | nulInPath
  | notFound
  | notADirectory
  | isADirectory
  | nameTooLong
  deriving DecidableEq, Repr

/-- What the system says. -/
def Storage.Refusal.message : Storage.Refusal → String
  | nulInPath => "file name contained an unexpected NUL byte"
  | notFound => "No such file or directory (os error 2)"
  | notADirectory => "Not a directory (os error 20)"
  | isADirectory => "Is a directory (os error 21)"
  | nameTooLong => "File name too long (os error 36)"

/-- What stands at a place. -/
inductive Storage.Entry where
  | directory
  | file (content : Bytes)

/-- A tree of directories and files. A place in it is the list of the names that lead there from the
root. -/
structure Storage where
  lookup : (place : List String) → Option Storage.Entry
  /-- The directory that paths start from unless they start with a slash. -/
  working : List String

namespace Storage

/-- The parts of a path between its slashes. -/
def segments : List Char → List (List Char)
  | [] => [[]]
  | c :: cs =>
    match segments cs with
    | [] => [[c]]
    | first :: rest => if c = '/' then [] :: first :: rest else (c :: first) :: rest

/-- The most bytes that a name has. -/
def nameLimit : Nat := 255

/-- The most bytes that a path has. -/
def pathLimit : Nat := 4095

/-- Follows one part of a path. The root is the directory above itself. -/
def step (storage : Storage) (place : List String) (part : String) :
    Except Refusal (List String) :=
  match storage.lookup place with
  | none => .error .notFound
  | some (.file _) => .error .notADirectory
  | some .directory =>
    if part = "" || part = "." then .ok place
    else if part = ".." then .ok place.dropLast
    else if nameLimit < part.utf8ByteSize then .error .nameTooLong
    else if (storage.lookup (place ++ [part])).isNone then .error .notFound
    else .ok (place ++ [part])

/-- The place that a path leads to. -/
def locate (storage : Storage) (path : String) : Except Refusal (List String) :=
  if '\x00' ∈ path.toList then .error .nulInPath
  else if path = "" then .error .notFound
  else if pathLimit < path.utf8ByteSize then .error .nameTooLong
  else
    let start := if path.toList.head? = some '/' then [] else storage.working
    ((segments path.toList).map String.ofList).foldlM storage.step start

/-- Reads the file at a path. -/
def read (storage : Storage) (path : String) : Except Refusal Bytes :=
  match storage.locate path with
  | .error refusal => .error refusal
  | .ok place =>
    match storage.lookup place with
    | none => .error .notFound
    | some .directory => .error .isADirectory
    | some (.file content) => .ok content

/-- A system with no file but the null device, and an empty directory to work in. -/
def bare : Storage where
  lookup
    | [] | ["dev"] | ["home"] => some .directory
    | ["dev", "null"] => some (.file #[])
    | _ => none
  working := ["home"]

end Storage

end Dalvik
