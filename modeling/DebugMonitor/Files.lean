import DebugMonitor.Text.Basic

/-!
# Files

Files as reading one by its path sees them. A path is followed from the root, name by name, and
every name but the last has to lead to a directory. The first name that goes wrong decides the
failure, except that a path beyond the length limit is not followed at all.
-/

namespace DebugMonitor

/-! ### Failures -/

/-- Why a file cannot be read, as the system puts it. -/
inductive FileFailure where
  | notFound
  | denied
  | notDirectory
  | isDirectory
  | nameTooLong
  | other (reason : Text)
  deriving DecidableEq, Repr

def FileFailure.message : FileFailure → Text
  | notFound => "No such file or directory (os error 2)"
  | denied => "Permission denied (os error 13)"
  | notDirectory => "Not a directory (os error 20)"
  | isDirectory => "Is a directory (os error 21)"
  | nameTooLong => "File name too long (os error 36)"
  | other reason => reason

/-! ### Trees -/

inductive File where
  | directory
  | stored (contents : Bytes)
  /-- The program's own input, under a name. -/
  | input
  deriving DecidableEq, Repr

/-- Every file but the root, with the names that lead to it. -/
structure Files where
  entries : List (List Text × File) := []

namespace Files

/-- The file at a place. The root is always there. -/
def get? (files : Files) (place : List Text) : Option File :=
  if place = [] then some .directory else files.entries.lookup place

/-! ### Paths -/

def nameLimit : Nat := 255

/-- The longest path, in bytes. -/
def pathLimit : Nat := 4095

/-- The names in a path. Between two slashes, and after the last, is an empty one. -/
def names (path : Text) : List Text := path.splitOn '/'

/-- Follows names from a place. An empty name stays there, as a dot does, if it is a directory. -/
def follow (files : Files) (place : List Text) : List Text → Except FileFailure File
  | [] =>
    match files.get? place with
    | none => .error .notFound
    | some file => .ok file
  | name :: rest =>
    match files.get? place with
    | none => .error .notFound
    | some .directory =>
      if name = [] ∨ name = "." then files.follow place rest
      else if name = ".." then files.follow place.dropLast rest
      else if nameLimit < name.size then .error .nameTooLong
      else files.follow (place ++ [name]) rest
    | some _ => .error .notDirectory

def find (files : Files) (path : Text) : Except FileFailure File :=
  if path = [] then .error .notFound
  else if pathLimit < path.size then .error .nameTooLong
  else files.follow [] (names path)

/-- Reads a whole file. The state is the input that is still to be received: a file that stands for
it takes all of it. -/
def read (files : Files) (path : Text) : StateM Bytes (Except FileFailure Bytes) :=
  match files.find path with
  | .error failure => return .error failure
  | .ok .directory => return .error .isDirectory
  | .ok (.stored contents) => return .ok contents
  | .ok .input => modifyGet fun input => (.ok input, [])

end Files

end DebugMonitor
