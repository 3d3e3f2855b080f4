import ClassAtlas.Text.System

/-!
# Directories

The files below one directory, found by paths relative to it. A path is walked name by name: an
empty name and `.` stay, `..` goes up, and a name can only follow a directory, so that `a.cs/` and
`a.cs/../b.cs` lead nowhere when `a.cs` is a file. No path leads out of the directory.
-/
namespace ClassAtlas

/-- What reading a file gives. -/
inductive Reading where
  /-- There is no regular file. -/
  | absent
  | unreadable (cause : String)
  | content (bytes : List UInt8)
  deriving DecidableEq, Repr

/-- A place below a directory: the names that lead to it, innermost first. -/
abbrev Place := List SystemText

inductive Entry where
  | file (bytes : List UInt8)
  | directory
  deriving DecidableEq, Repr

/-- A directory with everything below it. The directories on the way to an entry need no entry of
their own. -/
structure Directory where
  entries : List (Place × Entry)
  deriving DecidableEq, Repr

/-- The byte between the names in a path. -/
def slash : UInt8 := 0x2F

/-- The names between slashes. -/
def splitSlashes : List UInt8 → List (List UInt8)
  | [] => [[]]
  | b :: rest =>
    match splitSlashes rest with
    | [] => [[b]]
    | name :: names => if b = slash then [] :: name :: names else (b :: name) :: names

/-- The names in a path. -/
def pathNames (path : SystemText) : List SystemText := (splitSlashes path.bytes).map SystemText.mk

/-- The name that stays in a directory; the empty one does as well. -/
def isHere (name : SystemText) : Bool := name.bytes.isEmpty || name == .ofText "."

namespace Directory

/-- The directory with entries at the given paths. -/
def ofPaths (entries : List (SystemText × Entry)) : Directory :=
  ⟨entries.map fun (path, entry) =>
    (((pathNames path).filter fun name => !isHere name).reverse, entry)⟩

/-- There is a directory at a place: the directory itself, one with an entry, or one on the way to
an entry. -/
def isDirectory (d : Directory) (place : Place) : Bool :=
  place.isEmpty || d.entries.any fun (there, entry) =>
    place.isSuffixOf there && (place != there || entry == .directory)

/-- The place that names lead to from a place. -/
def walk? (d : Directory) (place : Place) : List SystemText → Option Place
  | [] => some place
  | name :: rest =>
    if !d.isDirectory place then none
    else if isHere name then d.walk? place rest
    else if name == .ofText ".." then
      match place with
      | [] => none
      | _ :: outer => d.walk? outer rest
    else d.walk? (name :: place) rest

/-- The place that a path leads to, whether anything is there or not. -/
def place? (d : Directory) (path : SystemText) : Option Place :=
  if path.bytes.isEmpty || path.bytes.head? == some slash then none
  else d.walk? [] (pathNames path)

/-- Reads the file that a path leads to. -/
def read (d : Directory) (path : SystemText) : Reading :=
  match (d.place? path).bind fun place => d.entries.lookup place with
  | some (.file bytes) => .content bytes
  | _ => .absent

end Directory

end ClassAtlas
