/-
**Directories**: files by their names, and the file that a path leads to.

A path is followed part by part.  An empty part and a dot stay where they are, two dots lead back,
and any other part goes down.  Every part needs a directory to start from, so nothing lies behind a
file, not even the file itself: a path that ends in a slash leads to no file.  A path that is too
long is not followed at all.

Main definitions:
* `Directory` — the files below a directory;
* `Directory.follow` — where one part of a path leads;
* `Directory.file?` — the file at the end of a path.
-/

set_option relaxedAutoImplicit false
set_option autoImplicit false

namespace RateMonotonic

/-- The files below a directory, each with the names on the way to it. -/
structure Directory where
  /-- The ways and what lies at their ends. -/
  files : List (List String × ByteArray)

namespace Directory

/-- The parts of a path. -/
def parts (path : String) : List String := path.splitOn "/"

/-- Whether a part of a path stays where it is. -/
def stays (part : String) : Bool := part = "" || part = "."

/-- The directory with these files under these paths. -/
def ofFiles (files : List (String × ByteArray)) : Directory :=
  ⟨files.map fun f => ((parts f.1).filter (!stays ·), f.2)⟩

/-- Whether a way ends at a file. -/
def isFile (d : Directory) (way : List String) : Bool := d.files.any (·.1 == way)

/-- Whether a way ends at a directory: it is empty, or a file lies further down. -/
def isDirectory (d : Directory) (way : List String) : Bool :=
  !d.isFile way && (way.isEmpty || d.files.any fun f => way.isPrefixOf f.1)

/-- Where one part of a path leads.  There is no way back from the top. -/
def follow (d : Directory) (way : List String) (part : String) : Option (List String) :=
  if !d.isDirectory way then none
  else if stays part then some way
  else if part = ".." then (if way.isEmpty then none else some way.dropLast)
  else some (way ++ [part])

/-- The bytes that a path has at most. -/
def maxPath : Nat := 4095

/-- The file at the end of a path. -/
def file? (d : Directory) (path : String) : Option ByteArray := do
  guard (path.utf8ByteSize ≤ maxPath)
  let way ← (parts path).foldlM d.follow []
  let f ← d.files.find? (·.1 == way)
  return f.2

end Directory

end RateMonotonic
