import MathSpeech.OrderedMap
import MathSpeech.Text

/-!
# Folder — the files that tables and settings are read from

A **folder** holds texts under relative paths.  A path is a list of names behind a root, which is
empty or one or two slashes; a point is no name, and two points lead to the folder around.  What
lies around the folder itself is not known, except that it is there.

* `Path.ofText`, `Path.toText` — a path in its shortest form with the same steps;
* `Folder.look` — what is at a path.
-/

namespace MathSpeech

/-- **A path**: names from the folder on, or from a root. -/
structure Path where
  root : Text
  names : List Text
deriving DecidableEq, Repr

namespace Path

/-- **The root of a text**: exactly two slashes at the beginning are a root of their own, and any
other number of them is as good as one. -/
def rootOf : Text → Text
  | '/' :: '/' :: '/' :: _ => ['/']
  | '/' :: '/' :: _ => ['/', '/']
  | '/' :: _ => ['/']
  | _ => []

/-- A path from a root. -/
def fromRoot (p : Path) : Bool := !p.root.isEmpty

/-- **The path of a text**: empty names and points are left out, but two points stay. -/
def ofText (t : Text) : Path where
  root := rootOf t
  names := (Text.parts '/' t).filter fun name => !(name.isEmpty || name = ['.'])

/-- The text of a path. -/
def toText (p : Path) : Text :=
  let t := Text.joined "/" p.names
  if p.fromRoot then p.root ++ t else if t.isEmpty then ['.'] else t

/-- A path that leads nowhere but to one name in the folder. -/
def isBare (p : Path) : Bool := !p.fromRoot && p.names.length ≤ 1

end Path

/-- **A folder**: the texts of its files by path. -/
structure Folder where
  files : OrderedMap (List Text) Text

/-- **What is at a path.** -/
inductive Folder.Entry
  | file (t : Text)
  | folder
  | nothing
deriving DecidableEq, Repr

namespace Folder

/-- The folder of some files. -/
def ofFiles (files : List (Text × Text)) : Folder where
  files := .ofList (files.map fun (name, t) => ((Path.ofText name).names, t))

/-- What is at a list of names inside the folder. -/
def entry (f : Folder) (names : List Text) : Entry :=
  match f.files.get? names with
  | some t => .file t
  | none =>
    if names.isEmpty || f.files.keys.any fun key => names.isPrefixOf key then .folder else .nothing

/-- What is at the end of some steps, from a folder inside or from somewhere around it. -/
def walk (f : Folder) : Option (List Text) → List Text → Entry
  | none, [] => .folder
  | some place, [] => f.entry place
  | none, name :: rest => if name = ['.', '.'] then walk f none rest else .nothing
  | some place, name :: rest =>
    match f.entry place with
    | .folder =>
      if name = ['.', '.'] then walk f (if place.isEmpty then none else some place.dropLast) rest
      else walk f (some (place ++ [name])) rest
    | _ => .nothing

/-- **What is at a path.** -/
def look (f : Folder) (p : Path) : Entry := f.walk (if p.fromRoot then none else some []) p.names

/-- Something is at a path. -/
def has (f : Folder) (p : Path) : Bool := f.look p != .nothing

end Folder

/-- **The text of a file** with all line ends in one form. -/
def unifyLineEnds : Text → Text
  | '\r' :: '\n' :: t => '\n' :: unifyLineEnds t
  | '\r' :: t => '\n' :: unifyLineEnds t
  | c :: t => c :: unifyLineEnds t
  | [] => []

end MathSpeech
