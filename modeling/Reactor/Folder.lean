/-
  The files that the service finds when it starts.

  A folder holds files by their paths, and folders.  Dots and empty parts of a
  path do not count, two dots lead back; but whatever a part follows must be a
  folder.

  * `Path.ofText` takes a path apart, and `Path.way` is what it leads through;
  * `Folder.read`, `Folder.isThere`, `Folder.makeParents` and `Folder.write` work
    on the files of a folder;
  * `FileError` is why they cannot.
-/

namespace Reactor

/-- Why a file cannot be used. -/
inductive FileError where
  | notFound
  | isFolder
  | notFolder
  | exists_
deriving DecidableEq, Repr

/-- The kind of an error. -/
def FileError.kind : FileError → String
  | notFound => "NotFound"
  | isFolder => "IsADirectory"
  | notFolder => "NotADirectory"
  | exists_ => "AlreadyExists"

/-- What an error says. -/
def FileError.message : FileError → String
  | notFound => "No such file or directory (os error 2)"
  | isFolder => "Is a directory (os error 21)"
  | notFolder => "Not a directory (os error 20)"
  | exists_ => "File exists (os error 17)"

/-- A path, from the top or from the folder that the service starts in. -/
structure Path where
  fromTop : Bool
  parts : List String
deriving DecidableEq, Repr

namespace Path

/-- Goes on with a part.  The folder above the top is the top. -/
def enter (p : Path) (part : String) : Path :=
  if part = "" ∨ part = "." then p
  else if part = ".." then
    if p.parts.isEmpty ∧ p.fromTop then p
    else if p.parts.isEmpty ∨ p.parts.getLast? = some ".." then
      { p with parts := p.parts ++ [part] }
    else { p with parts := p.parts.dropLast }
  else { p with parts := p.parts ++ [part] }

/-- The parts of a text between slashes. -/
def partsOf (s : String) : List String := (s.toList.splitOn '/').map String.ofList

/-- Where a text starts. -/
def start (s : String) : Path := ⟨s.toList.head? = some '/', []⟩

/-- The path that a text is. -/
def ofText (s : String) : Path := (partsOf s).foldl enter (start s)

/-- What some parts lead through: where each of them goes on. -/
def through (p : Path) : List String → List Path
  | [] => []
  | part :: parts => p :: through (p.enter part) parts

/-- What a text leads through. -/
def way (s : String) : List Path := through (start s) (partsOf s)

/-- What a text leads through, without the dots and the empty parts at its end. -/
def wayToParent (s : String) : List Path :=
  through (start s) ((partsOf s).reverse.dropWhile fun part => part = "" ∨ part = ".").reverse

/-- The folders that a path leads through. -/
def parents (p : Path) : List Path :=
  (List.range p.parts.length).map fun n => { p with parts := p.parts.take n }

end Path

/-- Files and folders. -/
structure Folder where
  files : List (Path × ByteArray)
  folders : List Path

namespace Folder

/-- The bytes of a file. -/
def file? (f : Folder) (p : Path) : Option ByteArray :=
  (f.files.find? fun e => e.1 = p).map (·.2)

/-- Whether there is a file at a path. -/
def isFile (f : Folder) (p : Path) : Bool := (f.file? p).isSome

/-- Whether a path leads to a folder. -/
def isFolder (f : Folder) (p : Path) : Bool :=
  p.parts.all (· = "..") || f.folders.contains p || f.files.any fun e => e.1.parents.contains p

/-- Why one does not get along a way. -/
def obstacle? (f : Folder) (way : List Path) : Option FileError :=
  way.findSome? fun p =>
    if f.isFile p then some .notFolder else if f.isFolder p then none else some .notFound

/-- Reads a file. -/
def read (f : Folder) (path : String) : Except FileError ByteArray :=
  let p := Path.ofText path
  match f.obstacle? (Path.way path) with
  | some e => .error e
  | none =>
    match f.file? p with
    | some bytes => .ok bytes
    | none => .error (if path ≠ "" ∧ f.isFolder p then .isFolder else .notFound)

/-- Whether there is something at a path. -/
def isThere (f : Folder) (path : String) : Bool :=
  let p := Path.ofText path
  path ≠ "" && (f.obstacle? (Path.way path)).isNone && (f.isFile p || f.isFolder p)

/-- Makes the folders that a path leads through. -/
def makeParents (f : Folder) (path : String) : Except FileError Folder :=
  let way := Path.wayToParent path
  if way.dropLast.any f.isFile then .error .notFolder
  else if way.any f.isFile then .error .exists_
  else .ok { f with folders := f.folders ++ way }

/-- Writes a file into a folder that is there. -/
def write (f : Folder) (path : String) (bytes : ByteArray) : Except FileError Folder :=
  let p := Path.ofText path
  if path = "" then .error .notFound
  else if (Path.partsOf path).getLast? = some "" then .error .isFolder
  else
    match f.obstacle? (Path.way path) with
    | some e => .error e
    | none =>
      if f.isFolder p then .error .isFolder
      else .ok { f with files := (p, bytes) :: f.files.filter (·.1 ≠ p) }

end Folder

end Reactor
