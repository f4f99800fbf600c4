import StepGraph.Path

/-!
# Files and directories

A tree of directories holds files by the segments of their paths from the root,
which is always a directory.
-/

namespace StepGraph

inductive FileEntry where
  | file (content : Text)
  | directory
  deriving DecidableEq

inductive FileFault where
  | missing
  | notDirectory
  | isDirectory
  | nameTooLong
  | invalidName
  deriving DecidableEq

namespace FileFault

def message : FileFault → Text
  | missing => utf8 "no such file or directory"
  | notDirectory => utf8 "not a directory"
  | isDirectory => utf8 "is a directory"
  | nameTooLong => utf8 "file name too long"
  | invalidName => utf8 "invalid argument"

end FileFault

/-- A failed access: whether the file had been opened, its path and the fault. -/
structure FileError where
  opened : Bool
  path : Text
  fault : FileFault
  deriving DecidableEq

namespace FileError

def message (e : FileError) : Text :=
  (if e.opened then utf8 "read " else utf8 "open ") ++ e.path ++ utf8 ": " ++ e.fault.message

end FileError

structure FileTree where
  entries : List (List Text × FileEntry)

namespace FileTree

def empty : FileTree := { entries := [] }

def entry? (tree : FileTree) (parts : List Text) : Option FileEntry :=
  if parts.isEmpty then some .directory else tree.entries.lookup parts

/-- Puts a file or a directory at a place, in place of what stood there. -/
def set (tree : FileTree) (parts : List Text) (entry : FileEntry) : FileTree :=
  { entries := (parts, entry) :: tree.entries.filter fun (place, _) => place != parts }

def makeDirectories (tree : FileTree) (parts : List Text) : FileTree :=
  ((inits parts).filter fun place => (tree.entry? place).isNone).foldl
    (fun tree place => tree.set place .directory) tree
where
  inits : List Text → List (List Text)
    | [] => [[]]
    | p :: rest => [] :: (inits rest).map (p :: ·)

inductive Place where
  | file (parts : List Text) (content : Text)
  | directory (parts : List Text)
  /-- A name that is free in a directory; `closed` when a slash follows it. -/
  | free (parts : List Text) (closed : Bool)

def maxName : Nat := 255

def maxPath : Nat := 4095

/-- Follows segments from a directory.  All but the last must be directories. -/
def follow (tree : FileTree) : (directory : List Text) → List Text → Except FileFault Place
  | directory, [] => .ok (.directory directory)
  | directory, s :: rest =>
    if s = [] || s = Path.dot then follow tree directory rest
    else if s = Path.dotDot then follow tree directory.dropLast rest
    else if maxName < s.length then .error .nameTooLong
    else match tree.entry? (directory ++ [s]) with
      | some .directory => follow tree (directory ++ [s]) rest
      | some (.file content) =>
        if rest.isEmpty then .ok (.file (directory ++ [s]) content) else .error .notDirectory
      | none =>
        if rest.all (·.isEmpty) then .ok (.free (directory ++ [s]) !rest.isEmpty)
        else .error .missing

def locate (tree : FileTree) (directory : List Text) (path : Text) : Except FileFault Place :=
  if path.contains 0 then .error .invalidName
  else if path.isEmpty then .error .missing
  else if maxPath < path.length then .error .nameTooLong
  else tree.follow (if Path.isAbsolute path then [] else directory) (Path.segments path)

def hasEntry (tree : FileTree) (directory : List Text) (path : Text) : Bool :=
  match tree.locate directory path with
  | .ok (.file _ _) => true
  | .ok (.directory _) => true
  | _ => false

def read (tree : FileTree) (directory : List Text) (path : Text) : Except FileError Text :=
  match tree.locate directory path with
  | .ok (.file _ content) => .ok content
  | .ok (.directory _) => .error { opened := true, path, fault := .isDirectory }
  | .ok (.free _ _) => .error { opened := false, path, fault := .missing }
  | .error fault => .error { opened := false, path, fault }

/-- Changes the file at a path, or makes it from nothing; its directory must exist. -/
def modify (tree : FileTree) (directory : List Text) (path : Text) (change : Text → Text) :
    Except FileError FileTree :=
  match tree.locate directory path with
  | .ok (.file parts content) => .ok (tree.set parts (.file (change content)))
  | .ok (.free parts false) => .ok (tree.set parts (.file (change [])))
  | .ok (.free _ true) => .error { opened := false, path, fault := .isDirectory }
  | .ok (.directory _) => .error { opened := false, path, fault := .isDirectory }
  | .error fault => .error { opened := false, path, fault }

def write (tree : FileTree) (directory : List Text) (path content : Text) :
    Except FileError FileTree :=
  tree.modify directory path fun _ => content

def append (tree : FileTree) (directory : List Text) (path content : Text) :
    Except FileError FileTree :=
  tree.modify directory path (· ++ content)

end FileTree

end StepGraph
