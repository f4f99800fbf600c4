import StepGraph.Build
import StepGraph.Cbor.Program
import StepGraph.FileTree
import StepGraph.Yaml.Program
import StepGraph.Yaml.Writer

/-!
# Programs in files

The name of a file decides how it is read and written: files with the extension
of compiled programs are binary, all others readable.
-/

namespace StepGraph

inductive Format where
  | readable
  | compiled
  deriving DecidableEq

namespace Format

def compiledExtension : Text := utf8 ".nupyc"

/-- The format of the file at a path; the case of the extension does not matter. -/
def ofPath (path : Text) : Format :=
  if (Path.extension path).sameLetters compiledExtension then .compiled else .readable

def name : Format → Text
  | readable => utf8 "yaml"
  | compiled => utf8 "cbor"

def read? : Format → Text → Option Draft
  | readable => Yaml.read?
  | compiled => Cbor.read?

def write : Format → Draft → Text
  | readable => Yaml.write
  | compiled => Cbor.write

end Format

inductive LoadError where
  | unreadable (path : Text) (error : FileError)
  | malformed (path : Text) (format : Format)
  | rejected (path : Text) (error : BuildError)
  | unwritable (error : FileError)

namespace LoadError

def message : LoadError → Text
  | unreadable path error => utf8 "cannot read " ++ path ++ utf8 ": " ++ error.message
  | malformed path format => path ++ utf8 ": program: unmarshal " ++ format.name
  | rejected path error => path ++ utf8 ": " ++ error.message
  | unwritable error => error.message

end LoadError

namespace FileTree

def readDraft (tree : FileTree) (directory : List Text) (path : Text) : Except LoadError Draft :=
  match tree.read directory path with
  | .error error => .error (.unreadable path error)
  | .ok content =>
    match (Format.ofPath path).read? content with
    | some draft => .ok draft
    | none => .error (.malformed path (.ofPath path))

def writeDraft (tree : FileTree) (directory : List Text) (path : Text) (draft : Draft) :
    Except LoadError FileTree :=
  match tree.write directory path ((Format.ofPath path).write draft) with
  | .error error => .error (.unwritable error)
  | .ok tree => .ok tree

def loadDraft (tree : FileTree) (directory : List Text) (path : Text) :
    Except LoadError (Draft × Graph) :=
  match tree.readDraft directory path with
  | .error error => .error error
  | .ok draft =>
    match draft.build with
    | .error error => .error (.rejected path error)
    | .ok graph => .ok (draft, graph)

def load (tree : FileTree) (directory : List Text) (path : Text) : Except LoadError Graph :=
  (tree.loadDraft directory path).map (·.2)

/-- Writes the program of one file to another, in the format of the latter. -/
def compile (tree : FileTree) (directory : List Text) (source target : Text) :
    Except LoadError FileTree :=
  match tree.loadDraft directory source with
  | .error error => .error error
  | .ok (draft, _) => tree.writeDraft directory target draft

end FileTree

end StepGraph
