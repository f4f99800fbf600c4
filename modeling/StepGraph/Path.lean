import StepGraph.Text

/-!
# Paths

A path is a text of segments between slashes.  These operations look at the text
alone and never at files.
-/

namespace StepGraph

namespace Path

def slash : UInt8 := 47

def dot : Text := [46]

def dotDot : Text := [46, 46]

/-- The texts between slashes. -/
def segments : Text → List Text
  | [] => [[]]
  | b :: rest =>
    if b = slash then [] :: segments rest
    else match segments rest with
      | [] => [[b]]
      | first :: others => (b :: first) :: others

def isAbsolute (p : Text) : Bool := p.head? == some slash

/-- The segments of a path walked from the segments `done`, the last of them first: empty ones and
dots stay, two dots go up. -/
def walk (rooted : Bool) : (done : List Text) → List Text → List Text
  | done, [] => done.reverse
  | done, s :: rest =>
    if s = [] || s = dot then walk rooted done rest
    else if s = dotDot then
      match done with
      | [] => walk rooted (if rooted then [] else [dotDot]) rest
      | last :: before =>
        walk rooted (if last = dotDot then dotDot :: done else before) rest
    else walk rooted (s :: done) rest

def ofParts (parts : List Text) : Text := [slash] ++ Text.join [slash] parts

def parts (p : Text) : List Text := walk true [] (segments p)

/-- The shortest path that means the same. -/
def clean (p : Text) : Text :=
  if isAbsolute p then ofParts (parts p)
  else match walk false [] (segments p) with
    | [] => dot
    | parts => Text.join [slash] parts

/-- One path after the other; an empty one does not count. -/
def join (p q : Text) : Text :=
  if p.isEmpty && q.isEmpty then []
  else if p.isEmpty then clean q
  else if q.isEmpty then clean p
  else clean (p ++ [slash] ++ q)

/-- The absolute path that a path means in a directory. -/
def absolute (directory p : Text) : Text := if isAbsolute p then clean p else join directory p

def extension (p : Text) : Text :=
  let last := (segments p).getLast?.getD []
  if last.contains 46 then 46 :: (last.reverse.takeWhile (· != 46)).reverse else []

end Path

end StepGraph
