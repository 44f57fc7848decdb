import MerlinBridge.Text.Bytes

/-!
# File paths

A path is a byte string whose components are divided by slashes. `clean` is the shortest path that
names the same file without looking at the disk: empty and `.` components go, and `..` takes the
component before it along. `dir` and `base` divide a path at its last slash, and `ext` is what
follows the last dot of the base, the dot included.

The analysis of a source file depends on the project files of its directory, so both kinds of file
are told apart here by their names.
-/

namespace MerlinBridge

namespace Path

def slash : UInt8 := Bytes.byte '/'

/-- Adds one component to those kept so far, which stand last one first. Above the root there is
nothing, and above a relative path stands `..`. -/
def addComponent (rooted : Bool) (kept : List Bytes) (c : Bytes) : List Bytes :=
  if c = [] || c = "." then kept
  else if c = ".." then
    match kept with
    | [] => if rooted then [] else [c]
    | last :: before => if last = ".." then c :: kept else before
  else c :: kept

def components (path : Bytes) : List Bytes :=
  ((Bytes.split slash path).foldl (addComponent (path.head? = some slash)) []).reverse

def clean (path : Bytes) : Bytes :=
  let body := Bytes.join "/" (components path)
  if path.head? = some slash then "/" ++ body
  else if body = [] then "."
  else body

/-- A name in a directory, as a clean path. What is empty is left out. -/
def join (dir name : Bytes) : Bytes :=
  if dir = [] then if name = [] then [] else clean name else clean (dir ++ "/" ++ name)

def dir (path : Bytes) : Bytes :=
  clean (path.reverse.dropWhile (· ≠ slash)).reverse

def base (path : Bytes) : Bytes :=
  if path = [] then "."
  else
    let body := path.reverse.dropWhile (· = slash)
    if body = [] then "/" else (body.takeWhile (· ≠ slash)).reverse

def ext (path : Bytes) : Bytes :=
  let last := path.reverse.takeWhile (· ≠ slash)
  if last.contains (Bytes.byte '.') then
    Bytes.byte '.' :: (last.takeWhile (· ≠ Bytes.byte '.')).reverse
  else []

def isProjectFile (path : Bytes) : Bool :=
  let b := base path
  b = ".merlin" || b = "dune" || b = "dune-project" || b = "dune-workspace" || b.endsWith ".opam"

def isSourceFile (path : Bytes) : Bool :=
  let e := ext path
  e = ".ml" || e = ".mli" || e = ".mll" || e = ".mly"

end Path

end MerlinBridge
