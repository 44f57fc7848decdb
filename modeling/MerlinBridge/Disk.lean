import MerlinBridge.Path

/-!
# Files on disk

The disk holds files and directories by the components of their paths from the root. A name is
resolved one component after the other, from the root or from the working directory, so that every
component before the last has to be a directory, one before `..` too.
-/

namespace MerlinBridge

/-- The files and directories that are known. A directory that holds a file, or the working
directory, need not be listed. -/
structure Disk where
  workDir : List Bytes := []
  files : List (List Bytes × Bytes) := []
  directories : List (List Bytes) := []

namespace Disk

inductive Fault where
  | missing
  | notDirectory
  | isDirectory
deriving DecidableEq, Repr

structure Error where
  name : Bytes
  fault : Fault
deriving DecidableEq

def Error.message (e : Error) : Bytes :=
  match e.fault with
  | .missing => "open " ++ e.name ++ ": no such file or directory"
  | .notDirectory => "open " ++ e.name ++ ": not a directory"
  | .isDirectory => "read " ++ e.name ++ ": is a directory"

def content? (d : Disk) (p : List Bytes) : Option Bytes :=
  (d.files.find? fun f => f.1 = p).map Prod.snd

def isDirectory (d : Disk) (p : List Bytes) : Bool :=
  p.isPrefixOf d.workDir || d.directories.contains p ||
    d.files.any fun f => p.isPrefixOf f.1 && p ≠ f.1

def walk (d : Disk) : (place : List Bytes) → List Bytes → Except Fault (List Bytes)
  | p, [] => .ok p
  | p, c :: rest =>
    if !d.isDirectory p then .error .notDirectory
    else if c = [] || c = "." then walk d p rest
    else if c = ".." then walk d p.dropLast rest
    else if d.isDirectory (p ++ [c]) || (d.content? (p ++ [c])).isSome then walk d (p ++ [c]) rest
    else .error .missing

def isRooted (name : Bytes) : Bool :=
  name.head? = some Path.slash

def resolve (d : Disk) (name : Bytes) : Except Fault (List Bytes) :=
  if name = [] then .error .missing
  else d.walk (if isRooted name then [] else d.workDir) (Bytes.split Path.slash name)

def read (d : Disk) (name : Bytes) : Except Error Bytes :=
  match d.resolve name with
  | .error f => .error ⟨name, f⟩
  | .ok p =>
    match d.content? p with
    | some t => .ok t
    | none => .error ⟨name, .isDirectory⟩

def placeOf (d : Disk) (name : Bytes) : List Bytes :=
  if isRooted name then Path.components name
  else Path.components ("/" ++ Bytes.join "/" (d.workDir ++ [name]))

def write (d : Disk) (name content : Bytes) : Disk :=
  let p := d.placeOf name
  { d with files := (p, content) :: d.files.filter fun f => f.1 ≠ p }

def remove (d : Disk) (name : Bytes) : Disk :=
  { d with files := d.files.filter fun f => f.1 ≠ d.placeOf name }

def addDirectory (d : Disk) (name : Bytes) : Disk :=
  { d with directories := d.placeOf name :: d.directories }

end Disk

end MerlinBridge
