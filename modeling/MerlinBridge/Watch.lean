import MerlinBridge.Path

/-!
# Watching directories

Changes on disk are reported for whole directories. A raw event names a file and what happened to
it; events for files that are neither source nor project files are dropped.

A `Tracker` knows the documents whose directories are to be watched. A change to a project file
concerns all tracked documents in its directory, a change to any other file the document with that
very path. Tracking a document is two separate actions, to record it and to watch its directory, and
so is the reverse.
-/

namespace MerlinBridge

namespace Watch

inductive Action where
  | create
  | write
  | remove
  | rename
  | chmod
deriving DecidableEq, Repr

inductive Op where
  | changed
  | removed
  | created
deriving DecidableEq, Repr

namespace Op

def name : Op → Bytes
  | changed => "changed"
  | removed => "removed"
  | created => "created"

/-- What the actions of one raw event amount to. A file that was renamed is gone from its place. -/
def ofActions? (actions : List Action) : Option Op :=
  if actions.contains .remove || actions.contains .rename then some removed
  else if actions.contains .create then some created
  else if actions.contains .write || actions.contains .chmod then some changed
  else none

end Op

structure Change where
  path : Bytes
  op : Op
deriving DecidableEq

namespace Change

def ofEvent? (path : Bytes) (actions : List Action) : Option Change :=
  if Path.isProjectFile path || Path.isSourceFile path then
    (Op.ofActions? actions).map fun op => ⟨path, op⟩
  else none

end Change

inductive Error where
  | missing (dir : Bytes)
  | closed (dir : Bytes)
  | released
deriving DecidableEq

namespace Error

def message : Error → Bytes
  | missing dir => "failed to watch " ++ dir ++ ": no such file or directory"
  | closed dir => "failed to watch " ++ dir ++ ": inotify instance already closed"
  | released => "bad file descriptor"

end Error

structure Directories where
  dirs : List Bytes := []
  closed : Bool := false
deriving DecidableEq

namespace Directories

/-- Watches the directory of a path, where `present` tells which directories there are. Tells
whether it was not watched before. -/
def watch (w : Directories) (present : Bytes → Bool) (path : Bytes) :
    Directories × Except Error Bool :=
  let dir := Path.dir path
  if w.dirs.contains dir then (w, .ok false)
  else if w.closed then (w, .error (.closed dir))
  else if present dir then ({ w with dirs := dir :: w.dirs }, .ok true)
  else (w, .error (.missing dir))

/-- Stops watching the directory of a path. A directory that was watched when the watch was closed
is given up with an error. -/
def unwatch (w : Directories) (path : Bytes) : Directories × Option Error :=
  ({ w with dirs := w.dirs.filter (· ≠ Path.dir path) },
    if w.closed && w.dirs.contains (Path.dir path) then some .released else none)

def close (w : Directories) : Directories :=
  { w with closed := true }

end Directories

/-- The documents to be told of changes, by path, and the directories watched for them. -/
structure Tracker where
  docs : List (Bytes × Nat) := []
  directories : Directories := {}
deriving DecidableEq

namespace Tracker

def record (t : Tracker) (path : Bytes) (doc : Nat) : Tracker :=
  { t with docs := (path, doc) :: t.docs.filter (·.1 ≠ path) }

def addDirectory (t : Tracker) (present : Bytes → Bool) (path : Bytes) :
    Tracker × Except Error Bool :=
  let r := t.directories.watch present path
  ({ t with directories := r.1 }, r.2)

/-- Forgets the document under a path, and tells whether another one is in the same directory. -/
def forget (t : Tracker) (path : Bytes) : Tracker × Bool :=
  let docs := t.docs.filter (·.1 ≠ path)
  ({ t with docs := docs }, docs.any fun d => Path.dir d.1 = Path.dir path)

def removeDirectory (t : Tracker) (path : Bytes) : Tracker × Option Error :=
  let r := t.directories.unwatch path
  ({ t with directories := r.1 }, r.2)

/-- Forgets the document under a path, and stops watching a directory that holds no other one. -/
def drop (t : Tracker) (path : Bytes) : Tracker × Option Error :=
  let r := t.forget path
  if r.2 then (r.1, none) else r.1.removeDirectory path

def affected (t : Tracker) (path : Bytes) : List Nat :=
  let concerned : Bytes × Nat → Bool :=
    if Path.isProjectFile path then fun d => Path.dir d.1 = Path.dir path
    else fun d => d.1 = path
  (t.docs.filter concerned).map Prod.snd

end Tracker

end Watch

end MerlinBridge
