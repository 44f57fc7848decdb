import MerlinBridge.Disk
import MerlinBridge.Editor

/-!
# Documents on disk

A document that was opened from a file keeps the text that it was opened with. Once it follows the
disk, its text is read again whenever it is asked for, and every change of the file is a new
revision. A file that cannot be read changes nothing.
-/

namespace MerlinBridge

structure FileDocument where
  path : Bytes
  text : Bytes
  revision : Int64 := 0
  followsDisk : Bool := false
deriving DecidableEq

namespace FileDocument

def load (d : Disk) (name : Bytes) : Except Disk.Error FileDocument :=
  match d.read name with
  | .error e => .error e
  | .ok t => .ok { path := Path.clean name, text := t }

def follow (f : FileDocument) : FileDocument :=
  { f with followsDisk := true }

def refresh (f : FileDocument) (d : Disk) : FileDocument :=
  if f.followsDisk then
    match d.read f.path with
    | .ok t => if t = f.text then f else { f with text := t, revision := f.revision + 1 }
    | .error _ => f
  else f

/-- What a request sees of a document, and the document afterwards. The revision is asked for before
the text. -/
def view (f : FileDocument) (d : Disk) (id : Nat) : Document × FileDocument :=
  let g := f.refresh d
  ({ id := id, path := f.path, revision := f.revision, text := g.text }, g)

theorem path_refresh (f : FileDocument) (d : Disk) : (f.refresh d).path = f.path := by
  unfold refresh
  split
  · split
    · split <;> rfl
    · rfl
  · rfl

end FileDocument

end MerlinBridge
