import MerlinBridge.Text.Bytes

/-!
# Documents and the editor

A document belongs to the editor, which may rename and edit it at any time; the bridge only reads
it. It is told apart from others by its path, or, as long as it has never been saved and has no
path, by its identity. The editor also knows which document the user is looking at. The bridge reads
both at the moment it needs them.
-/

namespace MerlinBridge

structure Document where
  id : Nat
  path : Bytes
  revision : Int64
  text : Bytes
deriving DecidableEq

namespace Document

def same (a b : Document) : Bool :=
  if a.path ≠ [] ∨ b.path ≠ [] then a.path = b.path else a.id = b.id

theorem same_self (a : Document) : a.same a = true := by
  unfold same
  split <;> simp

theorem same_comm (a b : Document) : a.same b = b.same a := by
  unfold same
  by_cases ha : a.path = [] <;> by_cases hb : b.path = [] <;> simp [ha, hb, eq_comm]

def sameOption : Option Document → Option Document → Bool
  | some a, some b => a.same b
  | _, _ => false

def edit (d : Document) (text : Bytes) : Document :=
  { d with text := text, revision := d.revision + 1 }

end Document

inductive Focus where
  | everything
  | nothing
  | document (id : Nat)
deriving DecidableEq, Repr

structure Editor where
  documents : List Document
  focus : Focus := .everything

namespace Editor

def document? (e : Editor) (id : Nat) : Option Document :=
  e.documents.find? fun d => d.id = id

def resolve (e : Editor) (id : Option Nat) : Option Document :=
  id.bind e.document?

def isFocused (e : Editor) (d : Document) : Bool :=
  match e.focus with
  | .everything => true
  | .nothing => false
  | .document id => Document.sameOption (e.document? id) (some d)

def modify (e : Editor) (id : Nat) (f : Document → Document) : Editor :=
  { e with documents := e.documents.map fun d => if d.id = id then f d else d }

end Editor

end MerlinBridge
