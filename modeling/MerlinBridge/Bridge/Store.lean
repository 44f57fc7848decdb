import MerlinBridge.Diagnostic
import MerlinBridge.QuickFix
import MerlinBridge.Tool.Command

/-!
# The store of diagnostics

For each document the store holds what the last reply said about it: the diagnostics and the quick
fixes. An entry is replaced as a whole. Documents are told apart by their paths, and all documents
without a path share one entry.
-/

namespace MerlinBridge

structure Findings where
  diagnostics : List Diagnostic
  fixes : List QuickFix
deriving DecidableEq

structure Store where
  entries : List (Bytes × Findings) := []
deriving DecidableEq

namespace Store

def key (path : Bytes) : Bytes :=
  Command.filenameOf path

def get? (s : Store) (key : Bytes) : Option Findings :=
  (s.entries.find? fun e => e.1 = key).map Prod.snd

def forget (s : Store) (key : Bytes) : Store :=
  ⟨s.entries.filter fun e => e.1 ≠ key⟩

def set (s : Store) (key : Bytes) (f : Findings) : Store :=
  ⟨(key, f) :: (s.forget key).entries⟩

theorem get?_forget_self (s : Store) (key : Bytes) : (s.forget key).get? key = none := by
  simp [get?, forget]

theorem get?_set_self (s : Store) (key : Bytes) (f : Findings) :
    (s.set key f).get? key = some f := by
  simp [get?, set]

theorem get?_forget_of_ne (s : Store) {key other : Bytes} (h : other ≠ key) :
    (s.forget key).get? other = s.get? other := by
  simp only [get?, forget, List.find?_filter]
  congr 2
  funext e
  by_cases he : e.1 = other <;> simp [he, h]

theorem get?_set_of_ne (s : Store) {key other : Bytes} (f : Findings) (h : other ≠ key) :
    (s.set key f).get? other = s.get? other := by
  have hk : ¬ key = other := fun e => h e.symm
  rw [← get?_forget_of_ne s h]
  simp [get?, set, hk]

def diagnostics (s : Store) (key : Bytes) : List Diagnostic :=
  ((s.get? key).map Findings.diagnostics).getD []

def diagnosticAt (s : Store) (key : Bytes) (offset : Int64) : Option Diagnostic :=
  Diagnostic.atOffset (s.diagnostics key) offset

def quickFixesAt (s : Store) (key : Bytes) (cursor : Int64) : List QuickFix :=
  (((s.get? key).map Findings.fixes).getD []).filter fun q => q.range.covers cursor

end Store

end MerlinBridge
