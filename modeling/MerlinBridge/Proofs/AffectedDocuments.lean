import MerlinBridge.Proofs.CleanPath
import MerlinBridge.Watch

/-!
# Whom a change on disk concerns

A watch of a directory reports a change to a file in it under the path of the
directory, a slash and the name of the file (`Path.reported`). For a project file
the tracker compares directories, and finds all documents next to it. For any other
file it compares the path as it is reported with the paths of the documents as they
are written, and the two differ for a document in the working directory or in the
root: the change does not reach it.
-/

namespace MerlinBridge

namespace Path

/-- Whether a file is a project file is a matter of its name. -/
theorem isProjectFile_congr {p q : Bytes} (h : base p = base q) :
    isProjectFile p = isProjectFile q := by
  unfold isProjectFile
  rw [h]

theorem isProjectFile_reported (dir : Bytes) {name : Bytes} (h : slash ∉ name) (hne : name ≠ []) :
    isProjectFile (reported dir name) = isProjectFile name := by
  have hname : base ([] ++ name) = name := base_append h hne (Or.inl rfl)
  apply isProjectFile_congr
  rw [base_reported dir h hne]
  exact hname.symm

theorem isProjectFile_reported_base {path : Bytes} (h : clean path = path) :
    isProjectFile (reported (dir path) (base path)) = isProjectFile path := by
  apply isProjectFile_congr
  by_cases hroot : path = "/"
  · subst hroot
    decide
  · obtain ⟨hslash, hne⟩ := base_of_clean h hroot
    exact base_reported (dir path) hslash hne

end Path

namespace Watch

namespace Tracker

theorem mem_affected_of_isProjectFile (t : Tracker) {path : Bytes}
    (h : Path.isProjectFile path = true) (doc : Nat) :
    doc ∈ t.affected path ↔ ∃ p, (p, doc) ∈ t.docs ∧ Path.dir p = Path.dir path := by
  simp [affected, h]

theorem mem_affected_of_not_isProjectFile (t : Tracker) {path : Bytes}
    (h : Path.isProjectFile path = false) (doc : Nat) :
    doc ∈ t.affected path ↔ (path, doc) ∈ t.docs := by
  simp [affected, h]

/-- Whom a change concerns that a watch reports in the directory of a tracked
document with a clean path. A change to a project file concerns the document, and
exactly the documents of that directory. A change to the file of the document
itself, unless that is a project file, concerns exactly the documents with that
path if the directory is neither `.` nor the root; in these two it concerns only
documents that are tracked under a path that is not clean. -/
theorem affected_of_reported (t : Tracker) {path : Bytes} {doc : Nat}
    (tracked : (path, doc) ∈ t.docs) (clean : Path.clean path = path) :
    (∀ name : Bytes, name ≠ [] → Path.slash ∉ name → Path.isProjectFile name = true →
      doc ∈ t.affected (Path.reported (Path.dir path) name) ∧
      ∀ other, other ∈ t.affected (Path.reported (Path.dir path) name) ↔
        ∃ p, (p, other) ∈ t.docs ∧ Path.dir p = Path.dir path) ∧
    (Path.isProjectFile path = false → Path.dir path ≠ "." → Path.dir path ≠ "/" →
      doc ∈ t.affected (Path.reported (Path.dir path) (Path.base path)) ∧
      ∀ other, other ∈ t.affected (Path.reported (Path.dir path) (Path.base path)) ↔
        (path, other) ∈ t.docs) ∧
    (Path.isProjectFile path = false → Path.dir path = "." ∨ Path.dir path = "/" →
      ∀ other ∈ t.affected (Path.reported (Path.dir path) (Path.base path)),
        ∃ p, (p, other) ∈ t.docs ∧ Path.clean p ≠ p) := by
  refine ⟨?_, ?_, ?_⟩
  · intro name hne hslash hproject
    have hreported : Path.isProjectFile (Path.reported (Path.dir path) name) = true := by
      rw [Path.isProjectFile_reported _ hslash hne]
      exact hproject
    have hmem := t.mem_affected_of_isProjectFile hreported
    rw [Path.dir_reported path hslash] at hmem
    exact ⟨(hmem doc).mpr ⟨path, tracked, rfl⟩, hmem⟩
  · intro hproject hdot hroot
    have hmem := t.mem_affected_of_not_isProjectFile hproject
    rw [(Path.reported_eq_iff clean).mpr ⟨hdot, hroot⟩]
    exact ⟨(hmem doc).mpr tracked, hmem⟩
  · intro hproject hdir other hother
    have hreported := (Path.isProjectFile_reported_base clean).trans hproject
    exact ⟨_, (t.mem_affected_of_not_isProjectFile hreported other).mp hother,
      Path.clean_reported_ne clean hdir⟩

def threeDocuments : Tracker where
  docs := [("p/a.ml", 0), ("p/b.ml", 1), ("q/c.ml", 2)]

/-- A change to the file of the first one reaches it, and one to a project file in
its directory reaches its neighbour, too. -/
theorem affected_of_neighbours :
    ((("p/a.ml" : Bytes), 0) ∈ threeDocuments.docs ∧ Path.clean "p/a.ml" = "p/a.ml") ∧
      0 ∈ threeDocuments.affected "p/a.ml" ∧ 1 ∉ threeDocuments.affected "p/a.ml" ∧
      1 ∈ threeDocuments.affected "p/dune" ∧ 2 ∉ threeDocuments.affected "p/dune" := by
  have htracked : (("p/a.ml" : Bytes), 0) ∈ threeDocuments.docs := by decide
  obtain ⟨hproject, hown, -⟩ := affected_of_reported threeDocuments htracked (by decide)
  have hdune := (hproject "dune" (by decide) (by decide) (by decide)).2
  have hfile := hown (by decide) (by decide) (by decide)
  refine ⟨⟨htracked, by decide⟩, hfile.1, ?_, ?_, by decide⟩
  · exact mt (hfile.2 1).mp (by decide)
  · exact (hdune 1).mpr ⟨"p/b.ml", by decide, by decide⟩

def bareDocuments : Tracker where
  docs := [("a.ml", 0), ("/b.ml", 1)]

/-- Their paths are clean, and a change to their files is not found to concern
anyone. -/
theorem unaffected_of_bare :
    (Path.clean "a.ml" = "a.ml" ∧ Path.isSourceFile "a.ml" = true ∧
      Path.reported (Path.dir "a.ml") (Path.base "a.ml") = "./a.ml" ∧
      bareDocuments.affected "./a.ml" = []) ∧
    (Path.clean "/b.ml" = "/b.ml" ∧ Path.isSourceFile "/b.ml" = true ∧
      Path.reported (Path.dir "/b.ml") (Path.base "/b.ml") = "//b.ml" ∧
      bareDocuments.affected "//b.ml" = []) := by
  decide

end Tracker

end Watch

end MerlinBridge
