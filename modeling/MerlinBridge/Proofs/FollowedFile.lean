import MerlinBridge.Document.File
import MerlinBridge.Proofs.AppliedErrors

/-!
# Requests about a file that changes

A document that follows the disk reads its file again when it is asked for its text, and
comes to a new revision if the file has changed. A request asks for the revision before
the text, so the two need not belong together. `OnDisk.run` lets the file change and
requests be built in any order. A request keeps up with its document (`KeepsUp`) exactly
if the file still holds the text that was asked for last. Otherwise the request falls
behind by one revision (`FallsBehind`), and the log says so whenever a reply to it is
applied, however long the file has been left alone.
-/

namespace MerlinBridge

/-! ## The note about the revision -/

/-- The editor holds a document as it is, and the user is looking at it. -/
structure Editor.Presents (e : Editor) (d : Document) : Prop where
  found : e.document? d.id = some d
  focused : e.isFocused d = true

namespace Bridge

variable {r : Request}

def NotesRevision (r : Request) (line : Bytes) : Prop :=
  about r "document is now at revision " <+: line

/-- Of the lines that were logged from `b` to `b'`, one notes the revision. -/
def NotedRevision (r : Request) (b b' : Bridge) : Prop :=
  ∃ lines, b'.logged = b.logged ++ lines ∧ ∃ line ∈ lines, NotesRevision r line

theorem notesRevision_dropEnd_iff {line : Bytes} :
    NotesRevision r (line.dropEnd "\n") ↔ NotesRevision r line :=
  prefix_dropEnd_iff (about_ne_append_newline (by decide))

/-- A line that opens in another way does not note the revision. -/
theorem not_notesRevision_about {text rest : Bytes}
    (h : ¬ ("document is now at revision " : Bytes) <+: text ∧
      ¬ text <+: ("document is now at revision " : Bytes)) :
    ¬ NotesRevision r (about r (text ++ rest)) := by
  rw [NotesRevision, about, about, List.prefix_append_right_inj]
  exact not_prefix_append h

theorem not_notesRevision_diagnosticNote? {entry : Payload.ErrorEntry} {line : Bytes}
    (h : diagnosticNote? r entry = some line) : ¬ NotesRevision r line := by
  unfold diagnosticNote? at h
  split at h
  · cases h
  · obtain rfl := Option.some.inj h
    simp only [List.append_assoc]
    exact not_notesRevision_about (by decide)

theorem not_notesRevision_fixNote? {entry : Payload.QuickFixEntry} {line : Bytes}
    (h : fixNote? r entry = some line) : ¬ NotesRevision r line := by
  unfold fixNote? at h
  split at h
  · obtain rfl := Option.some.inj h
    simp only [List.append_assoc]
    exact not_notesRevision_about (by decide)
  · split at h
    · cases h
    · obtain rfl := Option.some.inj h
      simp only [List.append_assoc]
      exact not_notesRevision_about (by decide)

theorem exists_revisionNote?_iff {d : Document} :
    (∃ line, revisionNote? r d = some line ∧ NotesRevision r line) ↔ d.revision ≠ r.revision := by
  unfold revisionNote?
  split
  · simpa
  · rename_i hrevision
    refine iff_of_true ⟨_, rfl, ?_⟩ hrevision
    rw [NotesRevision, about, about, List.prefix_append_right_inj, List.append_assoc]
    exact List.prefix_append _ _

/-- A reply that is applied has the revision noted exactly if the document is at another one. -/
theorem notedRevision_iff (b : Bridge) {e : Editor} {v : Option Json} {p : Payload.Errors}
    {d : Document} (reply : Payload.Errors.ofJson v = .ok p) (doc : r.doc = some d.id)
    (presents : e.Presents d) :
    (b.applyErrors e r v).2 = none ∧
      (NotedRevision r b (b.applyErrors e r v).1 ↔ d.revision ≠ r.revision) := by
  have hfocus : (e.resolve r.doc).filter e.isFocused = some d := by
    simp [doc, Editor.resolve, presents.found, presents.focused]
  refine ⟨by simp only [applyErrors, reply, hfocus], ?_⟩
  rw [← exists_revisionNote?_iff, NotedRevision, b.logged_applyErrors_of_focused reply hfocus]
  constructor
  · rintro ⟨lines, hlines, line, hline, hnotes⟩
    obtain rfl := List.append_cancel_left hlines
    obtain ⟨whole, hwhole, rfl⟩ := List.mem_map.mp hline
    rw [notesRevision_dropEnd_iff] at hnotes
    simp only [List.mem_append, List.mem_map, List.mem_filterMap, Option.mem_toList] at hwhole
    rcases hwhole with ((⟨s, -, rfl⟩ | hnote) | ⟨entry, -, hentry⟩) | ⟨entry, -, hentry⟩
    · exact absurd hnotes (not_notesRevision_about (by decide))
    · exact ⟨whole, hnote, hnotes⟩
    · exact absurd hnotes (not_notesRevision_diagnosticNote? hentry)
    · exact absurd hnotes (not_notesRevision_fixNote? hentry)
  · rintro ⟨line, hnote, hnotes⟩
    refine ⟨_, rfl, line.dropEnd "\n", List.mem_map_of_mem ?_, notesRevision_dropEnd_iff.mpr hnotes⟩
    simp [hnote]

end Bridge

/-! ## Documents and their files -/

namespace FileDocument

variable {f : FileDocument} {d : Disk}

def Outdated (f : FileDocument) (d : Disk) : Prop :=
  f.followsDisk = true ∧ ∃ t, d.read f.path = .ok t ∧ t ≠ f.text

theorem refresh_of_outdated (h : f.Outdated d) :
    ∃ t, d.read f.path = .ok t ∧
      f.refresh d = { f with text := t, revision := f.revision + 1 } := by
  obtain ⟨hfollows, t, hread, hne⟩ := h
  exact ⟨t, hread, by simp [refresh, hfollows, hread, hne]⟩

theorem refresh_of_not_outdated (h : ¬ f.Outdated d) : f.refresh d = f := by
  unfold refresh
  split
  · rename_i hfollows
    split
    · rename_i t hread
      exact if_pos (by_contra fun hne => h ⟨hfollows, t, hread, hne⟩)
    · rfl
  · rfl

@[simp] theorem followsDisk_refresh (f : FileDocument) (d : Disk) :
    (f.refresh d).followsDisk = f.followsDisk := by
  by_cases h : f.Outdated d
  · obtain ⟨t, -, hrefresh⟩ := refresh_of_outdated h
    rw [hrefresh]
  · rw [refresh_of_not_outdated h]

/-- A document that has just been read is that of its file. -/
theorem not_outdated_refresh (f : FileDocument) (d : Disk) : ¬ (f.refresh d).Outdated d := by
  by_cases h : f.Outdated d
  · obtain ⟨t, hread, hrefresh⟩ := refresh_of_outdated h
    rw [hrefresh]
    rintro ⟨-, t', hread', hne⟩
    exact hne (Except.ok.inj (hread'.symm.trans hread))
  · rwa [refresh_of_not_outdated h]

theorem revision_refresh_ne_iff : (f.refresh d).revision ≠ f.revision ↔ f.Outdated d := by
  by_cases h : f.Outdated d
  · obtain ⟨t, -, hrefresh⟩ := refresh_of_outdated h
    simp [hrefresh, h]
  · simp [refresh_of_not_outdated h, h]

/-! ## Runs -/

/-- What happens around a document: something on the disk changes, or a request is built. -/
inductive Step where
  | change (disk : Disk)
  | ask (id : Nat) (query : Request.Query)

structure OnDisk where
  identity : Nat
  document : FileDocument
  disk : Disk

namespace OnDisk

def request (w : OnDisk) (id : Nat) (query : Request.Query) : Request :=
  Request.build id query (some (w.document.view w.disk w.identity).1)

def asked (w : OnDisk) : OnDisk :=
  { w with document := (w.document.view w.disk w.identity).2 }

def step (w : OnDisk) : Step → OnDisk
  | .change disk => { w with disk := disk }
  | .ask _ _ => w.asked

def run (w : OnDisk) (steps : List Step) : OnDisk :=
  steps.foldl step w

def requests (w : OnDisk) : List Step → List Request
  | [] => []
  | .change disk :: steps => requests { w with disk := disk } steps
  | .ask id query :: steps => w.request id query :: w.asked.requests steps

def shown (w : OnDisk) : Document :=
  ⟨w.identity, w.document.path, w.document.revision, w.document.text⟩

/-- The text of the last request of a run, or the text before the first one. -/
def lastText (w : OnDisk) (steps : List Step) : Bytes :=
  ((w.requests steps).getLast?.map fun r => r.snapshot.contents).getD w.document.text

variable {w : OnDisk} {steps : List Step}

theorem contents_request (w : OnDisk) (id : Nat) (query : Request.Query) :
    (w.request id query).snapshot.contents = w.asked.document.text := rfl

@[simp] theorem path_step (w : OnDisk) (s : Step) : (w.step s).document.path = w.document.path := by
  cases s with
  | change disk => rfl
  | ask id query => exact path_refresh _ _

@[simp] theorem followsDisk_step (w : OnDisk) (s : Step) :
    (w.step s).document.followsDisk = w.document.followsDisk := by
  cases s with
  | change disk => rfl
  | ask id query => exact followsDisk_refresh _ _

theorem path_run (w : OnDisk) (steps : List Step) :
    (w.run steps).document.path = w.document.path := by
  induction steps generalizing w with
  | nil => rfl
  | cons s steps ih => exact (ih (w.step s)).trans (w.path_step s)

theorem followsDisk_run (w : OnDisk) (steps : List Step) :
    (w.run steps).document.followsDisk = w.document.followsDisk := by
  induction steps generalizing w with
  | nil => rfl
  | cons s steps ih => exact (ih (w.step s)).trans (w.followsDisk_step s)

/-- Between requests a document keeps its text, whatever happens to the file. -/
theorem text_run (w : OnDisk) (steps : List Step) :
    (w.run steps).document.text = w.lastText steps := by
  induction steps generalizing w with
  | nil => rfl
  | cons s steps ih =>
      cases s with
      | change disk => exact ih { w with disk := disk }
      | ask id query =>
          refine (ih w.asked).trans ?_
          rw [lastText, lastText, requests, List.getLast?_cons]
          cases (w.asked.requests steps).getLast? with
          | none => rfl
          | some r => rfl

/-- After a run the file can be read and does not hold the text that was asked for last. -/
def Overtaken (w : OnDisk) (steps : List Step) : Prop :=
  w.document.followsDisk = true ∧
    ∃ t, (w.run steps).disk.read w.document.path = .ok t ∧ t ≠ w.lastText steps

theorem outdated_run_iff :
    (w.run steps).document.Outdated (w.run steps).disk ↔ w.Overtaken steps := by
  rw [Outdated, Overtaken, path_run, followsDisk_run, text_run]

def Undisturbed (w : OnDisk) (steps : List Step) : Prop :=
  ∀ disk, Step.change disk ∈ steps → disk.read w.document.path = w.disk.read w.document.path

/-- A document of an undisturbed file stays as it is once its text has been read. -/
theorem shown_run_of_undisturbed (h : ¬ w.document.Outdated w.disk) (left : w.Undisturbed steps) :
    (w.run steps).shown = w.shown := by
  induction steps generalizing w with
  | nil => rfl
  | cons s steps ih =>
      have hrest : ∀ disk, Step.change disk ∈ steps →
          disk.read w.document.path = w.disk.read w.document.path :=
        fun disk hdisk => left disk (List.mem_cons_of_mem s hdisk)
      cases s with
      | change disk =>
          have hread := left disk List.mem_cons_self
          refine ih (w := { w with disk := disk }) ?_ fun disk' hdisk' => ?_
          · simpa only [Outdated, hread] using h
          · exact (hrest disk' hdisk').trans hread.symm
      | ask id query =>
          have hasked : w.asked = w :=
            congrArg (fun f => { w with document := f }) (refresh_of_not_outdated h)
          change (w.asked.run steps).shown = w.shown
          rw [hasked]
          exact ih h hrest

/-- A reply to a request about an undisturbed file is applied, and the revision is noted exactly if
the document was outdated when the request was built. -/
theorem notedRevision_iff_outdated (id : Nat) (query : Request.Query)
    (left : w.asked.Undisturbed steps) (b : Bridge) {e : Editor} {v : Option Json}
    {p : Payload.Errors} (reply : Payload.Errors.ofJson v = .ok p)
    (presents : e.Presents (w.asked.run steps).shown) :
    (b.applyErrors e (w.request id query) v).2 = none ∧
      (Bridge.NotedRevision (w.request id query) b (b.applyErrors e (w.request id query) v).1 ↔
        w.document.Outdated w.disk) := by
  rw [shown_run_of_undisturbed (not_outdated_refresh _ _) left] at presents
  rw [← revision_refresh_ne_iff]
  exact b.notedRevision_iff reply rfl presents

/-- The request has the revision of its text: the document is left at it, and as long as the file is
not disturbed, replies are applied without a note about the revision. -/
structure KeepsUp (w : OnDisk) (id : Nat) (query : Request.Query) : Prop where
  revision : (w.request id query).revision = w.asked.document.revision
  silent : ∀ (steps : List Step) (b : Bridge) (e : Editor) (v : Option Json) (p : Payload.Errors),
    w.asked.Undisturbed steps → Payload.Errors.ofJson v = .ok p →
    e.Presents (w.asked.run steps).shown →
    (b.applyErrors e (w.request id query) v).2 = none ∧
      ¬ Bridge.NotedRevision (w.request id query) b (b.applyErrors e (w.request id query) v).1

/-- The request has the revision before that of its text, and although the file is not disturbed,
replies are applied with a note about the revision. -/
structure FallsBehind (w : OnDisk) (id : Nat) (query : Request.Query) : Prop where
  revision : w.asked.document.revision = (w.request id query).revision + 1
  noted : ∀ (steps : List Step) (b : Bridge) (e : Editor) (v : Option Json) (p : Payload.Errors),
    w.asked.Undisturbed steps → Payload.Errors.ofJson v = .ok p →
    e.Presents (w.asked.run steps).shown →
    (b.applyErrors e (w.request id query) v).2 = none ∧
      Bridge.NotedRevision (w.request id query) b (b.applyErrors e (w.request id query) v).1

variable {id : Nat} {query : Request.Query}

theorem keepsUp_iff_not_outdated : w.KeepsUp id query ↔ ¬ w.document.Outdated w.disk := by
  constructor
  · intro hkeeps
    rw [← revision_refresh_ne_iff]
    exact fun hne => hne hkeeps.revision.symm
  · intro h
    refine ⟨?_, fun steps b e v p left reply presents => ?_⟩
    · exact (congrArg revision (refresh_of_not_outdated h)).symm
    · obtain ⟨hfault, hnoted⟩ := notedRevision_iff_outdated id query left b reply presents
      exact ⟨hfault, fun hnote => h (hnoted.mp hnote)⟩

theorem fallsBehind_of_outdated (h : w.document.Outdated w.disk) : w.FallsBehind id query := by
  refine ⟨?_, fun steps b e v p left reply presents => ?_⟩
  · obtain ⟨t, -, hrefresh⟩ := refresh_of_outdated h
    exact congrArg FileDocument.revision hrefresh
  · obtain ⟨hfault, hnoted⟩ := notedRevision_iff_outdated id query left b reply presents
    exact ⟨hfault, hnoted.mpr h⟩

/-- Whatever changes and requests come before it, a request carries the text that its document is
left with. It has the revision of that text unless the file has overtaken the document since the
text was asked for last, and the one before otherwise. -/
theorem request_keepsUp_iff (w : OnDisk) (before : List Step) (id : Nat) (query : Request.Query) :
    ((w.run before).request id query).snapshot.contents = (w.run before).asked.document.text ∧
      ((w.run before).KeepsUp id query ↔ ¬ w.Overtaken before) ∧
      (w.Overtaken before → (w.run before).FallsBehind id query) := by
  refine ⟨contents_request _ _ _, ?_, ?_⟩
  · rw [keepsUp_iff_not_outdated, outdated_run_iff]
  · intro h
    exact fallsBehind_of_outdated (outdated_run_iff.mpr h)

def oneLiner : OnDisk where
  identity := 0
  document := { path := "a.ml", text := "let a = 1\n", followsDisk := true }
  disk := Disk.write {} "a.ml" "let a = 1\n"

def rewrite : Step :=
  .change (Disk.write {} "a.ml" "let a = 2\n")

/-- The first request after a change falls behind, the next one keeps up. -/
theorem oneLiner_behind_then_level :
    oneLiner.Overtaken [rewrite] ∧ (oneLiner.run [rewrite]).FallsBehind 0 .errors ∧
      ¬ oneLiner.Overtaken [rewrite, .ask 0 .errors] ∧
      (oneLiner.run [rewrite, .ask 0 .errors]).KeepsUp 1 .errors := by
  have hovertaken : oneLiner.Overtaken [rewrite] := ⟨rfl, "let a = 2\n", by decide, by decide⟩
  have hlevel : ¬ oneLiner.Overtaken [rewrite, .ask 0 .errors] := by
    rintro ⟨-, t, hread, hne⟩
    have hfile : (oneLiner.run [rewrite, .ask 0 .errors]).disk.read oneLiner.document.path =
        .ok (oneLiner.lastText [rewrite, .ask 0 .errors]) := by decide
    exact hne (Except.ok.inj (hread.symm.trans hfile))
  exact ⟨hovertaken, (request_keepsUp_iff _ _ _ _).2.2 hovertaken, hlevel,
    (request_keepsUp_iff _ _ _ _).2.1.mpr hlevel⟩

/-- A request with the changed line has the revision of the line before the change, and the log says
so when a reply without diagnostics is applied right away. -/
theorem rewrite_not_kept_up_with :
    let w := oneLiner.run [rewrite]
    let r := w.request 0 .errors
    r.snapshot.contents = "let a = 2\n" ∧ r.revision = 0 ∧ w.asked.document.text = "let a = 2\n" ∧
      w.asked.document.revision = 1 ∧ ¬ w.KeepsUp 0 .errors ∧
      ∀ b : Bridge,
        (b.applyErrors { documents := [w.asked.shown] } r (some (.array [] []))).1.logged =
          b.logged ++
            [Bridge.about r "document is now at revision 1; applying diagnostics anyway"] := by
  refine ⟨by decide, by decide, by decide, by decide, fun h => absurd h.revision (by decide), ?_⟩
  intro b
  rw [b.logged_applyErrors_of_focused rfl rfl]
  congr 1
  decide +kernel

end OnDisk

end FileDocument

end MerlinBridge
