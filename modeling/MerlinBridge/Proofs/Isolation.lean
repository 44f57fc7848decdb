import MerlinBridge.Proofs.Findings

/-!
# Documents do not share findings

Two documents with different paths are different documents, and so are two that
have never been saved and have no path. Findings are kept by keys, and different
documents have different keys with one exception: a document without a path is kept
under the name of the buffer, so all of them share one entry, with each other and
with a document whose path is that name (`Document.same_of_key_eq`).

Outside that entry a document is not affected by what happens to others: whatever
runs end and whatever documents are closed, all that the editor can ask about it
is answered as before.
-/

namespace MerlinBridge

def Request.document? (r : Request) : Option Document :=
  r.doc.map fun id => ⟨id, r.path, r.revision, r.snapshot.contents⟩

theorem Request.document?_build (id : Nat) (query : Request.Query) (doc : Option Document) :
    (Request.build id query doc).document? = doc := by
  cases doc <;> rfl

namespace Store

@[simp] theorem key_nil : key [] = Command.buffer := rfl

theorem key_of_ne_nil {path : Bytes} (h : path ≠ []) : key path = path :=
  if_neg h

end Store

/-- Documents with one key are the same, or both are kept under the name of the
buffer. -/
theorem Document.same_of_key_eq {a b : Document} (h : Store.key a.path = Store.key b.path) :
    a.same b = true ∨ (Store.key a.path = Command.buffer ∧ Store.key b.path = Command.buffer) := by
  by_cases ha : a.path = []
  · have hbuffer : Store.key a.path = Command.buffer := by rw [ha, Store.key_nil]
    exact Or.inr ⟨hbuffer, h.symm.trans hbuffer⟩
  · by_cases hb : b.path = []
    · have hbuffer : Store.key b.path = Command.buffer := by rw [hb, Store.key_nil]
      exact Or.inr ⟨h.trans hbuffer, hbuffer⟩
    · rw [Store.key_of_ne_nil ha, Store.key_of_ne_nil hb] at h
      exact Or.inl (by simp [Document.same, hb, h])

namespace Bridge

/-- All that the editor can ask about a document is answered alike. -/
structure AnswersAlike (doc : Document) (b b' : Bridge) : Prop where
  diagnostics : b'.diagnostics (some doc) = b.diagnostics (some doc)
  diagnosticAt : ∀ offset, b'.diagnosticAt (some doc) offset = b.diagnosticAt (some doc) offset
  quickFixesAt : ∀ cursor, b'.quickFixesAt (some doc) cursor = b.quickFixesAt (some doc) cursor

/-- The answers depend on what is held under the key of the document alone. -/
theorem answersAlike_of_get?_eq {doc : Document} {b b' : Bridge}
    (h : b'.store.get? (Store.key doc.path) = b.store.get? (Store.key doc.path)) :
    AnswersAlike doc b b' := by
  have hdiagnostics : b'.store.diagnostics (Store.key doc.path) =
      b.store.diagnostics (Store.key doc.path) := by
    rw [Store.diagnostics, h, Store.diagnostics]
  refine ⟨hdiagnostics, ?_, ?_⟩
  · intro offset
    simp only [diagnosticAt, Store.diagnosticAt, hdiagnostics]
  · intro cursor
    simp only [quickFixesAt, Store.quickFixesAt, h]

end Bridge

def Occasion.document? : Occasion → Option Document
  | ended r _ _ => r.document?
  | closed doc => some doc

namespace World

/-- The document for which a run ends or which is closed in a step. -/
def subjectsAt (w : World) (a : Action) : List Document :=
  (occasionsAt w a).filterMap Occasion.document?

theorem mem_subjectsAt_of_bearsOn {w w' : World} {a : Action} (hmove : Move w a w')
    (sound : w.Sound) {o : Occasion} (h : o ∈ occasionsAt w a) {k : Bytes}
    (bears : o.bearsOn k = true) : ∃ doc ∈ subjectsAt w a, Store.key doc.path = k := by
  cases o with
  | closed doc =>
      exact ⟨doc, List.mem_filterMap.mpr ⟨_, h, rfl⟩, by simpa [Occasion.bearsOn] using bears⟩
  | ended r out fault =>
      simp only [Occasion.bearsOn, Bool.and_eq_true, decide_eq_true_eq,
        Option.isNone_iff_eq_none] at bears
      obtain ⟨⟨hquery, rfl⟩, hkey⟩ := bears
      obtain ⟨hvalid, -⟩ := check_of_mem_occasionsAt hmove sound h hquery
      obtain ⟨id, hdoc⟩ := Option.isSome_iff_exists.mp hvalid
      have hdocument : r.document? = some ⟨id, r.path, r.revision, r.snapshot.contents⟩ := by
        simp [Request.document?, hdoc]
      exact ⟨_, List.mem_filterMap.mpr ⟨_, h, hdocument⟩, hkey⟩

theorem get?_move_of_others {w w' : World} {a : Action} (hmove : Move w a w') (sound : w.Sound)
    {k : Bytes} (others : ∀ doc ∈ subjectsAt w a, Store.key doc.path ≠ k) :
    w'.bridge.store.get? k = w.bridge.store.get? k := by
  have hnone : ∀ o ∈ occasionsAt w a, o.bearsOn k = false := by
    intro o ho
    rw [Bool.eq_false_iff]
    intro hbears
    obtain ⟨doc, hdoc, hkey⟩ := mem_subjectsAt_of_bearsOn hmove sound ho hbears
    exact others doc hdoc hkey
  rw [get?_move hmove sound k, Occasion.last?_eq_none hnone]
  rfl

/-- What is held under a key stays as long as all that happens is about documents
with other keys. -/
theorem get?_run_of_others {w : World} (sound : w.Sound) {k : Bytes} (as : List Action)
    (others : ∀ doc ∈ observe subjectsAt w as, Store.key doc.path ≠ k) :
    (w.run as).bridge.store.get? k = w.bridge.store.get? k := by
  apply run_keeps (I := fun v => v.bridge.store.get? k = w.bridge.store.get? k) ?_ sound rfl as
    others
  intro v a v' hmove hsound hothers hsame
  rw [get?_move_of_others hmove hsound hothers, hsame]

/-- Documents do not share findings. Take any run and any way in which it goes on, a
single step for example. If no run of the tool ends and no document is closed in it
but for documents that are not the same as `b`, and that do not share the name of
the buffer with it, then all that the editor can ask about `b` is answered as
before: its diagnostics, the one at any offset, and the quick fixes at any
cursor. -/
theorem findings_of_others_untouched (settings : Settings) (mayWatch : Bool)
    (as bs : List Action) (b : Document)
    (others : ∀ a ∈ observe subjectsAt ((start settings mayWatch).run as) bs,
      a.same b = false ∧
        ¬ (Store.key a.path = Command.buffer ∧ Store.key b.path = Command.buffer)) :
    Bridge.AnswersAlike b ((start settings mayWatch).run as).bridge
      (((start settings mayWatch).run as).run bs).bridge := by
  apply Bridge.answersAlike_of_get?_eq
  apply get?_run_of_others (sound_run settings mayWatch as)
  intro a ha hkey
  obtain ⟨hother, hapart⟩ := others a ha
  rcases Document.same_of_key_eq hkey with hsame | hbuffer
  · rw [hother] at hsame
    cases hsame
  · exact hapart hbuffer

def sheet : Document where
  id := 1
  path := "b.ml"
  revision := 1
  text := []

def draft (id : Nat) : Document where
  id := id
  path := []
  revision := 1
  text := []

def wideDesk : Editor where
  documents := [page, sheet, draft 2, draft 3]

def oneError : RunResult where
  output := "\x7b\"class\":\"return\",\"value\":[\x7b\"start\":\x7b\"line\":1,\"col\":0\x7d," ++
    "\"end\":\x7b\"line\":1,\"col\":0\x7d,\"message\":\"m\",\"type\":\"error\"\x7d]\x7d"

/-- The client with the number `i` has a document checked, and there is one
diagnostic. -/
def checkOf (i : Nat) (doc : Document) : List Action :=
  .ask .errors (some doc) :: uninterrupted i ++ [.wake, .result wideDesk oneError]

def aside : List Action :=
  checkOf 1 sheet ++ [.close wideDesk sheet]

theorem findings_kept_aside :
    (observe subjectsAt ((start brittle false).run (checkOf 0 page)) aside = [sheet, sheet] ∧
      (((start brittle false).run (checkOf 0 page)).bridge.diagnostics (some page)).length = 1) ∧
      Bridge.AnswersAlike page ((start brittle false).run (checkOf 0 page)).bridge
        (((start brittle false).run (checkOf 0 page)).run aside).bridge := by
  have hsubjects : observe subjectsAt ((start brittle false).run (checkOf 0 page)) aside =
      [sheet, sheet] := by decide +kernel
  refine ⟨⟨hsubjects, by decide +kernel⟩, ?_⟩
  apply findings_of_others_untouched brittle false (checkOf 0 page) aside page
  rw [hsubjects]
  decide

/-- Two drafts are different documents, and yet the check of one of them gives the
other one a diagnostic, and closing it takes the diagnostic away. -/
theorem findings_shared_by_drafts :
    let w := (start brittle false).run (checkOf 0 (draft 2))
    (draft 2).same (draft 3) = false ∧
      observe subjectsAt (start brittle false) (checkOf 0 (draft 2)) = [draft 2] ∧
      (start brittle false).bridge.diagnostics (some (draft 3)) = [] ∧
      (w.bridge.diagnostics (some (draft 3))).length = 1 ∧
      (w.step (.close wideDesk (draft 2))).bridge.diagnostics (some (draft 3)) = [] := by
  decide +kernel

end World

end MerlinBridge
