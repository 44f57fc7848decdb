import MerlinBridge.Proofs.Independence
import MerlinBridge.Proofs.Isolation

/-!
# A closed document stays closed

When a document is closed, its requests that wait in the queue are finished, and
the one in flight, which cannot leave the queue yet, is marked. From then on the
bridge is `Shut` for the document: nothing for it waits, what runs for it is
marked, and nothing is known about it. Every step keeps that, unless a client
appends another request for the document. The request that was in flight comes to
its end in one of two ways (`Winding`), whatever the tool returns for it.

The bridge compares the documents of the editor at the time of the closing, and a
request tells what its document was when it was asked. The two agree if documents
keep their paths (`KeepsPaths`).
-/

namespace MerlinBridge

/-- A document with a path is told apart by its path alone. -/
theorem Document.same_of_ne_nil (a : Document) {d : Document} (saved : d.path ≠ []) :
    a.same d = decide (a.path = d.path) := by
  simp [same, saved]

/-- Whether a request is for a document, by what it took along from its own. -/
def Request.isFor (r : Request) (d : Document) : Bool :=
  Document.sameOption r.document? (some d)

theorem Request.isFor_iff (r : Request) {d : Document} (saved : d.path ≠ []) :
    r.isFor d = true ↔ r.isValid = true ∧ r.path = d.path := by
  cases hdoc : r.doc with
  | none => simp [isFor, document?, isValid, hdoc, Document.sameOption]
  | some id =>
      simp [isFor, document?, isValid, hdoc, Document.sameOption, Document.same_of_ne_nil _ saved]

/-- A key that is neither empty nor the name of the buffer is that of its own path
alone. -/
theorem Store.path_eq_of_key_eq {path path' : Bytes} (h : key path = key path')
    (saved : path' ≠ []) (named : path' ≠ Command.buffer) : path = path' := by
  rw [key_of_ne_nil saved] at h
  by_cases hempty : path = []
  · rw [hempty, key_nil] at h
    exact absurd h.symm named
  · rwa [key_of_ne_nil hempty] at h

namespace Bridge

/-! ## What waits -/

def waiting (b : Bridge) : List Request :=
  b.queue.toList.drop (Queue.reserved b.running.isSome)

theorem waiting_of_idle {b : Bridge} (h : b.running = none) : b.waiting = b.queue.toList := by
  simp [waiting, h, Queue.reserved]

theorem waiting_of_running {b : Bridge} {cur : Running} (h : b.running = some cur) :
    b.waiting = b.queue.pop.toList := by
  simp [waiting, h, Queue.reserved]

theorem waiting_subset (b : Bridge) : b.waiting ⊆ b.queue.toList :=
  (List.drop_sublist _ _).subset

theorem Coherent.mem_queue {b : Bridge} (h : b.Coherent) {cur : Running}
    (running : b.running = some cur) : cur.request ∈ b.queue.toList := by
  rw [Queue.toList_eq_cons_of_peek? _ (h.head cur running)]
  exact List.mem_cons_self

/-- The request in flight comes first in the queue, and then those that wait. -/
theorem Coherent.toList_eq {b : Bridge} (h : b.Coherent) :
    b.queue.toList = b.inFlight.toList ++ b.waiting := by
  cases hrunning : b.running with
  | none => simp [inFlight, hrunning, waiting_of_idle hrunning]
  | some cur =>
      rw [waiting_of_running hrunning, Queue.toList_eq_cons_of_peek? _ (h.head cur hrunning)]
      simp [inFlight, hrunning]

/-! ## Closing a document -/

theorem waiting_dispatchClose {b : Bridge} (h : b.Coherent) (e : Editor) (doc : Document) :
    (b.dispatchClose e doc).waiting = b.waiting.filter fun r => !concerns e doc r := by
  rw [waiting, running_dispatchClose, Option.isSome_map, queue_dispatchClose,
    Queue.toList_remove, waiting]
  cases hcur : b.running with
  | none => simp [Queue.reserved]
  | some cur =>
      rw [Queue.toList_eq_cons_of_peek? _ (h.head cur hcur)]
      simp [Queue.reserved]

/-- The requests that are about other documents stay in the queue, in the same order. -/
theorem filter_dispatchClose {b : Bridge} (h : b.Coherent) {e : Editor} {doc : Document}
    {p : Request → Bool} (agrees : ∀ r ∈ b.queue.toList, concerns e doc r = p r) :
    ((b.dispatchClose e doc).queue.toList.filter fun r => !p r) =
      b.queue.toList.filter fun r => !p r := by
  have hwaiting : ∀ r ∈ b.waiting, (!concerns e doc r) = !p r :=
    fun r hr => congrArg _ (agrees r (b.waiting_subset hr))
  rw [(coherent_dispatchClose b e doc h).toList_eq, h.toList_eq, inFlight_dispatchClose,
    waiting_dispatchClose h, List.filter_congr hwaiting]
  simp

theorem outcomes_dispatchClose (b : Bridge) (e : Editor) (doc : Document) :
    (b.dispatchClose e doc).outcomes =
      b.outcomes ++ (b.waiting.filter (concerns e doc)).map (·, some .documentClosed) := by
  obtain ⟨houtcomes, -⟩ := foldl_dropClosed
    { b with queue := (b.queue.remove b.running.isSome (concerns e doc)).1 }
    (b.queue.remove b.running.isSome (concerns e doc)).2
  rw [waiting, ← Queue.remove_snd]
  exact houtcomes

/-- Requests that are dropped one after the other all get the outcome, as no slot is
written twice. -/
theorem carries_foldl_dropClosed {rs : List Request} (nodup : (rs.map Request.id).Nodup)
    (b : Bridge) {r : Request} (hr : r ∈ rs) (empty : b.delivery r.id = {}) :
    ((rs.foldl dropClosed b).delivery r.id).Carries r.query.completionStart?
      (some .documentClosed) := by
  induction rs generalizing b with
  | nil => cases hr
  | cons s rs ih =>
      rw [List.map_cons, List.nodup_cons] at nodup
      obtain ⟨hs, hrs⟩ := nodup
      rw [List.foldl_cons]
      rcases List.mem_cons.mp hr with rfl | hr
      · rw [(Settles.foldl dropClosed settles_dropClosed (b.dropClosed r) rs).others r.id hs]
        have hdelivery : (b.dropClosed r).delivery r.id =
            (b.delivery r.id).finish r.query.completionStart? (some .documentClosed) := by
          simp [dropClosed, finishRequest, updateDelivery]
        rw [hdelivery, empty]
        exact Delivery.carries_finish _ _
      · have hother : r.id ∉ [s].map Request.id := by
          rw [List.map_singleton, List.mem_singleton]
          exact fun hid => hs (hid ▸ List.mem_map_of_mem hr)
        exact ih hrs (b.dropClosed s) hr
          (((settles_dropClosed b s).others r.id hother).trans empty)

theorem carries_dispatchClose {b : Bridge} (nodup : (b.queue.toList.map Request.id).Nodup)
    {e : Editor} {doc : Document} {r : Request} (hr : r ∈ b.waiting)
    (hconcerns : concerns e doc r = true) (empty : b.delivery r.id = {}) :
    ((b.dispatchClose e doc).delivery r.id).Carries r.query.completionStart?
      (some .documentClosed) := by
  have hgone : r ∈ (b.queue.remove b.running.isSome (concerns e doc)).2 := by
    rw [Queue.remove_snd]
    exact List.mem_filter.mpr ⟨hr, hconcerns⟩
  have hsublist : (b.queue.remove b.running.isSome (concerns e doc)).2.Sublist
      b.queue.toList := by
    rw [Queue.remove_snd]
    exact List.filter_sublist.trans (List.drop_sublist _ _)
  exact carries_foldl_dropClosed (nodup.sublist (hsublist.map Request.id))
    { b with queue := (b.queue.remove b.running.isSome (concerns e doc)).1 } hgone empty

theorem closed_markClosed {e : Editor} {doc : Document} {cur : Running}
    (h : cur.closed = true ∨ concerns e doc cur.request = true) :
    (markClosed e doc cur).closed = true := by
  unfold markClosed
  split
  · rfl
  · rename_i hother
    exact h.resolve_right hother

/-- A run whose document was closed fails for that reason, and does nothing else. -/
theorem effectOf_of_closed {cur : Running} (closed : cur.closed = true) (b : Bridge) (e : Editor)
    (res : RunResult) : b.effectOf e cur res = .failure .documentClosed [] := by
  simp [effectOf, Effect.ofResult, closed]

/-! ## Appending -/

/-- A client takes no request from a bridge that is not dead. -/
theorem toList_clientStep_of_alive {b : Bridge} (alive : b.dead = false) (r : Request)
    (s : Stage) :
    (b.clientStep r s).2.queue.toList =
      b.queue.toList ++ if s = .accepted then [r] else [] := by
  cases s with
  | called =>
      simp only [clientStep]
      split <;> simp [finishRequest, updateDelivery, emit]
  | signalled => simp [clientStep, sweepIfDead, alive]
  | _ => simp [clientStep, appendRequest, raiseSignal, log, emit]

theorem mem_queue_of_clientStep {b : Bridge} {r s : Request} {stage : Stage}
    (h : s ∈ (b.clientStep r stage).2.queue.toList) :
    s ∈ b.queue.toList ∨ (stage = .accepted ∧ s = r) := by
  by_cases haccepted : stage = .accepted
  · subst haccepted
    simpa [clientStep, appendRequest, log, emit] using h
  · exact Or.inl ((toList_clientStep_sublist b r stage haccepted).subset h)

/-! ## Nothing is left for a document -/

/-- Nothing for the document waits, a run for it is marked, and nothing is known about
it. -/
structure Shut (d : Document) (b : Bridge) : Prop where
  waiting : ∀ r ∈ b.waiting, r.isFor d = false
  running : ∀ cur, b.running = some cur → cur.request.isFor d = true → cur.closed = true
  store : b.store.get? (Store.key d.path) = none

namespace Shut

variable {d : Document} {b b' : Bridge}

/-- Where no request in the queue is for the document, none runs for it. -/
theorem of_queue (coherent : b.Coherent) (queue : ∀ r ∈ b.queue.toList, r.isFor d = false)
    (store : b.store.get? (Store.key d.path) = none) : Shut d b := by
  refine ⟨fun r hr => queue r (b.waiting_subset hr), ?_, store⟩
  intro cur hcur hfor
  rw [queue _ (coherent.mem_queue hcur)] at hfor
  cases hfor

/-- Once the head has left the queue, or if nothing is in flight, no request for the
document is in it. -/
theorem isFor_of_idle (h : Shut d b) (idle : b.running = none) {r : Request}
    (hr : r ∈ b.queue.toList) : r.isFor d = false :=
  h.waiting r (by rwa [waiting_of_idle idle])

theorem isFor_of_pop (h : Shut d b) {cur : Running} (running : b.running = some cur) {r : Request}
    (hr : r ∈ b.queue.pop.toList) : r.isFor d = false :=
  h.waiting r (by rwa [waiting_of_running running])

/-- A step in which no run starts or ends and nothing is appended for the document. -/
theorem keep (h : Shut d b) (waiting : ∀ r ∈ b'.waiting, r ∈ b.waiting ∨ r.isFor d = false)
    (running : ∀ cur', b'.running = some cur' → ∃ cur, b.running = some cur ∧
      cur'.request = cur.request ∧ (cur.closed = true → cur'.closed = true))
    (store : b'.store.get? (Store.key d.path) = none) : Shut d b' := by
  refine ⟨fun r hr => (waiting r hr).elim (h.waiting r) id, ?_, store⟩
  intro cur' hcur' hfor
  obtain ⟨cur, hcur, hrequest, hclosed⟩ := running cur' hcur'
  exact hclosed (h.running cur hcur (hrequest ▸ hfor))

theorem diagnostics (h : Shut d b) : b.diagnostics (some d) = [] := by
  simp [Bridge.diagnostics, Store.diagnostics, h.store]

end Shut

end Bridge

namespace World

open Bridge (Shut)

/-- The editor has every document that was asked about, and under the path that it had
then. -/
def KeepsPaths (e : Editor) (as : List Action) : Prop :=
  ∀ query doc, Action.ask query (some doc) ∈ as →
    (e.document? doc.id).map Document.path = some doc.path

/-- If documents keep their paths, the requests that are about a document when it is
closed are those that were asked for it. -/
theorem concerns_eq_isFor {settings : Settings} {mayWatch : Bool} {as : List Action} {e : Editor}
    (paths : KeepsPaths e as) {d : Document} (saved : d.path ≠ []) {r : Request}
    (hr : r ∈ ((start settings mayWatch).run as).bridge.queue.toList) :
    Bridge.concerns e d r = r.isFor d := by
  have happended := (queue_sublist_appended settings mayWatch as).subset hr
  obtain ⟨c, hc, rfl, -⟩ := (numbered_run settings mayWatch as).past r happended
  obtain ⟨query, doc, hasked, hbuilt⟩ :=
    built_run settings mayWatch as c (List.mem_of_getElem? hc)
  rw [hbuilt, Request.isFor, Request.document?_build]
  cases doc with
  | none => rfl
  | some x =>
      obtain ⟨y, hy, hpath⟩ := Option.map_eq_some_iff.mp (paths query x hasked)
      have hresolve : e.resolve (Request.build c.request.id query (some x)).doc = some y := hy
      rw [Bridge.concerns, hresolve]
      simp [Document.sameOption, Document.same_of_ne_nil _ saved, hpath]

theorem shut_close {w : World} (sound : w.Sound) {e : Editor} {d : Document}
    (agrees : ∀ r ∈ w.bridge.queue.toList, Bridge.concerns e d r = r.isFor d) :
    Shut d (w.bridge.dispatchClose e d) := by
  refine ⟨?_, ?_, ?_⟩
  · intro r hr
    rw [Bridge.waiting_dispatchClose sound.coherent, List.mem_filter] at hr
    obtain ⟨hwaits, hother⟩ := hr
    rw [agrees r (w.bridge.waiting_subset hwaits)] at hother
    simpa using hother
  · intro cur' hcur' hfor
    rw [Bridge.running_dispatchClose] at hcur'
    obtain ⟨cur, hcur, rfl⟩ := Option.map_eq_some_iff.mp hcur'
    rw [Bridge.request_markClosed, ← agrees _ (sound.coherent.mem_queue hcur)] at hfor
    exact Bridge.closed_markClosed (Or.inr hfor)
  · have hstore : (w.bridge.dispatchClose e d).store =
        w.bridge.store.forget (Store.key d.path) :=
      congrArg Prod.fst (Bridge.standing_dispatchClose w.bridge e d)
    rw [hstore, Store.get?_forget_self]

/-- A run for the document is marked, so it does not succeed, and the runs for other
documents have other keys. -/
theorem get?_move_of_shut {w w' : World} {a : Action} (hmove : Move w a w') (sound : w.Sound)
    {d : Document} (saved : d.path ≠ []) (named : d.path ≠ Command.buffer) (h : Shut d w.bridge) :
    w'.bridge.store.get? (Store.key d.path) = none := by
  rw [get?_move hmove sound]
  cases hlast : Occasion.last? (Store.key d.path) (occasionsAt w a) with
  | none => exact h.store
  | some o =>
      have hmem := List.mem_filter.mp (List.mem_of_getLast? hlast)
      obtain ⟨hoccasion, hbears⟩ := hmem
      cases o with
      | closed doc => rfl
      | ended r out fault =>
          exfalso
          simp only [Occasion.bearsOn, Bool.and_eq_true, decide_eq_true_eq,
            Option.isNone_iff_eq_none] at hbears
          obtain ⟨⟨hquery, rfl⟩, hkey⟩ := hbears
          obtain ⟨hvalid, -⟩ := check_of_mem_occasionsAt hmove sound hoccasion hquery
          obtain ⟨e, res, cur, hcur, rfl, -, hfault⟩ :=
            exists_running_of_ended hmove sound hoccasion
          have hfor : cur.request.isFor d = true :=
            (cur.request.isFor_iff saved).mpr ⟨hvalid, Store.path_eq_of_key_eq hkey saved named⟩
          rw [Bridge.effectOf_of_closed (h.running cur hcur hfor)] at hfault
          cases hfault

theorem shut_client {w : World} (sound : w.Sound) {i : Nat} {c : Call}
    (called : w.calls[i]? = some c) {d : Document}
    (unasked : ∀ r ∈ appendedAt w (.client i), r.isFor d = false)
    (coherent : (w.bridge.clientStep c.request c.stage).2.Coherent)
    (store : (w.bridge.clientStep c.request c.stage).2.store.get? (Store.key d.path) = none)
    (h : Shut d w.bridge) : Shut d (w.bridge.clientStep c.request c.stage).2 := by
  have hrunning := congrArg Bridge.running
    (Bridge.control_clientStep w.bridge c.request c.stage)
  change (w.bridge.clientStep c.request c.stage).2.running = w.bridge.running at hrunning
  have hnew : c.stage = .accepted → c.request.isFor d = false := by
    intro haccepted
    apply unasked
    simp [appendedAt_client w i called, haccepted]
  cases hcur : w.bridge.running with
  | none =>
      refine Shut.of_queue coherent ?_ store
      intro r hr
      rcases Bridge.mem_queue_of_clientStep hr with hr | ⟨haccepted, rfl⟩
      · exact h.isFor_of_idle hcur hr
      · exact hnew haccepted
  | some cur =>
      have halive : w.bridge.dead = false := by
        rw [Bool.eq_false_iff]
        intro hdead
        cases (sound.idle_of_dead hdead).symm.trans hcur
      refine h.keep ?_ ?_ store
      · intro r hr
        rw [Bridge.waiting, hrunning, Bridge.toList_clientStep_of_alive halive,
          List.drop_append] at hr
        rcases List.mem_append.mp hr with hr | hr
        · exact Or.inl hr
        · have hr := List.mem_of_mem_drop hr
          split at hr
          · rename_i haccepted
            rw [List.mem_singleton.mp hr]
            exact Or.inr (hnew haccepted)
          · cases hr
      · intro cur' hcur'
        exact ⟨cur', hrunning ▸ hcur', rfl, id⟩

theorem shut_move {w w' : World} {a : Action} (hmove : Move w a w') (sound : w.Sound)
    {d : Document} (saved : d.path ≠ []) (named : d.path ≠ Command.buffer)
    (unasked : ∀ r ∈ appendedAt w a, r.isFor d = false) (h : Shut d w.bridge) :
    Shut d w'.bridge := by
  have hstore := get?_move_of_shut hmove sound saved named h
  have hcoherent := (sound_move hmove sound).coherent
  cases hmove with
  | ask query doc => exact ⟨h.waiting, h.running, h.store⟩
  | client i c called => exact shut_client sound called unasked hcoherent hstore h
  | wake serving =>
      rcases Bridge.wake_cases w.bridge with hsame | hlower | ⟨hidle, hstart⟩
      · rw [hsame]
        exact h
      · rw [hlower]
        exact ⟨h.waiting, h.running, h.store⟩
      · have hpicks := Bridge.startNext_picks { w.bridge with queue := w.bridge.queue.lower } hidle
          (sound.rest serving hidle)
        refine Shut.of_queue hcoherent ?_ hstore
        intro r hr
        rw [hstart] at hr
        exact h.isFor_of_idle hidle (hpicks.waiting.subset hr)
  | result e res cur serving running =>
      have hcontrol := Bridge.control_complete w.bridge e cur res
        (sound.coherent.head cur running) (sound.coherent.busy cur running)
      have hqueue : (w.bridge.complete e cur res).queue = w.bridge.queue.pop :=
        congrArg Bridge.queue hcontrol
      have hpicks := Bridge.startNext_picks (w.bridge.complete e cur res)
        (congrArg Bridge.running hcontrol) (congrArg Bridge.state hcontrol)
      refine Shut.of_queue hcoherent ?_ hstore
      intro r hr
      have hwaits := hpicks.waiting.subset hr
      rw [hqueue] at hwaits
      exact h.isFor_of_pop running hwaits
  | close e doc serving =>
      refine h.keep ?_ ?_ hstore
      · intro r hr
        rw [Bridge.waiting_dispatchClose sound.coherent] at hr
        exact Or.inl (List.mem_filter.mp hr).1
      · intro cur' hcur'
        rw [Bridge.running_dispatchClose] at hcur'
        obtain ⟨cur, hcur, rfl⟩ := Option.map_eq_some_iff.mp hcur'
        exact ⟨cur, hcur, Bridge.request_markClosed e doc cur,
          fun hclosed => Bridge.closed_markClosed (Or.inl hclosed)⟩
  | abandon serving dying =>
      refine Shut.of_queue hcoherent ?_ hstore
      intro r hr
      cases hcur : w.bridge.running with
      | none =>
          rw [Bridge.abandonRun_of_idle w.bridge hcur] at hr
          exact h.isFor_of_idle hcur hr
      | some cur =>
          rw [Bridge.abandonRun_of_running w.bridge hcur] at hr
          exact h.isFor_of_pop hcur hr
  | drain ending =>
      refine Shut.of_queue hcoherent ?_ hstore
      simp [Bridge.toList_failQueued]
  | pass _ _ idle passive =>
      obtain ⟨⟨now, tracker, dying, dead, hbridge⟩, -, -, -⟩ := passive
      rw [hbridge]
      exact ⟨h.waiting, h.running, h.store⟩

/-- A bridge stays shut for a document as long as nobody asks for it. -/
theorem shut_run {w : World} (sound : w.Sound) {d : Document} (saved : d.path ≠ [])
    (named : d.path ≠ Command.buffer) (h : Shut d w.bridge) (as : List Action)
    (unasked : ∀ r ∈ observe appendedAt w as, r.isFor d = false) : Shut d (w.run as).bridge :=
  run_keeps (I := fun v => Shut d v.bridge)
    (fun _ _ _ hmove hsound hunasked hshut => shut_move hmove hsound saved named hunasked hshut)
    sound h as unasked

/-! ## The request in flight -/

/-- Whatever the tool returns for a document that was closed, the editor hears nothing
of it, and the request is finished because of the closing. -/
theorem complete_of_closed {appended : List Request} {w : World} (sound : w.Sound)
    (numbered : Numbered appended w) (order : w.bridge.queue.toList.Sublist appended)
    (served : Served appended w) {cur : Running} (running : w.bridge.running = some cur)
    (closed : cur.closed = true) (e : Editor) (res : RunResult) :
    (w.bridge.complete e cur res).startNext.hostCalls = w.bridge.hostCalls ∧
      ((w.bridge.complete e cur res).startNext.delivery cur.request.id).Carries
        cur.request.query.completionStart? (some .documentClosed) := by
  obtain ⟨hcalls, hslots⟩ := Bridge.complete_startNext_effect w.bridge e cur res
    (sound.coherent.head cur running) (sound.coherent.busy cur running)
    (served.empty_of_running sound running) (numbered.nodup.sublist (order.map Request.id))
  rw [Bridge.effectOf_of_closed closed] at hcalls hslots
  refine ⟨hcalls.trans (List.append_nil _), ?_⟩
  rw [hslots]
  exact Delivery.carries_finish _ _

theorem bridge_result_of_running {w : World} (sound : w.Sound) {cur : Running}
    (running : w.bridge.running = some cur) (e : Editor) (res : RunResult) :
    (w.step (.result e res)).bridge = (w.bridge.complete e cur res).startNext := by
  have hserving : w.phase = .serving := by
    by_contra hphase
    cases (sound.stopped hphase).symm.trans running
  simp [step, hserving, Bridge.result, running]

/-- What becomes of a request in flight whose document was closed: its run goes on, or
it was finished for that reason, or it was finished because the bridge was told to
stop. -/
inductive Winding (r : Request) (w : World) : Prop where
  | running (cur : Running) (running : w.bridge.running = some cur) (request : cur.request = r)
      (closed : cur.closed = true)
  | closed (slots : (w.bridge.delivery r.id).Carries r.query.completionStart?
      (some .documentClosed))
  | stopped (dying : w.bridge.dying = true)
      (slots : (w.bridge.delivery r.id).Carries r.query.completionStart? (some .shuttingDown))

theorem winding_close {w : World} {e : Editor} {d : Document} {cur : Running}
    (running : w.bridge.running = some cur)
    (hconcerns : Bridge.concerns e d cur.request = true) {w' : World}
    (closed : w'.bridge = w.bridge.dispatchClose e d) : Winding cur.request w' := by
  refine .running (Bridge.markClosed e d cur) ?_ (Bridge.request_markClosed e d cur)
    (Bridge.closed_markClosed (Or.inr hconcerns))
  rw [closed, Bridge.running_dispatchClose, running, Option.map_some]

theorem winding_move {appended : List Request} {w w' : World} {a : Action} (hmove : Move w a w')
    (sound : w.Sound) (numbered : Numbered appended w)
    (order : w.bridge.queue.toList.Sublist appended) (served : Served appended w)
    (dying : w.bridge.dying = true → w'.bridge.dying = true) {r : Request} (h : Winding r w) :
    Winding r w' := by
  cases h with
  | closed slots =>
      rw [← delivery_move hmove sound numbered served slots.ne_empty] at slots
      exact .closed slots
  | stopped hdying slots =>
      rw [← delivery_move hmove sound numbered served slots.ne_empty] at slots
      exact .stopped (dying hdying) slots
  | running cur running request closed =>
      subst request
      have hempty := served.empty_of_running sound running
      cases hmove with
      | ask query doc => exact .running cur running rfl closed
      | client i c called =>
          have hrunning := congrArg Bridge.running
            (Bridge.control_clientStep w.bridge c.request c.stage)
          exact .running cur (hrunning.trans running) rfl closed
      | wake serving =>
          refine .running cur ?_ rfl closed
          rcases Bridge.wake_cases w.bridge with hsame | hlower | ⟨hidle, -⟩
          · exact (congrArg Bridge.running hsame).trans running
          · exact (congrArg Bridge.running hlower).trans running
          · cases hidle.symm.trans running
      | result e res cur' serving running' =>
          cases running.symm.trans running'
          exact .closed (complete_of_closed sound numbered order served running closed e res).2
      | close e doc serving =>
          refine .running (Bridge.markClosed e doc cur) ?_ (Bridge.request_markClosed e doc cur)
            (Bridge.closed_markClosed (Or.inl closed))
          change (w.bridge.dispatchClose e doc).running = _
          rw [Bridge.running_dispatchClose, running, Option.map_some]
      | abandon serving hdying =>
          refine .stopped (dying hdying) ?_
          change (w.bridge.abandonRun.delivery cur.request.id).Carries _ _
          have hdelivery : w.bridge.abandonRun.delivery cur.request.id =
              (w.bridge.delivery cur.request.id).finish cur.request.query.completionStart?
                (some .shuttingDown) := by
            rw [Bridge.abandonRun_of_running w.bridge running]
            simp [Bridge.finishRequest, Bridge.updateDelivery]
          rw [hdelivery, hempty]
          exact Delivery.carries_finish _ _
      | drain ending => cases (sound.stopped (by simp [ending])).symm.trans running
      | pass _ _ idle passive =>
          obtain ⟨⟨now, tracker, dying, dead, hbridge⟩, -, -, -⟩ := passive
          exact .running cur (by rw [hbridge]; exact running) rfl closed

theorem winding_run (settings : Settings) (mayWatch : Bool) (as bs : List Action) {r : Request}
    (h : Winding r ((start settings mayWatch).run as)) :
    Winding r ((start settings mayWatch).run (as ++ bs)) := by
  induction bs using List.reverseRecOn with
  | nil => rwa [List.append_nil]
  | append_singleton bs a ih =>
      rw [← List.append_assoc, run_append_singleton]
      exact winding_move (move_step _ a) (sound_run settings mayWatch _)
        (numbered_run settings mayWatch _) (queue_sublist_appended settings mayWatch _)
        (served_run settings mayWatch _) (dying_step (sound_run settings mayWatch _) a) ih

theorem delivery_run (settings : Settings) (mayWatch : Bool) (as bs : List Action) {id : Nat}
    (full : ((start settings mayWatch).run as).bridge.delivery id ≠ {}) :
    ((start settings mayWatch).run (as ++ bs)).bridge.delivery id =
      ((start settings mayWatch).run as).bridge.delivery id := by
  induction bs using List.reverseRecOn with
  | nil => rw [List.append_nil]
  | append_singleton bs a ih =>
      rw [← List.append_assoc, run_append_singleton, ← ih]
      exact delivery_move (move_step _ a) (sound_run settings mayWatch _)
        (numbered_run settings mayWatch _) (served_run settings mayWatch _) (ih ▸ full)

/-- A closed document stays closed. Take any run in which a document with a path of its
own is closed, and any way in which it goes on while no further request for the
document is appended. If documents keep their paths, then from the closing on, in
every state:

* no request for the document waits in the queue, and one that is in flight is at its
  head and marked; whatever the tool returns for it then, the editor is not called,
  and it is finished because of the closing;
* the requests for the document that were waiting are finished because of the closing;
* the one in flight, if there was one, is so still and has no outcome, or was finished
  because of the closing, or because the bridge was told to stop;
* nothing is known about the document.

The closing leaves the requests for other documents in the queue as they are, and
finishes none of them. -/
theorem closed_stays_closed (settings : Settings) (mayWatch : Bool) (before after : List Action)
    (e : Editor) (d : Document) (saved : d.path ≠ []) (named : d.path ≠ Command.buffer)
    (paths : KeepsPaths e before)
    (serving : ((start settings mayWatch).run before).phase = .serving)
    (unasked : ∀ r ∈ observe appendedAt
      ((start settings mayWatch).run (before ++ [.close e d])) after, r.isFor d = false) :
    let atClose := ((start settings mayWatch).run before).bridge
    let closed := ((start settings mayWatch).run (before ++ [.close e d])).bridge
    let w := (start settings mayWatch).run (before ++ [.close e d] ++ after)
    w.bridge.queue.toList = w.bridge.inFlight.toList ++ w.bridge.waiting ∧
    (∀ r ∈ w.bridge.waiting, r.isFor d = false) ∧
    (∀ cur, w.bridge.running = some cur → cur.request.isFor d = true →
      cur.closed = true ∧ ∀ e' res,
        (w.step (.result e' res)).bridge.hostCalls = w.bridge.hostCalls ∧
        ((w.step (.result e' res)).bridge.delivery cur.request.id).Carries
          cur.request.query.completionStart? (some .documentClosed)) ∧
    (∀ r ∈ atClose.waiting, r.isFor d = true →
      (w.bridge.delivery r.id).Carries r.query.completionStart? (some .documentClosed)) ∧
    (∀ r, atClose.inFlight = some r → r.isFor d = true →
      (w.bridge.inFlight = some r ∧ w.bridge.delivery r.id = {}) ∨
      (w.bridge.delivery r.id).Carries r.query.completionStart? (some .documentClosed) ∨
      (w.bridge.dying = true ∧
        (w.bridge.delivery r.id).Carries r.query.completionStart? (some .shuttingDown))) ∧
    w.bridge.diagnostics (some d) = [] ∧
    (closed.queue.toList.filter fun r => !r.isFor d) =
      (atClose.queue.toList.filter fun r => !r.isFor d) ∧
    closed.outcomes =
      atClose.outcomes ++
        (atClose.waiting.filter fun r => r.isFor d).map (·, some .documentClosed) := by
  have hsound := sound_run settings mayWatch before
  have hserved := served_run settings mayWatch before
  have hagrees : ∀ r ∈ ((start settings mayWatch).run before).bridge.queue.toList,
      Bridge.concerns e d r = r.isFor d := fun r hr => concerns_eq_isFor paths saved hr
  have hclose : ((start settings mayWatch).run (before ++ [.close e d])).bridge =
      ((start settings mayWatch).run before).bridge.dispatchClose e d := by
    rw [run_append_singleton]
    simp [step, serving]
  have hshut := shut_run (sound_run settings mayWatch (before ++ [.close e d])) saved named
    (hclose ▸ shut_close hsound hagrees) after unasked
  rw [← run_append] at hshut
  have hafter := sound_run settings mayWatch (before ++ [.close e d] ++ after)
  refine ⟨hafter.coherent.toList_eq, hshut.waiting, ?_, ?_, ?_, ?_, ?_, ?_⟩
  · intro cur running hfor
    have hclosed := hshut.running cur running hfor
    refine ⟨hclosed, ?_⟩
    intro e' res
    rw [bridge_result_of_running hafter running]
    exact complete_of_closed hafter (numbered_run settings mayWatch _)
      (queue_sublist_appended settings mayWatch _) (served_run settings mayWatch _) running
      hclosed e' res
  · intro r hr hfor
    have hqueued := Bridge.waiting_subset _ hr
    have hnodup := (numbered_run settings mayWatch before).nodup.sublist
      ((queue_sublist_appended settings mayWatch before).map Request.id)
    have hcarries := Bridge.carries_dispatchClose hnodup hr ((hagrees r hqueued).trans hfor)
      (hserved.waiting r hqueued)
    rw [← hclose] at hcarries
    rw [delivery_run settings mayWatch _ after hcarries.ne_empty]
    exact hcarries
  · intro r hflight hfor
    obtain ⟨cur, hcur, rfl⟩ := Option.map_eq_some_iff.mp hflight
    have hconcerns := (hagrees _ (hsound.coherent.mem_queue hcur)).trans hfor
    have hwinding := winding_close hcur hconcerns hclose
    cases winding_run settings mayWatch _ after hwinding with
    | running cur' running request closed =>
        refine Or.inl ⟨?_, ?_⟩
        · rw [Bridge.inFlight, running, Option.map_some, request]
        · rw [← request]
          exact (served_run settings mayWatch _).empty_of_running hafter running
    | closed slots => exact Or.inr (Or.inl slots)
    | stopped dying slots => exact Or.inr (Or.inr ⟨dying, slots⟩)
  · exact hshut.diagnostics
  · rw [hclose]
    exact Bridge.filter_dispatchClose hsound.coherent hagrees
  · have hwaiting : ∀ r ∈ ((start settings mayWatch).run before).bridge.waiting,
        Bridge.concerns e d r = r.isFor d :=
      fun r hr => hagrees r (Bridge.waiting_subset _ hr)
    rw [hclose, Bridge.outcomes_dispatchClose, List.filter_congr hwaiting]

/-- The first file is being checked; a completion in it and a check of the second file
wait. -/
def crowded : List Action :=
  check 0 ++ .ask (.completion "x" 0 1 0) (some page) :: uninterrupted 1 ++
    .ask .errors (some sheet) :: uninterrupted 2

theorem keepsPaths_crowded : KeepsPaths wideDesk crowded := by
  intro query doc hasked
  simp only [crowded, check, uninterrupted, List.cons_append, List.nil_append, List.mem_cons,
    Action.ask.injEq, Option.some.injEq, reduceCtorEq, List.not_mem_nil, false_or, or_false]
    at hasked
  rcases hasked with ⟨-, rfl⟩ | ⟨-, rfl⟩ | ⟨-, rfl⟩ <;> decide

/-- The first file is closed, and then its check returns a diagnostic. The completion and
the check have failed, the diagnostic is not there, and the second file is being
checked. -/
theorem closed_before_reply :
    (((start brittle false).run crowded).phase = .serving ∧
      ((start brittle false).run crowded).bridge.waiting.map (·.isFor page) = [true, false] ∧
      ((start brittle false).run crowded).bridge.inFlight.map (·.isFor page) = some true) ∧
      ((start brittle false).run
        (crowded ++ [.close wideDesk page] ++ [.result wideDesk oneError])).bridge.inFlight.map
          (·.isFor page) = some false ∧
      (((start brittle false).run
        (crowded ++ [.close wideDesk page] ++
          [.result wideDesk oneError])).bridge.delivery 1).Carries (some 0)
            (some .documentClosed) ∧
      ((start brittle false).run
        (crowded ++ [.close wideDesk page] ++
          [.result wideDesk oneError])).bridge.diagnostics (some page) = [] := by
  obtain ⟨-, -, -, hwaiting, -, hdiagnostics, -, -⟩ :=
    closed_stays_closed brittle false crowded [.result wideDesk oneError] wideDesk page
      (by decide) (by decide) keepsPaths_crowded (by decide) (by decide)
  refine ⟨by decide, by decide +kernel, ?_, hdiagnostics⟩
  exact hwaiting (Request.build 1 (.completion "x" 0 1 0) (some page)) (by decide) (by decide)

end World

end MerlinBridge
