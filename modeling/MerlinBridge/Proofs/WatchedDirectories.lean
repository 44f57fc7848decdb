import Mathlib.Data.List.Induction
import MerlinBridge.Bridge.Client

/-!
# Directories watched by several clients

A client that tracks a document changes the documents first and the directories
afterwards, and so does one that gives a document up. In between others may do the
same, so that what the client saw of the documents no longer holds when it changes
the directories: a directory is given up although a document in it has come in
the meantime, or is watched although its last document has gone.

`Shared` is a tracker among any number of clients, each of which takes its steps in
turn with the others. Every change of the directories is a `Toggle`, which is stale
if the documents did not call for it at that moment. Once all clients have
returned, a directory is watched as it should be exactly if the last toggle of it
was not stale; and none is, as long as clients that are about the same directory do
not overlap.
-/

namespace MerlinBridge

namespace Watch

inductive Errand where
  | watch (path : Bytes) (doc : Nat)
  | unwatch (path : Bytes)
deriving DecidableEq

namespace Errand

def path : Errand → Bytes
  | watch path _ => path
  | unwatch path => path

def dir (e : Errand) : Bytes :=
  Path.dir e.path

def adds : Errand → Bool
  | watch _ _ => true
  | unwatch _ => false

end Errand

inductive Progress where
  | called
  | halfway
  | returned
deriving DecidableEq

structure Client where
  errand : Errand
  progress : Progress := .called
deriving DecidableEq

namespace Client

def isAbout (dir : Bytes) (c : Client) : Bool :=
  c.progress = .halfway && c.errand.dir = dir

theorem isAbout_iff {dir : Bytes} {c : Client} :
    c.isAbout dir = true ↔ c.progress = .halfway ∧ c.errand.dir = dir := by
  simp [isAbout]

end Client

namespace Tracker

def holds (t : Tracker) (dir : Bytes) : Bool :=
  t.docs.any fun d => Path.dir d.1 = dir

def watches (t : Tracker) (dir : Bytes) : Bool :=
  t.directories.dirs.contains dir

/-- The next step of a client, where every directory can be watched. A document
without a path is not tracked. -/
def clientStep (t : Tracker) : Errand → Progress → Progress × Tracker
  | .watch path doc, .called =>
      if path = [] then (.returned, t) else (.halfway, t.record path doc)
  | .unwatch path, .called =>
      if path = [] then (.returned, t)
      else (if (t.forget path).2 then .returned else .halfway, (t.forget path).1)
  | .watch path _, .halfway => (.returned, (t.addDirectory (fun _ => true) path).1)
  | .unwatch path, .halfway => (.returned, (t.removeDirectory path).1)
  | _, .returned => (.returned, t)

/-! ## The steps of a client -/

theorem any_filter_path {docs : List (Bytes × Nat)} {path dir : Bytes} (h : Path.dir path ≠ dir) :
    (docs.filter (·.1 ≠ path)).any (fun d => Path.dir d.1 = dir) =
      docs.any fun d => Path.dir d.1 = dir := by
  rw [List.any_filter]
  congr 1
  funext d
  by_cases hd : d.1 = path
  · simp [hd, h]
  · simp [hd]

theorem holds_record (t : Tracker) (path : Bytes) (doc : Nat) (dir : Bytes) :
    (t.record path doc).holds dir = (decide (Path.dir path = dir) || t.holds dir) := by
  unfold record holds
  rw [List.any_cons]
  by_cases h : Path.dir path = dir
  · simp [h]
  · rw [any_filter_path h]

theorem holds_forget_of_ne (t : Tracker) {path dir : Bytes} (h : Path.dir path ≠ dir) :
    (t.forget path).1.holds dir = t.holds dir :=
  any_filter_path h

theorem holds_of_forget {t : Tracker} {path dir : Bytes}
    (h : (t.forget path).1.holds dir = true) : t.holds dir = true := by
  obtain ⟨d, hd, hdir⟩ := List.any_eq_true.mp h
  exact List.any_eq_true.mpr ⟨d, (List.mem_filter.mp hd).1, hdir⟩

/-- Between `t` and `u` only the documents in the directory of an errand have
changed. The client goes on to change the directory if they call for that, and
returns if there are such documents now as before. -/
structure Regards (e : Errand) (t : Tracker) (p : Progress) (u : Tracker) : Prop where
  directories : u.directories = t.directories
  others : ∀ dir, e.dir ≠ dir → u.holds dir = t.holds dir
  own : (p = .halfway ∧ u.holds e.dir = e.adds) ∨
    (p = .returned ∧ u.holds e.dir = true ∧ t.holds e.dir = true)

/-- Between `t` and `u` only the directory of an errand has changed, and is watched
or not as the errand says. -/
structure Toggles (e : Errand) (t u : Tracker) : Prop where
  docs : u.docs = t.docs
  closed : u.directories.closed = t.directories.closed
  watches : ∀ dir, u.watches dir = if e.dir = dir then e.adds else t.watches dir

theorem clientStep_called (t : Tracker) (e : Errand) (h : e.path ≠ []) :
    Regards e t (t.clientStep e .called).1 (t.clientStep e .called).2 := by
  cases e with
  | watch path doc =>
      have hpath : path ≠ [] := h
      simp only [clientStep, hpath, if_false]
      refine ⟨rfl, ?_, Or.inl ⟨rfl, ?_⟩⟩
      · intro dir hdir
        rw [holds_record]
        simp only [show Path.dir path ≠ dir from hdir, decide_false, Bool.false_or]
      · rw [holds_record]
        simp [Errand.dir, Errand.path, Errand.adds]
  | unwatch path =>
      have hpath : path ≠ [] := h
      simp only [clientStep, hpath, if_false]
      have hfound : (t.forget path).2 = (t.forget path).1.holds (Path.dir path) := rfl
      refine ⟨rfl, fun dir hdir => t.holds_forget_of_ne hdir, ?_⟩
      cases hleft : (t.forget path).2 with
      | false => exact Or.inl ⟨rfl, hfound.symm.trans hleft⟩
      | true =>
          have hholds : (t.forget path).1.holds (Path.dir path) = true := hfound.symm.trans hleft
          exact Or.inr ⟨rfl, hholds, holds_of_forget hholds⟩

theorem clientStep_halfway (t : Tracker) (e : Errand) (h : t.directories.closed = false) :
    (t.clientStep e .halfway).1 = .returned ∧ Toggles e t (t.clientStep e .halfway).2 := by
  cases e with
  | watch path doc =>
      refine ⟨rfl, ?_⟩
      simp only [clientStep, addDirectory, Directories.watch, h]
      by_cases hdir : t.directories.dirs.contains (Path.dir path) = true
      · simp only [hdir, if_true]
        refine ⟨rfl, rfl, ?_⟩
        intro dir
        split
        · rename_i heq
          rw [← heq]
          exact hdir
        · rfl
      · simp only [hdir]
        refine ⟨rfl, h.symm, ?_⟩
        intro dir
        by_cases heq : Path.dir path = dir
        · simp [watches, Errand.dir, Errand.path, Errand.adds, heq]
        · have hne : dir ≠ Path.dir path := fun hsame => heq hsame.symm
          simp [watches, Errand.dir, Errand.path, heq, hne]
  | unwatch path =>
      refine ⟨rfl, rfl, rfl, ?_⟩
      intro dir
      by_cases heq : Path.dir path = dir
      · simp [clientStep, removeDirectory, Directories.unwatch, watches, Errand.dir, Errand.path,
          Errand.adds, heq]
      · have hne : dir ≠ Path.dir path := fun hsame => heq hsame.symm
        simp [clientStep, removeDirectory, Directories.unwatch, watches, Errand.dir, Errand.path,
          heq, hne]

theorem clientStep_of_nil (t : Tracker) {e : Errand} (h : e.path = []) :
    t.clientStep e .called = (.returned, t) := by
  cases e with
  | watch path doc => exact if_pos h
  | unwatch path => exact if_pos h

theorem clientStep_returned (t : Tracker) (e : Errand) :
    t.clientStep e .returned = (.returned, t) := by
  cases e <;> rfl

end Tracker

structure Shared where
  tracker : Tracker := {}
  clients : List Client := []
deriving DecidableEq

inductive Turn where
  | call (e : Errand)
  | client (i : Nat)
deriving DecidableEq

structure Toggle where
  dir : Bytes
  adds : Bool
  tracked : Bool
deriving DecidableEq

def Toggle.isStale (g : Toggle) : Bool :=
  g.adds != g.tracked

/-- The last change of a directory. Before the first one it is not watched, and
nothing in it is tracked. -/
def lastToggle (dir : Bytes) (gs : List Toggle) : Toggle :=
  (gs.filter (·.dir = dir)).getLast?.getD ⟨dir, false, false⟩

theorem lastToggle_append_self (gs : List Toggle) (g : Toggle) :
    lastToggle g.dir (gs ++ [g]) = g := by
  simp [lastToggle]

theorem lastToggle_append_of_ne {dir : Bytes} (gs : List Toggle) {g : Toggle} (h : g.dir ≠ dir) :
    lastToggle dir (gs ++ [g]) = lastToggle dir gs := by
  simp [lastToggle, h]

namespace Shared

/-- The tracker and its clients after one turn. A turn of a client that does not
exist changes nothing. -/
def step (s : Shared) : Turn → Shared
  | .call e => { s with clients := s.clients ++ [{ errand := e }] }
  | .client i =>
      match s.clients[i]? with
      | none => s
      | some c =>
          let r := s.tracker.clientStep c.errand c.progress
          { tracker := r.2, clients := s.clients.set i ⟨c.errand, r.1⟩ }

def run (s : Shared) (ts : List Turn) : Shared :=
  ts.foldl step s

theorem run_append_singleton (s : Shared) (ts : List Turn) (t : Turn) :
    s.run (ts ++ [t]) = (s.run ts).step t :=
  List.foldl_append

def observe {α : Type} (f : Shared → Turn → List α) : Shared → List Turn → List α
  | _, [] => []
  | s, t :: ts => f s t ++ observe f (s.step t) ts

theorem observe_append_singleton {α : Type} (f : Shared → Turn → List α) (s : Shared)
    (ts : List Turn) (t : Turn) :
    observe f s (ts ++ [t]) = observe f s ts ++ f (s.run ts) t := by
  induction ts generalizing s with
  | nil => simp [observe, run]
  | cons u ts ih =>
      have hrun : s.run (u :: ts) = (s.step u).run ts := rfl
      rw [List.cons_append, observe, ih (s.step u), observe, hrun, List.append_assoc]

def isBusy (s : Shared) (dir : Bytes) : Bool :=
  s.clients.any (Client.isAbout dir)

def togglesAt (s : Shared) : Turn → List Toggle
  | .call _ => []
  | .client i =>
      match s.clients[i]? with
      | some ⟨e, .halfway⟩ => [⟨e.dir, e.adds, s.tracker.holds e.dir⟩]
      | _ => []

/-- The directory in which the documents are changed by a turn although another
client has still to change that directory. -/
def overlapsAt (s : Shared) : Turn → List Bytes
  | .call _ => []
  | .client i =>
      match s.clients[i]? with
      | some ⟨e, .called⟩ => if e.path ≠ [] ∧ s.isBusy e.dir = true then [e.dir] else []
      | _ => []

def errandTurns (e : Errand) : List Turn :=
  [.call e, .client 0, .client 0]

/-- What the bridge does to check a document for errors is an errand without a
break. -/
theorem tracker_watchDocument (b : Bridge) {t : Tracker} (h : b.tracker = some t) (d : Document) :
    (b.watchDocument (fun _ => true) d).tracker =
      some (run ⟨t, []⟩ (errandTurns (.watch d.path d.id))).tracker := by
  unfold Bridge.watchDocument
  rw [h]
  by_cases hpath : d.path = []
  · simp [hpath, h, run, errandTurns, step, Tracker.clientStep]
  · simp only [hpath, if_false]
    split
    · simp [Bridge.log, Bridge.emit, run, errandTurns, step, Tracker.clientStep, hpath]
    · simp [Bridge.log, Bridge.emit, run, errandTurns, step, Tracker.clientStep, hpath]
    · simp [run, errandTurns, step, Tracker.clientStep, hpath]

theorem tracker_unwatchDocument (b : Bridge) {t : Tracker} (h : b.tracker = some t)
    (d : Document) :
    (b.unwatchDocument d).tracker =
      some (run ⟨t, []⟩ (errandTurns (.unwatch d.path))).tracker := by
  unfold Bridge.unwatchDocument
  rw [h]
  by_cases hpath : d.path = []
  · simp [hpath, h, run, errandTurns, step, Tracker.clientStep]
  · have hdrop : (t.drop d.path).1 = (run ⟨t, []⟩ (errandTurns (.unwatch d.path))).tracker := by
      cases hleft : (t.forget d.path).2 <;>
        simp [Tracker.drop, run, errandTurns, step, Tracker.clientStep, hpath, hleft]
    simp only [hpath, if_false]
    split
    · simp [Bridge.log, Bridge.emit, hdrop]
    · simp [hdrop]

/-! ## What a turn can do -/

theorem mem_set_iff {clients : List Client} {i : Nat} {b c : Client} (hb : clients[i]? = some b)
    {x : Client} (hx : x ≠ b) : x ∈ clients.set i c ↔ x ∈ clients ∨ x = c := by
  constructor
  · exact List.mem_or_eq_of_mem_set
  · rintro (hmem | rfl)
    · obtain ⟨j, hj⟩ := List.mem_iff_getElem?.mp hmem
      have hij : i ≠ j := by
        rintro rfl
        exact hx (Option.some.inj (hj.symm.trans hb))
      rw [List.mem_iff_getElem?]
      exact ⟨j, by rw [List.getElem?_set_ne hij, hj]⟩
    · exact List.mem_set (List.getElem?_eq_some_iff.mp hb).1 x

/-- The turns by what they do to the tracker, and to the clients that are
halfway. -/
inductive Move (s : Shared) : Turn → Shared → Prop where
  | pass (t : Turn) (s' : Shared) (tracker : s'.tracker = s.tracker)
      (clients : ∀ c, c.progress = .halfway → (c ∈ s'.clients ↔ c ∈ s.clients))
      (quiet : s.togglesAt t = []) : Move s t s'
  | regard (i : Nat) (e : Errand) (p : Progress) (u : Tracker)
      (called : s.clients[i]? = some ⟨e, .called⟩) (path : e.path ≠ [])
      (regards : Tracker.Regards e s.tracker p u) :
      Move s (.client i) ⟨u, s.clients.set i ⟨e, p⟩⟩
  | toggle (i : Nat) (e : Errand) (u : Tracker) (called : s.clients[i]? = some ⟨e, .halfway⟩)
      (toggles : Tracker.Toggles e s.tracker u) :
      Move s (.client i) ⟨u, s.clients.set i ⟨e, .returned⟩⟩

theorem move_step (s : Shared) (t : Turn) (h : s.tracker.directories.closed = false) :
    Move s t (s.step t) := by
  cases t with
  | call e =>
      refine Move.pass _ _ rfl ?_ rfl
      rintro c hc
      simp only [step, List.mem_append, List.mem_singleton, or_iff_left_iff_imp]
      rintro rfl
      cases hc
  | client i =>
      simp only [step]
      cases hcalled : s.clients[i]? with
      | none => exact Move.pass _ _ rfl (fun c _ => Iff.rfl) (by simp [togglesAt, hcalled])
      | some c =>
          obtain ⟨e, p⟩ := c
          have hreturns : p ≠ .halfway → s.tracker.clientStep e p = (.returned, s.tracker) →
              Move s (.client i) ⟨(s.tracker.clientStep e p).2,
                s.clients.set i ⟨e, (s.tracker.clientStep e p).1⟩⟩ := by
            intro hp hstep
            rw [hstep]
            refine Move.pass _ _ rfl ?_ ?_
            · intro x hx
              rw [mem_set_iff hcalled (by rintro rfl; exact hp hx), or_iff_left_iff_imp]
              rintro rfl
              cases hx
            · cases p <;> simp_all [togglesAt]
          cases p with
          | called =>
              by_cases hpath : e.path = []
              · exact hreturns nofun (s.tracker.clientStep_of_nil hpath)
              · exact Move.regard i e _ _ hcalled hpath (s.tracker.clientStep_called e hpath)
          | halfway =>
              obtain ⟨hreturned, htoggles⟩ := s.tracker.clientStep_halfway e h
              simp only [hreturned]
              exact Move.toggle i e _ hcalled htoggles
          | returned => exact hreturns nofun (s.tracker.clientStep_returned e)

theorem togglesAt_called {s : Shared} {i : Nat} {e : Errand}
    (called : s.clients[i]? = some ⟨e, .called⟩) : s.togglesAt (.client i) = [] := by
  simp [togglesAt, called]

theorem togglesAt_halfway {s : Shared} {i : Nat} {e : Errand}
    (called : s.clients[i]? = some ⟨e, .halfway⟩) :
    s.togglesAt (.client i) = [⟨e.dir, e.adds, s.tracker.holds e.dir⟩] := by
  simp [togglesAt, called]

theorem isBusy_iff {s : Shared} {dir : Bytes} :
    s.isBusy dir = true ↔ ∃ c ∈ s.clients, c.progress = .halfway ∧ c.errand.dir = dir := by
  simp [isBusy, Client.isAbout_iff]

/-! ## Directories and documents along a run -/

/-- A directory is as the last toggle of it has left it, and so are the documents
in it unless some client has still to change the directory. -/
structure Accounted (dir : Bytes) (gs : List Toggle) (s : Shared) : Prop where
  closed : s.tracker.directories.closed = false
  watched : s.tracker.watches dir = (lastToggle dir gs).adds
  tracked : s.tracker.holds dir = (lastToggle dir gs).tracked ∨ s.isBusy dir = true

theorem accounted_move {dir : Bytes} {gs : List Toggle} {s s' : Shared} {t : Turn}
    (hmove : Move s t s') (h : Accounted dir gs s) : Accounted dir (gs ++ s.togglesAt t) s' := by
  obtain ⟨hclosed, hwatched, htracked⟩ := h
  cases hmove with
  | pass _ _ tracker clients quiet =>
      rw [quiet, List.append_nil]
      refine ⟨by rw [tracker, hclosed], by rw [tracker, hwatched], ?_⟩
      rw [tracker]
      refine htracked.imp_right fun hbusy => ?_
      obtain ⟨c, hc, hhalfway, hdir⟩ := isBusy_iff.mp hbusy
      exact isBusy_iff.mpr ⟨c, (clients c hhalfway).mpr hc, hhalfway, hdir⟩
  | regard i e p u called path regards =>
      rw [togglesAt_called called, List.append_nil]
      have hstays : s.isBusy dir = true →
          (Shared.mk u (s.clients.set i ⟨e, p⟩)).isBusy dir = true := by
        intro hbusy
        obtain ⟨c, hc, hhalfway, hdir⟩ := isBusy_iff.mp hbusy
        have hne : c ≠ ⟨e, .called⟩ := by
          rintro rfl
          cases hhalfway
        exact isBusy_iff.mpr ⟨c, (mem_set_iff called hne).mpr (Or.inl hc), hhalfway, hdir⟩
      have hwatches : u.watches dir = s.tracker.watches dir := by
        rw [Tracker.watches, regards.directories, Tracker.watches]
      refine ⟨by rw [regards.directories, hclosed], hwatches.trans hwatched, ?_⟩
      by_cases hdir : e.dir = dir
      · rcases regards.own with ⟨rfl, -⟩ | ⟨-, hafter, hbefore⟩
        · have hne : (⟨e, .halfway⟩ : Client) ≠ ⟨e, .called⟩ := by simp
          have hmem := (mem_set_iff (c := ⟨e, .halfway⟩) called hne).mpr (Or.inr rfl)
          exact Or.inr (isBusy_iff.mpr ⟨_, hmem, rfl, hdir⟩)
        · rw [hdir] at hafter hbefore
          have hsame : u.holds dir = s.tracker.holds dir := hafter.trans hbefore.symm
          exact (htracked.imp_left hsame.trans).imp_right hstays
      · rw [regards.others dir hdir]
        exact htracked.imp_right hstays
  | toggle i e u called toggles =>
      rw [togglesAt_halfway called]
      have hholds : u.holds dir = s.tracker.holds dir := by
        rw [Tracker.holds, toggles.docs, Tracker.holds]
      by_cases hdir : e.dir = dir
      · subst hdir
        have hlast := lastToggle_append_self gs ⟨e.dir, e.adds, s.tracker.holds e.dir⟩
        refine ⟨toggles.closed.trans hclosed, ?_, Or.inl ?_⟩
        · rw [toggles.watches, if_pos rfl, hlast]
        · rw [hholds, hlast]
      · have hlast := lastToggle_append_of_ne gs (g := ⟨e.dir, e.adds, s.tracker.holds e.dir⟩) hdir
        refine ⟨toggles.closed.trans hclosed, ?_, ?_⟩
        · rw [toggles.watches, if_neg hdir, hwatched, hlast]
        · rw [hholds, hlast]
          refine htracked.imp_right fun hbusy => ?_
          obtain ⟨c, hc, hhalfway, hcdir⟩ := isBusy_iff.mp hbusy
          have hne : c ≠ ⟨e, .halfway⟩ := by
            rintro rfl
            exact hdir hcdir
          exact isBusy_iff.mpr ⟨c, (mem_set_iff called hne).mpr (Or.inl hc), hhalfway, hcdir⟩

theorem accounted_run (dir : Bytes) (ts : List Turn) :
    Accounted dir (observe togglesAt {} ts) (run {} ts) := by
  induction ts using List.reverseRecOn with
  | nil => exact ⟨rfl, rfl, Or.inl rfl⟩
  | append_singleton ts t ih =>
      rw [observe_append_singleton, run_append_singleton]
      exact accounted_move (move_step _ t ih.closed) ih

/-- No toggle of a directory was stale, and none that is still to come will be if
nothing else happens to the documents there. -/
structure Orderly (dir : Bytes) (gs : List Toggle) (s : Shared) : Prop where
  timely : ∀ g ∈ gs, g.dir = dir → g.isStale = false
  due : ∀ c ∈ s.clients, c.progress = .halfway → c.errand.dir = dir →
    c.errand.adds = s.tracker.holds dir

theorem orderly_move {dir : Bytes} {gs : List Toggle} {s s' : Shared} {t : Turn}
    (hmove : Move s t s') (alone : dir ∉ s.overlapsAt t) (h : Orderly dir gs s) :
    Orderly dir (gs ++ s.togglesAt t) s' := by
  obtain ⟨htimely, hdue⟩ := h
  cases hmove with
  | pass _ _ tracker clients quiet =>
      rw [quiet, List.append_nil]
      refine ⟨htimely, ?_⟩
      intro c hc hhalfway hdir
      rw [tracker]
      exact hdue c ((clients c hhalfway).mp hc) hhalfway hdir
  | regard i e p u called path regards =>
      rw [togglesAt_called called, List.append_nil]
      refine ⟨htimely, ?_⟩
      intro c hc hhalfway hdir
      by_cases hown : e.dir = dir
      · rcases List.mem_or_eq_of_mem_set hc with hother | rfl
        · -- Another client halfway in the same directory would be an overlap.
          have hbusy : s.isBusy dir = true := isBusy_iff.mpr ⟨c, hother, hhalfway, hdir⟩
          have hoverlap : dir ∈ s.overlapsAt (.client i) := by
            simp [overlapsAt, called, path, hbusy, hown]
          exact absurd hoverlap alone
        · rcases regards.own with ⟨-, hholds⟩ | ⟨hreturned, -⟩
          · rw [hown] at hholds
            exact hholds.symm
          · rw [hreturned] at hhalfway
            cases hhalfway
      · rcases List.mem_or_eq_of_mem_set hc with hother | rfl
        · rw [regards.others dir hown]
          exact hdue c hother hhalfway hdir
        · exact absurd hdir hown
  | toggle i e u called toggles =>
      rw [togglesAt_halfway called]
      have hmem : (⟨e, .halfway⟩ : Client) ∈ s.clients := List.mem_of_getElem? called
      refine ⟨?_, ?_⟩
      · intro g hg hdir
        rcases List.mem_append.mp hg with hold | hnew
        · exact htimely g hold hdir
        · rw [List.mem_singleton.mp hnew] at hdir ⊢
          have hadds : e.adds = s.tracker.holds e.dir := by
            rw [show e.dir = dir from hdir]
            exact hdue _ hmem rfl hdir
          simp [Toggle.isStale, hadds]
      · intro c hc hhalfway hdir
        have hholds : u.holds dir = s.tracker.holds dir := by
          rw [Tracker.holds, toggles.docs, Tracker.holds]
        rw [hholds]
        rcases List.mem_or_eq_of_mem_set hc with hother | rfl
        · exact hdue c hother hhalfway hdir
        · cases hhalfway

theorem orderly_run (dir : Bytes) (ts : List Turn) (alone : dir ∉ observe overlapsAt {} ts) :
    Orderly dir (observe togglesAt {} ts) (run {} ts) := by
  induction ts using List.reverseRecOn with
  | nil => exact ⟨by simp [observe], by simp [run]⟩
  | append_singleton ts t ih =>
      rw [observe_append_singleton, List.mem_append, not_or] at alone
      rw [observe_append_singleton, run_append_singleton]
      exact orderly_move (move_step _ t (accounted_run dir ts).closed) alone.2 (ih alone.1)

theorem Orderly.isStale_lastToggle {dir : Bytes} {gs : List Toggle} {s : Shared}
    (h : Orderly dir gs s) : (lastToggle dir gs).isStale = false := by
  unfold lastToggle
  cases hlast : (gs.filter (·.dir = dir)).getLast? with
  | none => rfl
  | some g =>
      have hg := List.mem_filter.mp (List.mem_of_getLast? hlast)
      exact h.timely g hg.1 (by simpa using hg.2)

/-- A directory is watched exactly if a document in it is tracked. -/
def Fits (s : Shared) (dir : Bytes) : Prop :=
  dir ∈ s.tracker.directories.dirs ↔ ∃ d ∈ s.tracker.docs, Path.dir d.1 = dir

theorem fits_iff {s : Shared} {dir : Bytes} :
    s.Fits dir ↔ s.tracker.watches dir = s.tracker.holds dir := by
  rw [Bool.eq_iff_iff]
  simp [Fits, Tracker.watches, Tracker.holds]

/-- When all clients have returned, a directory is watched exactly if a document in
it is tracked, provided that the last change of the directory was not stale, and
only then. So the watched directories are those of the tracked documents exactly if
no directory was changed last by a client that came too late. No change of a
directory is stale if clients never overlap there. -/
theorem fits_iff_not_stale (ts : List Turn)
    (done : ∀ c ∈ (run {} ts).clients, c.progress = .returned) :
    (∀ dir, (run {} ts).Fits dir ↔
      (lastToggle dir (observe togglesAt {} ts)).isStale = false) ∧
    ((∀ dir, (run {} ts).Fits dir) ↔
      ∀ dir, (lastToggle dir (observe togglesAt {} ts)).isStale = false) ∧
    (∀ dir, dir ∉ observe overlapsAt {} ts → (run {} ts).Fits dir) := by
  have heach : ∀ dir, (run {} ts).Fits dir ↔
      (lastToggle dir (observe togglesAt {} ts)).isStale = false := by
    intro dir
    obtain ⟨-, hwatched, htracked⟩ := accounted_run dir ts
    have hidle : ¬ (run {} ts).isBusy dir = true := by
      rw [isBusy_iff]
      rintro ⟨c, hc, hhalfway, -⟩
      rw [done c hc] at hhalfway
      cases hhalfway
    rw [fits_iff, hwatched, htracked.resolve_right hidle, Toggle.isStale, bne_eq_false_iff_eq]
  refine ⟨heach, forall_congr' heach, ?_⟩
  intro dir halone
  exact (heach dir).mpr (orderly_run dir ts halone).isStale_lastToggle

/-- Two documents in one directory come one after the other, and one of them
goes. -/
def orderlyRun : List Turn :=
  [.call (.watch "p/a.ml" 0), .client 0, .client 0, .call (.watch "p/b.ml" 1), .client 1,
    .client 1, .call (.unwatch "p/a.ml"), .client 2]

theorem fits_of_orderlyRun :
    (∀ c ∈ (run {} orderlyRun).clients, c.progress = .returned) ∧
      (run {} orderlyRun).tracker.docs = [(("p/b.ml" : Bytes), 1)] ∧
      (run {} orderlyRun).tracker.directories.dirs = [("p" : Bytes)] ∧
      ∀ dir, (run {} orderlyRun).Fits dir := by
  refine ⟨by decide, by decide, by decide, ?_⟩
  have hfits := fits_iff_not_stale orderlyRun (by decide)
  intro dir
  have halone : observe overlapsAt {} orderlyRun = [] := by decide
  exact hfits.2.2 dir (by simp [halone])

def staleRun : List Turn :=
  [.call (.watch "p/a.ml" 0), .client 0, .client 0, .call (.unwatch "p/a.ml"),
    .call (.watch "p/b.ml" 1), .client 1, .client 2, .client 2, .client 1]

def leavingRun : List Turn :=
  [.call (.watch "p/a.ml" 0), .client 0, .call (.unwatch "p/a.ml"), .client 1, .client 1,
    .client 0]

/-- If a document goes while another one comes, the directory of the one that has
come may not be watched in the end. If it goes while it is still coming, a
directory may stay watched in which nothing is tracked. -/
theorem not_fits_of_overlap :
    ((∀ c ∈ (run {} staleRun).clients, c.progress = .returned) ∧
      (run {} staleRun).tracker.docs = [(("p/b.ml" : Bytes), 1)] ∧
      (run {} staleRun).tracker.directories.dirs = [] ∧ ¬ (run {} staleRun).Fits "p") ∧
    ((∀ c ∈ (run {} leavingRun).clients, c.progress = .returned) ∧
      (run {} leavingRun).tracker.docs = [] ∧
      (run {} leavingRun).tracker.directories.dirs = [("p" : Bytes)] ∧
      ¬ (run {} leavingRun).Fits "p") := by
  refine ⟨⟨by decide, by decide, by decide, ?_⟩, by decide, by decide, by decide, ?_⟩
  · rw [fits_iff]
    decide
  · rw [fits_iff]
    decide

end Shared

end Watch

end MerlinBridge
