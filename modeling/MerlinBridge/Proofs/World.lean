import Mathlib.Data.List.Induction
import MerlinBridge.Bridge.Client

/-!
# Runs of the bridge

The bridge, its clients and the tasks that end with it act in turns. An `Action`
is one atomic step of one of them, and a run is a list of actions: any list is
a run, since a step that is not possible changes nothing. What a client does
is fixed by its `Stage`, so `Action.client i` is the next step of the client
with the number `i`, and clients interleave with each other and with the
dispatcher in every way.

Nothing is recorded in the world for the sake of a proof. What happened along a
run is read off by `observe`, which collects what a function sees at each step.

A turn of the dispatcher is one action. Of what it reads in a turn the clients
change only the tail of the queue, so a client that comes in the middle of a turn
does what it would do before the turn or after it. When the bridge ends, the
dispatcher takes one action for each thing it does. What the watch keeps about
documents is left out: no action here reads it.

Of the end of the bridge only this is assumed: clients see that it is ending
from `Action.kill` on, and that it is dead at some time after the dispatcher and
every task of the watch have returned.
-/

namespace MerlinBridge

inductive Stage where
  | called
  | accepted
  | appended
  | signalled
  | returned
deriving DecidableEq

structure Call where
  request : Request
  stage : Stage := .called
deriving DecidableEq

namespace Bridge

/-- The next step of a client: the stage it comes to, and the bridge
afterwards. -/
def clientStep (b : Bridge) (r : Request) : Stage → Stage × Bridge
  | .called =>
      if b.refuses then (.returned, b.finishRequest r (some .shuttingDown)) else (.accepted, b)
  | .accepted => (.appended, (b.log ("enqueue " ++ r.text)).appendRequest r)
  | .appended => (.signalled, b.raiseSignal)
  | .signalled => (.returned, b.sweepIfDead)
  | .returned => (.returned, b)

end Bridge

inductive Phase where
  | serving
  /-- It has seen that the bridge is ending, and has abandoned the run under
  way. -/
  | ending
  | drained
  | returned
deriving DecidableEq

def Phase.isDrained : Phase → Bool
  | serving => false
  | ending => false
  | drained => true
  | returned => true

structure World where
  bridge : Bridge
  calls : List Call := []
  phase : Phase := .serving
  watchers : Nat := 0

inductive Action where
  | ask (query : Request.Query) (doc : Option Document)
  | client (i : Nat)
  | wake
  /-- The run of the tool that is under way ends, with any result. -/
  | result (e : Editor) (res : RunResult)
  | close (e : Editor) (doc : Document)
  | elapse (ns : Int)
  | kill
  /-- The dispatcher sees that the bridge is ending, and abandons the run under
  way. -/
  | abandon
  | drain
  | leave
  | watcherReturns
  | die

namespace World

/-- A bridge that has just been made. With a watch it has two more tasks. -/
def start (settings : Settings) (mayWatch : Bool) : World where
  bridge := Bridge.new settings mayWatch
  watchers := if (Bridge.new settings mayWatch).tracker.isSome then 2 else 0

def step (w : World) : Action → World
  | .ask query doc =>
      let r := (w.bridge.newRequest query doc).1
      { w with bridge := (w.bridge.newRequest query doc).2, calls := w.calls ++ [{ request := r }] }
  | .client i =>
      match w.calls[i]? with
      | none => w
      | some c =>
          let s := w.bridge.clientStep c.request c.stage
          { w with bridge := s.2, calls := w.calls.set i ⟨c.request, s.1⟩ }
  | .wake => if w.phase = .serving then { w with bridge := w.bridge.wake } else w
  | .result e res =>
      if w.phase = .serving then { w with bridge := w.bridge.result e res } else w
  | .close e doc =>
      if w.phase = .serving then { w with bridge := w.bridge.dispatchClose e doc } else w
  | .elapse ns => { w with bridge := w.bridge.elapse ns }
  | .kill => { w with bridge := w.bridge.kill }
  | .abandon =>
      if w.phase = .serving ∧ w.bridge.dying = true then
        { w with bridge := w.bridge.abandonRun, phase := .ending }
      else w
  | .drain =>
      if w.phase = .ending then
        { w with bridge := w.bridge.failQueued .shuttingDown, phase := .drained }
      else w
  | .leave => if w.phase = .drained then { w with phase := .returned } else w
  | .watcherReturns => if w.bridge.dying then { w with watchers := w.watchers - 1 } else w
  | .die =>
      if w.phase = .returned ∧ w.watchers = 0 ∧ w.bridge.dead = false then
        { w with bridge := w.bridge.stopped }
      else w

def run (w : World) (as : List Action) : World :=
  as.foldl step w

@[simp] theorem run_nil (w : World) : w.run [] = w := rfl

theorem run_cons (w : World) (a : Action) (as : List Action) :
    w.run (a :: as) = (w.step a).run as := rfl

theorem run_append (w : World) (as bs : List Action) : w.run (as ++ bs) = (w.run as).run bs := by
  unfold run
  exact List.foldl_append

theorem run_append_singleton (w : World) (as : List Action) (a : Action) :
    w.run (as ++ [a]) = (w.run as).step a := by
  rw [run_append]
  rfl

def observe {α : Type} (f : World → Action → List α) : World → List Action → List α
  | _, [] => []
  | w, a :: as => f w a ++ observe f (w.step a) as

/-- A run that goes on for one step sees what it has seen, and that step. -/
theorem observe_append_singleton {α : Type} (f : World → Action → List α) (w : World)
    (as : List Action) (a : Action) :
    observe f w (as ++ [a]) = observe f w as ++ f (w.run as) a := by
  induction as generalizing w with
  | nil => simp [observe]
  | cons b as ih =>
      rw [List.cons_append, observe, ih (w.step b), observe, run_cons, List.append_assoc]

theorem observe_map {α β : Type} (f : World → Action → List α) (g : α → β) (w : World)
    (as : List Action) :
    (observe f w as).map g = observe (fun w a => (f w a).map g) w as := by
  induction as generalizing w with
  | nil => rfl
  | cons a as ih => rw [observe, List.map_append, ih (w.step a), observe]

theorem observe_sublist {α : Type} {f g : World → Action → List α}
    (h : ∀ w a, (f w a).Sublist (g w a)) (w : World) (as : List Action) :
    (observe f w as).Sublist (observe g w as) := by
  induction as generalizing w with
  | nil => exact List.Sublist.refl []
  | cons a as ih => exact (h w a).append (ih (w.step a))

/-! ## What a step can do -/

/-- No more has changed than the clock, the watch and the flags of the end, and a
dispatcher that was done may have returned. -/
structure Passive (w w' : World) : Prop where
  bridge : ∃ now tracker dying dead,
    w'.bridge = { w.bridge with now := now, tracker := tracker, dying := dying, dead := dead }
  calls : w'.calls = w.calls
  phase : w'.phase = w.phase ∨ (w.phase = .drained ∧ w'.phase = .returned)
  dead : w'.bridge.dead = w.bridge.dead ∨ (w'.bridge.dead = true ∧ w'.phase = .returned)

theorem Passive.refl (w : World) : Passive w w :=
  ⟨⟨w.bridge.now, w.bridge.tracker, w.bridge.dying, w.bridge.dead, rfl⟩, rfl, Or.inl rfl,
    Or.inl rfl⟩

/-- The actions that leave the queue, the run under way and the clients alone,
because they are not about them or because they are not possible. -/
def Idle (w : World) : Action → Prop
  | .ask _ _ => False
  | .client i => w.calls[i]? = none
  | .wake => w.phase ≠ .serving
  | .result _ _ => w.phase ≠ .serving ∨ w.bridge.running = none
  | .close _ _ => w.phase ≠ .serving
  | .abandon => ¬ (w.phase = .serving ∧ w.bridge.dying = true)
  | .drain => w.phase ≠ .ending
  | _ => True

/-- The steps by what they do. The end of a run, in particular, is only seen by a
dispatcher that serves the bridge while something runs. -/
inductive Move (w : World) : Action → World → Prop where
  | ask (query : Request.Query) (doc : Option Document) :
      Move w (.ask query doc)
        { w with
          bridge := (w.bridge.newRequest query doc).2
          calls := w.calls ++ [{ request := (w.bridge.newRequest query doc).1 }] }
  | client (i : Nat) (c : Call) (called : w.calls[i]? = some c) :
      Move w (.client i)
        { w with
          bridge := (w.bridge.clientStep c.request c.stage).2
          calls := w.calls.set i ⟨c.request, (w.bridge.clientStep c.request c.stage).1⟩ }
  | wake (serving : w.phase = .serving) : Move w .wake { w with bridge := w.bridge.wake }
  | result (e : Editor) (res : RunResult) (cur : Running) (serving : w.phase = .serving)
      (running : w.bridge.running = some cur) :
      Move w (.result e res) { w with bridge := (w.bridge.complete e cur res).startNext }
  | close (e : Editor) (doc : Document) (serving : w.phase = .serving) :
      Move w (.close e doc) { w with bridge := w.bridge.dispatchClose e doc }
  | abandon (serving : w.phase = .serving) (dying : w.bridge.dying = true) :
      Move w .abandon { w with bridge := w.bridge.abandonRun, phase := .ending }
  | drain (ending : w.phase = .ending) :
      Move w .drain { w with bridge := w.bridge.failQueued .shuttingDown, phase := .drained }
  | pass (a : Action) (w' : World) (idle : w.Idle a) (passive : Passive w w') : Move w a w'

theorem Move.stay {w : World} {a : Action} (idle : w.Idle a) : Move w a w :=
  Move.pass a w idle (Passive.refl w)

theorem move_step (w : World) (a : Action) : Move w a (w.step a) := by
  cases a with
  | ask query doc => exact Move.ask query doc
  | client i =>
      simp only [step]
      split
      · rename_i hnone
        exact Move.stay hnone
      · rename_i c hc
        exact Move.client i c hc
  | wake =>
      simp only [step]
      split
      · rename_i hserving
        exact Move.wake hserving
      · rename_i hserving
        exact Move.stay hserving
  | result e res =>
      simp only [step]
      split
      · rename_i hserving
        unfold Bridge.result
        split
        · rename_i hidle
          exact Move.stay (Or.inr hidle)
        · rename_i cur hcur
          exact Move.result e res cur hserving hcur
      · rename_i hserving
        exact Move.stay (Or.inl hserving)
  | close e doc =>
      simp only [step]
      split
      · rename_i hserving
        exact Move.close e doc hserving
      · rename_i hserving
        exact Move.stay hserving
  | elapse ns =>
      exact Move.pass _ _ trivial ⟨⟨w.bridge.now + ns, _, _, _, rfl⟩, rfl, Or.inl rfl, Or.inl rfl⟩
  | kill => exact Move.pass _ _ trivial ⟨⟨_, _, true, _, rfl⟩, rfl, Or.inl rfl, Or.inl rfl⟩
  | abandon =>
      simp only [step]
      split
      · rename_i hends
        exact Move.abandon hends.1 hends.2
      · rename_i hends
        exact Move.stay hends
  | drain =>
      simp only [step]
      split
      · rename_i hends
        exact Move.drain hends
      · rename_i hends
        exact Move.stay hends
  | leave =>
      simp only [step]
      split
      · rename_i hends
        exact Move.pass _ _ trivial ⟨⟨_, _, _, _, rfl⟩, rfl, Or.inr ⟨hends, rfl⟩, Or.inl rfl⟩
      · exact Move.stay trivial
  | watcherReturns =>
      simp only [step]
      split
      · exact Move.pass _ _ trivial ⟨⟨_, _, _, _, rfl⟩, rfl, Or.inl rfl, Or.inl rfl⟩
      · exact Move.stay trivial
  | die =>
      simp only [step]
      split
      · rename_i hends
        exact Move.pass _ _ trivial ⟨⟨_, _, _, true, rfl⟩, rfl, Or.inl rfl, Or.inr ⟨rfl, hends.1⟩⟩
      · exact Move.stay trivial

/-- What holds at the start of a run and is kept by every move holds at its
end. The statement may speak of the run itself. -/
theorem run_induction (w : World) {P : List Action → World → Prop} (nil : P [] w)
    (snoc : ∀ as a w', Move (w.run as) a w' → P as (w.run as) → P (as ++ [a]) w')
    (as : List Action) : P as (w.run as) := by
  induction as using List.reverseRecOn with
  | nil => exact nil
  | append_singleton as a ih =>
      rw [run_append_singleton]
      exact snoc as a _ (move_step _ a) ih

/-- The calls once the client with the number `i` has come to another stage. -/
theorem getElem?_set_iff {calls : List Call} {i j : Nat} {c c' d : Call}
    (called : calls[i]? = some c) :
    (calls.set i c')[j]? = some d ↔ (i = j ∧ c' = d) ∨ (i ≠ j ∧ calls[j]? = some d) := by
  have hlt := (List.getElem?_eq_some_iff.mp called).1
  by_cases hij : i = j
  · subst hij
    simp [hlt]
  · simp [hij]

/-! ## What is seen of a run -/

def appendedAt (w : World) : Action → List Request
  | .client i =>
      match w.calls[i]? with
      | some ⟨r, .accepted⟩ => [r]
      | _ => []
  | _ => []

theorem appendedAt_of_idle {w : World} {a : Action} (h : w.Idle a) : appendedAt w a = [] := by
  cases a with
  | client i =>
      have hnone : w.calls[i]? = none := h
      simp only [appendedAt, hnone]
  | _ => rfl

theorem appendedAt_client (w : World) (i : Nat) {c : Call} (h : w.calls[i]? = some c) :
    appendedAt w (.client i) = if c.stage = .accepted then [c.request] else [] := by
  obtain ⟨r, s⟩ := c
  cases s <;> simp [appendedAt, h]

structure Ended where
  run : Running
  breaker : Breaker
  result : Option RunResult

def Ended.request (x : Ended) : Request :=
  x.run.request

def endedAt (w : World) : Action → List Ended
  | .result _ res =>
      if w.phase = .serving then w.bridge.running.toList.map (⟨·, w.bridge.breaker, some res⟩)
      else []
  | .abandon =>
      if w.phase = .serving ∧ w.bridge.dying = true then
        w.bridge.running.toList.map (⟨·, w.bridge.breaker, none⟩)
      else []
  | _ => []

theorem endedAt_of_idle {w : World} {a : Action} (h : w.Idle a) : endedAt w a = [] := by
  cases a with
  | result e res =>
      rcases h with h | h <;> simp [endedAt, h]
  | abandon => exact if_neg h
  | _ => rfl

def uninterrupted (i : Nat) : List Action :=
  [.client i, .client i, .client i, .client i]

theorem bridge_run_ask (w : World) (query : Request.Query) (doc : Option Document) :
    (w.run (.ask query doc :: uninterrupted w.calls.length)).bridge =
      (w.bridge.ask query doc).2 := by
  simp only [uninterrupted, run_cons, run_nil, step, Bridge.ask]
  by_cases hdying : w.bridge.dying = true
  · simp [Bridge.clientStep, Bridge.enqueue, Bridge.refuses, Bridge.newRequest, hdying]
  · simp [Bridge.clientStep, Bridge.enqueue, Bridge.refuses, Bridge.newRequest, hdying]

/-- What the dispatcher does when it is left alone: a run that was told to end
does so, and the signal is taken. -/
def settling (b : Bridge) (e : Editor) : List Action :=
  match b.running with
  | some cur =>
      if cur.cancelled then [.result e ⟨[], some (.timeout .cancelled), 0⟩, .wake] else [.wake]
  | none => [.wake]

theorem bridge_run_settling (w : World) (e : Editor) (serving : w.phase = .serving)
    (alive : w.bridge.dead = false) :
    (w.run (settling w.bridge e)).bridge = w.bridge.settle e := by
  unfold settling Bridge.settle Bridge.endCancelled
  rw [alive, if_neg (by decide)]
  cases hrunning : w.bridge.running with
  | none => simp [run_cons, step, serving]
  | some cur =>
      by_cases hcancelled : cur.cancelled = true
      · simp [run_cons, step, serving, hcancelled]
      · simp [run_cons, step, serving, hcancelled]

/-! ## A small world

Closed statements about single runs are about a bridge that gives up on its tool
after one failure, for a second, and about one document of its own. -/

/-- One failure opens the breaker for a second. -/
def brittle : Settings where
  merlinPath := "ocamlmerlin"
  merlinFlags := []
  merlinLog := []
  requestTimeout := 0
  retireTimeout := 0
  startAttempts := 1
  breakerThreshold := 1
  breakerCooldown := 1000000000
  watchProjectFiles := false

def page : Document where
  id := 0
  path := "a.ml"
  revision := 1
  text := []

def desk : Editor where
  documents := [page]

/-- The client with the number `i` asks for the errors of the file, and the
dispatcher takes the signal. -/
def check (i : Nat) : List Action :=
  .ask .errors (some page) :: uninterrupted i ++ [.wake]

end World

end MerlinBridge
