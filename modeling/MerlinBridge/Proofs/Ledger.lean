import Mathlib.Data.List.Count
import Mathlib.Data.List.Nodup
import MerlinBridge.Proofs.Outcome
import MerlinBridge.Proofs.Service

/-!
# Every request is kept or finished once

As long as the bridge is not told to stop, the requests that were appended are
those that have an outcome and those that are in the queue. A step finishes
exactly what it removes from the queue, and the slots of a request hold its one
outcome from then on. Once the bridge is told to stop that is no longer so: a
client that comes later has its request finished without an append.
-/

namespace MerlinBridge

namespace World

def removedAt (w : World) (a : Action) : List Request :=
  (w.bridge.queue.toList ++ appendedAt w a).diff (w.step a).bridge.queue.toList

/-- What was in the queue or came to it in this step is in it or was finished in
this step. -/
structure Settled (w : World) (a : Action) (w' : World) : Prop where
  closed : ∃ closed : List (Request × Option Fault),
    w'.bridge.outcomes = w.bridge.outcomes ++ closed ∧
      (closed.map Prod.fst ++ w'.bridge.queue.toList).Perm
        (w.bridge.queue.toList ++ appendedAt w a)
  booked : w.bridge.Booked → w'.bridge.Booked

theorem Settled.of_accounts {w w' : World} {a : Action} (h : w.bridge.Accounts w'.bridge)
    (appended : appendedAt w a = []) : Settled w a w' := by
  refine ⟨?_, h.booked⟩
  rw [appended, List.append_nil]
  exact h.closed

theorem settled_client {w : World} {i : Nat} {c : Call} (called : w.calls[i]? = some c)
    (alive : w.bridge.dying = false) :
    Settled w (.client i)
      { w with
        bridge := (w.bridge.clientStep c.request c.stage).2
        calls := w.calls.set i ⟨c.request, (w.bridge.clientStep c.request c.stage).1⟩ } := by
  have happended := appendedAt_client w i called
  obtain ⟨r, stage⟩ := c
  cases stage with
  | called =>
      refine Settled.of_accounts ?_ happended
      simp only [Bridge.clientStep, Bridge.refuses, alive]
      exact Bridge.Accounts.refl w.bridge
  | accepted =>
      have houtcomes : (w.bridge.clientStep r .accepted).2.outcomes = w.bridge.outcomes :=
        Bridge.outcomes_log w.bridge _
      refine ⟨⟨[], by simp [houtcomes], ?_⟩, fun hb => hb.congr houtcomes rfl⟩
      rw [happended]
      simp [Bridge.clientStep, Bridge.appendRequest, Bridge.log, Bridge.emit]
  | appended => exact Settled.of_accounts (Bridge.Accounts.of_eq rfl rfl rfl) happended
  | signalled =>
      refine Settled.of_accounts ?_ happended
      simp only [Bridge.clientStep, Bridge.sweepIfDead]
      split
      · exact Bridge.accounts_failQueued w.bridge .shuttingDown
      · exact Bridge.Accounts.refl w.bridge
  | returned => exact Settled.of_accounts (Bridge.Accounts.refl w.bridge) happended

theorem settled_move {appended : List Request} {w w' : World} {a : Action} (hmove : Move w a w')
    (sound : w.Sound) (served : Served appended w) (alive : w.bridge.dying = false) :
    Settled w a w' := by
  cases hmove with
  | ask query doc => exact Settled.of_accounts (Bridge.Accounts.of_eq rfl rfl rfl) rfl
  | client i c called => exact settled_client called alive
  | wake serving => exact Settled.of_accounts (Bridge.accounts_wake w.bridge) rfl
  | result e res cur serving running =>
      have hcomplete := Bridge.accounts_complete w.bridge e cur res
        (sound.coherent.head cur running) (sound.coherent.busy cur running)
        (served.empty_of_running sound running)
      exact Settled.of_accounts (hcomplete.trans (Bridge.accounts_startNext _)) rfl
  | close e doc serving =>
      exact Settled.of_accounts (Bridge.accounts_dispatchClose w.bridge e doc) rfl
  | abandon serving dying =>
      rw [alive] at dying
      cases dying
  | drain ending =>
      exact Settled.of_accounts (Bridge.accounts_failQueued w.bridge .shuttingDown) rfl
  | pass _ _ idle passive =>
      obtain ⟨⟨now, tracker, dying, dead, hbridge⟩, -, -, -⟩ := passive
      refine Settled.of_accounts ?_ (appendedAt_of_idle idle)
      rw [hbridge]
      exact Bridge.Accounts.of_eq rfl rfl rfl

theorem perm_removedAt {w : World} {a : Action} {closed : List Request}
    (h : (closed ++ (w.step a).bridge.queue.toList).Perm
      (w.bridge.queue.toList ++ appendedAt w a)) : closed.Perm (removedAt w a) := by
  rw [List.perm_iff_count] at h ⊢
  intro r
  have hr := h r
  rw [List.count_append] at hr
  rw [removedAt, List.count_diff, ← hr]
  omega

/-! ## Runs before the end -/

/-- What was appended was removed from the queue and finished, or is in it. -/
structure Balanced (appended removed : List Request) (w : World) : Prop where
  balance : appended.Perm (w.bridge.outcomes.map Prod.fst ++ w.bridge.queue.toList)
  removed : removed.Perm (w.bridge.outcomes.map Prod.fst)
  booked : w.bridge.Booked

theorem balanced_step {appended removed : List Request} {w : World} {a : Action}
    (h : Balanced appended removed w) (settled : Settled w a (w.step a)) :
    Balanced (appended ++ appendedAt w a) (removed ++ removedAt w a) (w.step a) := by
  obtain ⟨closed, houtcomes, hperm⟩ := settled.closed
  have hfinished : (w.step a).bridge.outcomes.map Prod.fst =
      w.bridge.outcomes.map Prod.fst ++ closed.map Prod.fst := by
    rw [houtcomes, List.map_append]
  constructor
  · have happended := h.balance.append_right (appendedAt w a)
    rw [List.append_assoc] at happended
    rw [hfinished, List.append_assoc]
    exact happended.trans (hperm.symm.append_left _)
  · rw [hfinished]
    exact h.removed.append (perm_removedAt hperm).symm
  · exact settled.booked h.booked

theorem settled_step (settings : Settings) (mayWatch : Bool) (as : List Action)
    (alive : ((start settings mayWatch).run as).bridge.dying = false) (a : Action) :
    Settled ((start settings mayWatch).run as) a (((start settings mayWatch).run as).step a) :=
  settled_move (move_step _ a) (sound_run settings mayWatch as)
    (served_run settings mayWatch as) alive

theorem balanced_run (settings : Settings) (mayWatch : Bool) (as : List Action)
    (alive : ((start settings mayWatch).run as).bridge.dying = false) :
    Balanced (observe appendedAt (start settings mayWatch) as)
      (observe removedAt (start settings mayWatch) as) ((start settings mayWatch).run as) := by
  induction as using List.reverseRecOn with
  | nil => exact ⟨List.Perm.refl [], List.Perm.refl [], fun _ => rfl⟩
  | append_singleton as a ih =>
      rw [run_append_singleton] at alive ⊢
      have hbefore := alive_of_step (sound_run settings mayWatch as) alive
      rw [observe_append_singleton, observe_append_singleton]
      exact balanced_step (ih hbefore) (settled_step settings mayWatch as hbefore a)

/-- If no request was finished twice, each outcome is the first one. -/
theorem carries_of_booked {b : Bridge} (booked : b.Booked)
    (nodup : ((b.outcomes.map Prod.fst).map Request.id).Nodup) {r : Request}
    {fault : Option Fault} (h : (r, fault) ∈ b.outcomes) :
    (b.delivery r.id).Carries r.query.completionStart? fault := by
  have hmatches := booked r.id
  cases hfirst : b.outcomeOf? r.id with
  | none =>
      have hnone := List.find?_eq_none.mp hfirst (r, fault) h
      simp at hnone
  | some x =>
      have hmem := List.mem_of_find?_eq_some hfirst
      have hid : x.1.id = r.id := by simpa using List.find?_some hfirst
      rw [List.map_map] at nodup
      have hsame : x = (r, fault) := List.inj_on_of_nodup_map nodup hmem h hid
      rw [hfirst, hsame] at hmatches
      exact hmatches

/-- Every request is kept or finished once, in every run in which the bridge has
not been told to stop. What was appended is what was finished together with what
is in the queue, and these have nothing in common. What was finished is what was
removed from the queue, over all and in each step. A request that was finished has
its one outcome in its slot, and a completion its one result, which starts where
the completion does; the slots of a request in the queue are empty.

To start the next request, in particular, takes exactly the longest prefix of
requests that must not be sent off the queue and finishes it. Those are the
requests without a document, and all others if the breaker rejects them. -/
theorem appended_perm_finished_queued (settings : Settings) (mayWatch : Bool) (as : List Action)
    (alive : ((start settings mayWatch).run as).bridge.dying = false) :
    let w := (start settings mayWatch).run as
    let finished := w.bridge.outcomes.map Prod.fst
    let queued := w.bridge.queue.toList
    (observe appendedAt (start settings mayWatch) as).Perm (finished ++ queued) ∧
    ((finished ++ queued).map Request.id).Nodup ∧
    (observe removedAt (start settings mayWatch) as).Perm finished ∧
    (∀ a, ∃ closed, (w.step a).bridge.outcomes = w.bridge.outcomes ++ closed ∧
      (closed.map Prod.fst).Perm (removedAt w a)) ∧
    (∀ r fault, (r, fault) ∈ w.bridge.outcomes →
      (w.bridge.delivery r.id).Carries r.query.completionStart? fault) ∧
    (∀ r ∈ queued, w.bridge.delivery r.id = {}) ∧
    (∀ b : Bridge, b.PicksFirst b.startNext) ∧
    (∀ (b : Bridge) (r : Request), b.verdict r =
      if r.doc = none then some .invalidRequest
      else if (b.breaker.allow b.now).2 then none else some .unavailable) := by
  have hbalanced := balanced_run settings mayWatch as alive
  have hnodup := (hbalanced.balance.map Request.id).nodup_iff.mp
    (numbered_run settings mayWatch as).nodup
  have hfinished := hnodup
  rw [List.map_append] at hfinished
  refine ⟨hbalanced.balance, hnodup, hbalanced.removed, ?_, ?_,
    (served_run settings mayWatch as).waiting, Bridge.startNext_picksFirst, Bridge.verdict_eq⟩
  · intro a
    obtain ⟨closed, houtcomes, hperm⟩ := (settled_step settings mayWatch as alive a).closed
    exact ⟨closed, houtcomes, perm_removedAt hperm⟩
  · intro r fault h
    exact carries_of_booked hbalanced.booked (List.nodup_append.mp hfinished).1 h

/-- A completion waits while the tool fails, and a third request comes after
that. -/
def rejectingRun : List Action :=
  check 0 ++ .ask (.completion "x" 0 1 0) (some page) :: uninterrupted 1 ++
    .result desk ⟨[], some .noOutput, 0⟩ :: .ask .errors (some page) :: uninterrupted 2

/-- One request has failed, the next one was rejected, and the last one waits. -/
theorem appended_perm_of_rejection :
    let w := (start brittle false).run rejectingRun
    w.bridge.dying = false ∧
      w.bridge.outcomes.map Prod.snd = [some (.transport .noOutput), some .unavailable] ∧
      w.bridge.queue.toList.length = 1 ∧
      (observe appendedAt (start brittle false) rejectingRun).Perm
        (w.bridge.outcomes.map Prod.fst ++ w.bridge.queue.toList) :=
  ⟨by decide, by decide, by decide,
    (appended_perm_finished_queued brittle false rejectingRun (by decide)).1⟩

end World

end MerlinBridge
