import Mathlib.Data.List.Induction
import MerlinBridge.Proofs.Outcome

/-!
# Whoever comes first delivers

A request is called in any order and any number of times: a result is delivered, the request is
finished, and what its slots hold is taken. A slot is seen as a channel on which each call may send
a value. `Channel.Passed` tells the state of the slot and all that has been taken from the calls
alone: there is what the first sender has sent, once, and no other value ever was.

Finishing a completion sends on both channels, and has a guard of its own for it. The guards agree
because the request can only have been finished if its result has been sent (`passed_result`). They
also keep every call from sending to a slot that is full or closed: the same calls, with that as a
failure, never fail (`foldlM_step?_eq`).
-/

namespace MerlinBridge

def Slot.toList {α : Type} : Slot α → List α
  | empty => []
  | full a => [a]
  | closed => []

namespace OneShot

variable {α : Type} {o : OneShot α}

theorem fire_of_fired (h : o.fired = true) (a : α) : o.fire a = (o, false) := by
  rw [fire, if_pos h]

/-- Delivers a value as `fire` does, where to put it into a slot that is full or closed is a
failure. -/
def fire? (o : OneShot α) (a : α) : Option (OneShot α × Bool) :=
  if o.fired then some (o, false) else (o.slot.put? a).map fun s => (⟨true, s⟩, true)

/-- A call that is not too late finds the slot empty. -/
def Ready (o : OneShot α) : Prop :=
  o.fired = false → o.slot = .empty

theorem Ready.fire?_eq (h : o.Ready) (a : α) : o.fire? a = some (o.fire a) := by
  cases hfired : o.fired with
  | true => rw [fire_of_fired hfired, fire?, if_pos hfired]
  | false =>
      simp only [fire?, fire, hfired, h hfired, Bool.false_eq_true, if_false]
      rfl

end OneShot

/-- How calls use a slot: what they send and whether they take. -/
structure Channel (κ α : Type) where
  sent? : κ → Option α
  takes : κ → Bool
  takes_of_sent : ∀ {c a}, sent? c = some a → takes c = false

namespace Channel

variable {κ α : Type} {ch : Channel κ α} {calls : List κ} {o : OneShot α} {taken : List α}

def step (ch : Channel κ α) (o : OneShot α) (taken : List α) (c : κ) : OneShot α × List α :=
  match ch.sent? c with
  | some a => ((o.fire a).1, taken)
  | none => if ch.takes c then (o.take, taken ++ o.slot.toList) else (o, taken)

theorem step_of_sent {c : κ} {a : α} (h : ch.sent? c = some a) :
    ch.step o taken c = ((o.fire a).1, taken) := by
  rw [step, h]

theorem step_of_takes {c : κ} (h : ch.takes c = true) :
    ch.step o taken c = (o.take, taken ++ o.slot.toList) := by
  cases hsent : ch.sent? c with
  | none => rw [step, hsent]; exact if_pos h
  | some a => rw [ch.takes_of_sent hsent] at h; cases h

theorem step_of_unused {c : κ} (sent : ch.sent? c = none) (takes : ch.takes c = false) :
    ch.step o taken c = (o, taken) := by
  rw [step, sent, takes]
  rfl

theorem step_empty_of_unsent {c : κ} (h : ch.sent? c = none) : ch.step {} [] c = ({}, []) := by
  cases htakes : ch.takes c with
  | true => rw [step_of_takes htakes]; rfl
  | false => rw [step_of_unused h htakes]

theorem step_full_of_untaken {c : κ} {a : α} (h : ch.takes c = false) :
    ch.step ⟨true, .full a⟩ taken c = (⟨true, .full a⟩, taken) := by
  cases hsent : ch.sent? c with
  | some b => rw [step_of_sent hsent]; rfl
  | none => rw [step_of_unused hsent h]

theorem step_closed (c : κ) : ch.step ⟨true, .closed⟩ taken c = (⟨true, .closed⟩, taken) := by
  cases hsent : ch.sent? c with
  | some b => rw [step_of_sent hsent]; rfl
  | none =>
      cases htakes : ch.takes c with
      | true => rw [step_of_takes htakes]; exact congrArg (Prod.mk _) (List.append_nil _)
      | false => rw [step_of_unused hsent htakes]

/-- What a slot has gone through: nobody has sent anything, or the value of the first that did is
there to be taken, or it has been taken and the slot is closed. -/
inductive Passed (ch : Channel κ α) : List κ → OneShot α → List α → Prop where
  | pending {calls : List κ} (unsent : ∀ c ∈ calls, ch.sent? c = none) : Passed ch calls {} []
  | held {before after : List κ} {c : κ} {a : α} (unsent : ∀ b ∈ before, ch.sent? b = none)
      (first : ch.sent? c = some a) (untaken : ∀ b ∈ after, ch.takes b = false) :
      Passed ch (before ++ c :: after) ⟨true, .full a⟩ []
  | closed {before after : List κ} {c : κ} {a : α} (unsent : ∀ b ∈ before, ch.sent? b = none)
      (first : ch.sent? c = some a) (taken : ∃ b ∈ after, ch.takes b = true) :
      Passed ch (before ++ c :: after) ⟨true, .closed⟩ [a]

namespace Passed

theorem nil : Passed ch [] {} [] :=
  .pending (by simp)

theorem fired_iff (h : Passed ch calls o taken) :
    o.fired = true ↔ ∃ c ∈ calls, ∃ a, ch.sent? c = some a := by
  cases h with
  | pending unsent =>
      constructor
      · intro h
        cases h
      · rintro ⟨c, hc, a, ha⟩
        rw [unsent c hc] at ha
        cases ha
  | held _ first _ => exact iff_of_true rfl ⟨_, by simp, _, first⟩
  | closed _ first _ => exact iff_of_true rfl ⟨_, by simp, _, first⟩

theorem ready (h : Passed ch calls o taken) : o.Ready := by
  intro hfired
  cases h with
  | pending _ => rfl
  | held _ _ _ => cases hfired
  | closed _ _ _ => cases hfired

theorem fire_snd_iff (h : Passed ch calls o taken) (a : α) :
    (o.fire a).2 = true ↔ ∀ c ∈ calls, ch.sent? c = none := by
  cases h with
  | pending unsent => exact iff_of_true rfl unsent
  | held _ first _ =>
      refine iff_of_false (by simp [OneShot.fire]) fun h => ?_
      rw [h _ (by simp)] at first
      cases first
  | closed _ first _ =>
      refine iff_of_false (by simp [OneShot.fire]) fun h => ?_
      rw [h _ (by simp)] at first
      cases first

theorem step (h : Passed ch calls o taken) (c : κ) :
    Passed ch (calls ++ [c]) (ch.step o taken c).1 (ch.step o taken c).2 := by
  cases h with
  | pending unsent =>
      cases hsent : ch.sent? c with
      | some a =>
          rw [step_of_sent hsent]
          exact .held unsent hsent (by simp)
      | none =>
          rw [step_empty_of_unsent hsent]
          exact .pending (List.forall_mem_append.mpr ⟨unsent, List.forall_mem_singleton.mpr hsent⟩)
  | held unsent first untaken =>
      rw [List.append_assoc, List.cons_append]
      cases htakes : ch.takes c with
      | true =>
          rw [step_of_takes htakes]
          exact .closed unsent first ⟨c, by simp, htakes⟩
      | false =>
          rw [step_full_of_untaken htakes]
          exact .held unsent first
            (List.forall_mem_append.mpr ⟨untaken, List.forall_mem_singleton.mpr htakes⟩)
  | closed unsent first taken =>
      obtain ⟨b, hb, htakes⟩ := taken
      rw [step_closed, List.append_assoc, List.cons_append]
      exact .closed unsent first ⟨b, List.mem_append_left _ hb, htakes⟩

end Passed

end Channel

namespace Delivery

theorem done_finish {ε : Type} (d : Delivery ε) (completionStart : Option Int64)
    (error : Option ε) : (d.finish completionStart error).done = (d.done.fire error).1 := by
  cases hfired : d.done.fired with
  | true => rw [finish_of_fired hfired, OneShot.fire_of_fired hfired]
  | false =>
      simp only [finish, hfired, Bool.false_eq_true, if_false]
      cases completionStart <;> rfl

/-- The guard of the end of a request is no stricter than that of the result, if a request that has
ended has its result. -/
theorem result_finish {ε : Type} {d : Delivery ε}
    (h : d.done.fired = true → d.result.fired = true) (start : Int64) (error : Option ε) :
    (d.finish (some start) error).result = (d.result.fire ⟨start, [], error⟩).1 := by
  cases hfired : d.done.fired with
  | true => rw [finish_of_fired hfired, OneShot.fire_of_fired (h hfired)]
  | false =>
      simp only [finish, hfired, Bool.false_eq_true, if_false]
      rfl

theorem result_finish_none {ε : Type} (d : Delivery ε) (error : Option ε) :
    (d.finish none error).result = d.result := by
  cases hfired : d.done.fired with
  | true => rw [finish_of_fired hfired]
  | false => simp only [finish, hfired, Bool.false_eq_true, if_false]

def deliver? {ε : Type} (d : Delivery ε) (startOffset : Int64) (items : List CompletionItem)
    (error : Option ε) : Option (Delivery ε × Bool) := do
  let r ← d.result.fire? ⟨startOffset, items, error⟩
  pure ({ d with result := r.1 }, r.2)

def finish? {ε : Type} (d : Delivery ε) (completionStart : Option Int64) (error : Option ε) :
    Option (Delivery ε) :=
  if d.done.fired then some d
  else do
    let d ←
      match completionStart with
      | some start => (d.deliver? start [] error).map Prod.fst
      | none => some d
    let r ← d.done.fire? error
    pure { d with done := r.1 }

theorem deliver?_eq {ε : Type} {d : Delivery ε} (h : d.result.Ready) (startOffset : Int64)
    (items : List CompletionItem) (error : Option ε) :
    d.deliver? startOffset items error = some (d.deliver startOffset items error) := by
  rw [deliver?, h.fire?_eq]
  rfl

theorem finish?_eq {ε : Type} {d : Delivery ε} (done : d.done.Ready) (result : d.result.Ready)
    (completionStart : Option Int64) (error : Option ε) :
    d.finish? completionStart error = some (d.finish completionStart error) := by
  cases hfired : d.done.fired with
  | true => rw [finish_of_fired hfired, finish?, if_pos hfired]
  | false =>
      cases completionStart with
      | none =>
          simp only [finish?, finish, hfired, Bool.false_eq_true, if_false]
          simp only [bind, Option.bind, done.fire?_eq]
          rfl
      | some start =>
          have hdone : (d.deliver start [] error).1.done.Ready := done
          simp only [finish?, finish, hfired, Bool.false_eq_true, if_false]
          simp only [bind, deliver?_eq result, Option.map_some, Option.bind, hdone.fire?_eq]
          rfl

inductive Call (ε : Type) where
  | deliver (items : List CompletionItem) (error : Option ε)
  | finish (error : Option ε)
  | takeDone
  | takeResult

namespace Call

variable {ε : Type}

def done : Channel (Call ε) (Option ε) where
  sent?
    | finish error => some error
    | _ => none
  takes
    | takeDone => true
    | _ => false
  takes_of_sent {c a} h := by
    cases c with
    | finish _ => rfl
    | _ => cases h

/-- A result is sent by its delivery, and one without items by the end of the request. -/
def result (startOffset : Int64) : Channel (Call ε) (CompletionResult ε) where
  sent?
    | deliver items error => some ⟨startOffset, items, error⟩
    | finish error => some ⟨startOffset, [], error⟩
    | _ => none
  takes
    | takeResult => true
    | _ => false
  takes_of_sent {c a} h := by
    cases c with
    | takeResult => cases h
    | _ => rfl

end Call

structure Session (ε : Type) where
  slots : Delivery ε := {}
  outcomes : List (Option ε) := []
  results : List (CompletionResult ε) := []

namespace Session

variable {ε : Type}

/-- One call. Only a completion, given by its start, has a result to deliver. -/
def step (completionStart : Option Int64) (s : Session ε) : Call ε → Session ε
  | .deliver items error =>
    match completionStart with
    | some start => { s with slots := (s.slots.deliver start items error).1 }
    | none => s
  | .finish error => { s with slots := s.slots.finish completionStart error }
  | .takeDone =>
    { s with
      slots := { s.slots with done := s.slots.done.take }
      outcomes := s.outcomes ++ s.slots.done.slot.toList }
  | .takeResult =>
    { s with
      slots := { s.slots with result := s.slots.result.take }
      results := s.results ++ s.slots.result.slot.toList }

def step? (completionStart : Option Int64) (s : Session ε) : Call ε → Option (Session ε)
  | .deliver items error =>
    match completionStart with
    | some start => (s.slots.deliver? start items error).map fun r => { s with slots := r.1 }
    | none => some s
  | .finish error =>
    (s.slots.finish? completionStart error).map fun d => { s with slots := d }
  | c => some (s.step completionStart c)

def run (completionStart : Option Int64) (calls : List (Call ε)) : Session ε :=
  calls.foldl (step completionStart) {}

theorem run_append_singleton (completionStart : Option Int64) (calls : List (Call ε))
    (c : Call ε) :
    run completionStart (calls ++ [c]) = (run completionStart calls).step completionStart c := by
  rw [run, run, List.foldl_append]
  rfl

theorem done_step (completionStart : Option Int64) (s : Session ε) (c : Call ε) :
    ((s.step completionStart c).slots.done, (s.step completionStart c).outcomes) =
      Call.done.step s.slots.done s.outcomes c := by
  cases c with
  | deliver items error => cases completionStart <;> rfl
  | finish error => exact Prod.ext (done_finish s.slots completionStart error) rfl
  | takeDone => rfl
  | takeResult => rfl

theorem result_step {s : Session ε} (h : s.slots.done.fired = true → s.slots.result.fired = true)
    (start : Int64) (c : Call ε) :
    ((s.step (some start) c).slots.result, (s.step (some start) c).results) =
      (Call.result start).step s.slots.result s.results c := by
  cases c with
  | deliver items error => rfl
  | finish error => exact Prod.ext (result_finish h start error) rfl
  | takeDone => rfl
  | takeResult => rfl

theorem passed_done (completionStart : Option Int64) (calls : List (Call ε)) :
    Call.done.Passed calls (run completionStart calls).slots.done
      (run completionStart calls).outcomes := by
  induction calls using List.reverseRecOn with
  | nil => exact .nil
  | append_singleton calls c ih =>
      have hnext := ih.step c
      rw [← done_step completionStart] at hnext
      rw [run_append_singleton]
      exact hnext

theorem passed_result (start : Int64) (calls : List (Call ε)) :
    (Call.result start).Passed calls (run (some start) calls).slots.result
      (run (some start) calls).results := by
  induction calls using List.reverseRecOn with
  | nil => exact .nil
  | append_singleton calls c ih =>
      have hguards : (run (some start) calls).slots.done.fired = true →
          (run (some start) calls).slots.result.fired = true := by
        intro hfired
        obtain ⟨b, hb, e, hsent⟩ := (passed_done (some start) calls).fired_iff.mp hfired
        refine ih.fired_iff.mpr ⟨b, hb, ⟨start, [], e⟩, ?_⟩
        cases b with
        | finish _ => cases hsent; rfl
        | _ => cases hsent
      have hnext := ih.step c
      rw [← result_step hguards] at hnext
      rw [run_append_singleton]
      exact hnext

theorem result_run_none (calls : List (Call ε)) :
    (run none calls).slots.result = {} ∧ (run none calls).results = [] := by
  induction calls using List.reverseRecOn with
  | nil => exact ⟨rfl, rfl⟩
  | append_singleton calls c ih =>
      rw [run_append_singleton]
      cases c with
      | finish error => exact ⟨(result_finish_none _ error).trans ih.1, ih.2⟩
      | takeResult =>
          simp only [step, ih.1, ih.2]
          exact ⟨rfl, rfl⟩
      | _ => exact ih

theorem ready_result (completionStart : Option Int64) (calls : List (Call ε)) :
    (run completionStart calls).slots.result.Ready := by
  cases completionStart with
  | some start => exact (passed_result start calls).ready
  | none =>
      intro _
      rw [(result_run_none calls).1]

theorem step?_eq {s : Session ε} (done : s.slots.done.Ready) (result : s.slots.result.Ready)
    (completionStart : Option Int64) (c : Call ε) :
    s.step? completionStart c = some (s.step completionStart c) := by
  cases c with
  | deliver items error =>
      cases completionStart with
      | some start => rw [step?, deliver?_eq result]; rfl
      | none => rfl
  | finish error => rw [step?, finish?_eq done result]; rfl
  | takeDone => rfl
  | takeResult => rfl

theorem foldlM_step?_eq (completionStart : Option Int64) (calls : List (Call ε)) :
    calls.foldlM (step? completionStart) {} = some (run completionStart calls) := by
  induction calls using List.reverseRecOn with
  | nil => rfl
  | append_singleton calls c ih =>
      have hdone := (passed_done completionStart calls).ready
      have hstep := step?_eq hdone (ready_result completionStart calls) completionStart c
      rw [List.foldlM_append, ih, run_append_singleton, ← hstep]
      simp only [Option.bind_eq_bind, Option.bind_some, List.foldlM_cons, List.foldlM_nil]
      exact Option.bind_fun_some _

end Session

/-- However a request is called, its outcome is the error of the first call that finishes it, and
the result of a completion is that of the first call that delivers it or finishes the request. Each
is there to be taken once, and then the slot is closed. A delivery is told that it was in time if
no such call came before it, and none of the calls puts anything into a slot that is full or
closed. -/
theorem first_call_delivers {ε : Type} (r : Request) (calls : List (Call ε)) :
    Call.done.Passed calls (Session.run r.query.completionStart? calls).slots.done
        (Session.run r.query.completionStart? calls).outcomes ∧
      (∀ start, r.query.completionStart? = some start →
        (Call.result start).Passed calls (Session.run (some start) calls).slots.result
            (Session.run (some start) calls).results ∧
          ∀ items error,
            ((Session.run (some start) calls).slots.deliver start items error).2 = true ↔
              ∀ c ∈ calls, c = .takeDone ∨ c = .takeResult) ∧
      (r.query.completionStart? = none →
        (Session.run none calls).slots.result = {} ∧ (Session.run none calls).results = []) ∧
      calls.foldlM (Session.step? r.query.completionStart?) {} =
        some (Session.run r.query.completionStart? calls) := by
  refine ⟨Session.passed_done _ calls, ?_, fun _ => Session.result_run_none calls,
    Session.foldlM_step?_eq _ calls⟩
  intro start _
  refine ⟨Session.passed_result start calls, fun items error => ?_⟩
  refine ((Session.passed_result start calls).fire_snd_iff _).trans (forall₂_congr fun c _ => ?_)
  cases c <;> simp [Call.result]

def lateDelivery : List (Call Nat) :=
  [.finish (some 7), .takeResult, .deliver [⟨"List", []⟩] none, .finish none, .takeDone, .takeDone]

theorem first_call_of_lateDelivery :
    (Request.build 0 (.completion "Li" 2 0 4) none).query.completionStart? = some 2 ∧
      (Call.result 2).Passed lateDelivery ⟨true, .closed⟩ [⟨2, [], some 7⟩] ∧
      Call.done.Passed lateDelivery ⟨true, .closed⟩ [some 7] ∧
      (Request.build 0 .errors none).query.completionStart? = none ∧
      (Session.run none lateDelivery).results = [] := by
  obtain ⟨hdone, hresult, -⟩ :=
    first_call_delivers (Request.build 0 (.completion "Li" 2 0 4) none) lateDelivery
  obtain ⟨-, -, hnone, -⟩ := first_call_delivers (Request.build 0 .errors none) lateDelivery
  exact ⟨rfl, (hresult 2 rfl).1, hdone, rfl, (hnone rfl).2⟩

end Delivery

end MerlinBridge
