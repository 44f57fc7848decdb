import MerlinBridge.Proofs.Delivery
import MerlinBridge.Proofs.Failure
import MerlinBridge.Proofs.Trial

/-!
# Outcomes and the slots that hold them

A request is finished in the same action in which it leaves the queue, and the
outcome is put into its slots. `Bridge.outcomes` lists what was finished, with
the outcomes. Only the first outcome of a request counts, so a bridge is `Booked`
if the slots of each request hold its first outcome, and are empty where there is
none. That no request gets a second one is a matter of whole runs and not part of
it.

`Accounts b b'` says that the requests that were finished between `b` and `b'` are
those that left the queue. It holds for every function of the dispatcher. For
`startNext` there is more to say: what it takes off the queue is the longest
prefix of requests that must not be sent.
-/

namespace MerlinBridge

def Event.outcome? : Event → Option (Request × Option Fault)
  | .finished r fault => some (r, fault)
  | _ => none

theorem Event.IsNote.outcome?_eq_none {e : Event} (h : e.IsNote) : e.outcome? = none := by
  cases e with
  | finished r fault => exact h.elim
  | _ => rfl

namespace Delivery

variable {ε : Type}

/-- The outcome is in its slot, and a completion has one result, which starts
where the completion does and has no candidates if the request has failed. -/
structure Carries (d : Delivery ε) (completionStart : Option Int64) (error : Option ε) : Prop where
  done : d.done = ⟨true, .full error⟩
  result : ∀ start, completionStart = some start →
    ∃ items, d.result = ⟨true, .full ⟨start, items, error⟩⟩ ∧ (error.isSome = true → items = [])

theorem Carries.ne_empty {d : Delivery ε} {start : Option Int64} {error : Option ε}
    (h : d.Carries start error) : d ≠ {} := by
  rintro rfl
  cases h.done

theorem carries_finish (start : Option Int64) (error : Option ε) :
    (({} : Delivery ε).finish start error).Carries start error := by
  constructor
  · cases start <;> rfl
  · rintro s rfl
    exact ⟨[], rfl, fun _ => rfl⟩

theorem carries_finish_of_result {d : Delivery ε} {s : Int64} {items : List CompletionItem}
    (h : d = { result := ⟨true, .full ⟨s, items, none⟩⟩ }) :
    (d.finish (some s) none).Carries (some s) none := by
  subst h
  refine ⟨rfl, ?_⟩
  rintro s' ⟨⟩
  exact ⟨items, rfl, nofun⟩

theorem finish_of_fired {d : Delivery ε} (h : d.done.fired = true) (start : Option Int64)
    (error : Option ε) : d.finish start error = d := by
  simp [finish, h]

end Delivery

namespace Bridge

def outcomes (b : Bridge) : List (Request × Option Fault) :=
  b.trace.filterMap Event.outcome?

@[simp] theorem outcomes_log (b : Bridge) (line : Bytes) : (b.log line).outcomes = b.outcomes := by
  simp [outcomes, log, emit, Event.outcome?]

@[simp] theorem outcomes_finishRequest (b : Bridge) (r : Request) (fault : Option Fault) :
    (b.finishRequest r fault).outcomes = b.outcomes ++ [(r, fault)] := by
  simp [outcomes, finishRequest, updateDelivery, emit, Event.outcome?]

theorem outcomes_handle (b : Bridge) (e : Editor) (cur : Running) (res : RunResult)
    (h : b.state = cur.request.kind.state) : (b.handle e cur res).1.outcomes = b.outcomes := by
  obtain ⟨notes, htrace, hnotes⟩ := (handle_answers b e cur res h).trace
  have hnone : notes.filterMap Event.outcome? = [] := by
    rw [List.filterMap_eq_nil_iff]
    exact fun x hx => (hnotes x hx).outcome?_eq_none
  rw [outcomes, htrace, List.filterMap_append, hnone, List.append_nil, outcomes]

/-! ## The first outcome of a request -/

def outcomeOf? (b : Bridge) (id : Nat) : Option (Request × Option Fault) :=
  b.outcomes.find? fun x => x.1.id = id

/-- What the slots of a request hold, by its first outcome. -/
def Matches (d : Delivery Fault) : Option (Request × Option Fault) → Prop
  | none => d = {}
  | some x => d.Carries x.1.query.completionStart? x.2

/-- All slots hold the first outcomes of their requests. -/
def Booked (b : Bridge) : Prop :=
  ∀ id, Matches (b.delivery id) (b.outcomeOf? id)

theorem Booked.congr {b b' : Bridge} (h : b.Booked) (outcomes : b'.outcomes = b.outcomes)
    (delivery : b'.delivery = b.delivery) : b'.Booked := by
  intro id
  rw [outcomeOf?, outcomes, delivery]
  exact h id

/-- A request gets an outcome. If it has none yet, that is its first one;
otherwise nothing must happen to its slots. -/
theorem Booked.close {b b' : Bridge} (h : b.Booked) {r : Request} {fault : Option Fault}
    (outcomes : b'.outcomes = b.outcomes ++ [(r, fault)])
    (others : ∀ id, id ≠ r.id → b'.delivery id = b.delivery id)
    (first : b.delivery r.id = {} → (b'.delivery r.id).Carries r.query.completionStart? fault)
    (later : (b.delivery r.id).done.fired = true → b'.delivery r.id = b.delivery r.id) :
    b'.Booked := by
  intro id
  have hid := h id
  rw [outcomeOf?, outcomes, List.find?_append]
  by_cases hsame : id = r.id
  · subst hsame
    rw [outcomeOf?] at hid
    cases hfirst : b.outcomes.find? fun x => x.1.id = r.id with
    | none =>
        rw [hfirst] at hid
        simpa [Matches] using first hid
    | some x =>
        rw [hfirst] at hid
        have hfired : (b.delivery r.id).done.fired = true := by rw [hid.done]
        rw [later hfired]
        exact hid
  · have hother : ¬ r.id = id := fun he => hsame he.symm
    simpa [others id hsame, hother, outcomeOf?] using hid

theorem booked_finishRequest {b : Bridge} (h : b.Booked) (r : Request) (fault : Option Fault) :
    (b.finishRequest r fault).Booked := by
  have hdelivery : (b.finishRequest r fault).delivery = _ :=
    congrArg Outside.delivery (outside_finishRequest b r fault)
  refine h.close (outcomes_finishRequest b r fault) ?_ ?_ ?_
  · intro id hid
    simp [hdelivery, Outside.finish, hid, outside]
  · intro hempty
    simp only [hdelivery, Outside.finish, if_true, outside, hempty]
    exact Delivery.carries_finish _ _
  · intro hfired
    simp only [hdelivery, Outside.finish, if_true, outside]
    exact Delivery.finish_of_fired hfired _ _

theorem outcomes_complete (b : Bridge) (e : Editor) (cur : Running) (res : RunResult)
    (hhead : b.queue.peek? = some cur.request) (hstate : b.state = cur.request.kind.state) :
    (b.complete e cur res).outcomes =
      b.outcomes ++ [(cur.request, (b.effectOf e cur res).fault)] := by
  obtain ⟨line, hcomplete⟩ := complete_eq b e cur res hhead hstate
  have hhandle := outcomes_handle { b with queue := b.queue.pop, running := none } e cur res hstate
  rw [hcomplete, outcomes_finishRequest, outcomes_log, hhandle]
  rfl

theorem carries_slots {r : Request} {opened : Bool} {x : Effect} (h : x.Proper r opened) :
    (x.slots r).Carries r.query.completionStart? x.fault := by
  unfold Effect.slots
  cases hresult : x.result with
  | none => exact Delivery.carries_finish _ _
  | some c =>
      obtain ⟨start, items, error⟩ := c
      obtain ⟨hstart, herror⟩ := h.result _ hresult
      dsimp only at hstart herror
      subst herror
      rw [h.fault_eq_none hresult, hstart]
      exact Delivery.carries_finish_of_result rfl

theorem delivery_complete (b : Bridge) (e : Editor) (cur : Running) (res : RunResult)
    (hhead : b.queue.peek? = some cur.request) (hstate : b.state = cur.request.kind.state)
    (empty : b.delivery cur.request.id = {}) :
    (b.complete e cur res).delivery cur.request.id =
      (b.effectOf e cur res).slots cur.request := by
  have houtside := congrArg Outside.delivery (outside_complete b e cur res hhead hstate)
  exact (congrFun houtside cur.request.id).trans (Effect.delivery_act_finish _ empty)

/-- The slots of a request whose run ends must be empty, for a completion may get
its result before it is finished. -/
theorem booked_complete {b : Bridge} (h : b.Booked) (e : Editor) (cur : Running) (res : RunResult)
    (hhead : b.queue.peek? = some cur.request) (hstate : b.state = cur.request.kind.state)
    (empty : b.delivery cur.request.id = {}) : (b.complete e cur res).Booked := by
  refine h.close (outcomes_complete b e cur res hhead hstate) ?_ ?_ ?_
  · exact fun id hid => (settles_complete b e cur res).others id (by simpa using hid)
  · intro _
    rw [delivery_complete b e cur res hhead hstate empty]
    exact carries_slots (proper_effectOf b e cur res)
  · intro hfired
    rw [empty] at hfired
    cases hfired

/-! ## Requests that leave the queue -/

/-- The requests that were finished are those that left the queue, and they were
booked. -/
structure Accounts (b b' : Bridge) : Prop where
  closed : ∃ closed : List (Request × Option Fault), b'.outcomes = b.outcomes ++ closed ∧
    (closed.map Prod.fst ++ b'.queue.toList).Perm b.queue.toList
  booked : b.Booked → b'.Booked

namespace Accounts

theorem of_eq {b b' : Bridge} (outcomes : b'.outcomes = b.outcomes)
    (delivery : b'.delivery = b.delivery) (queue : b'.queue.toList = b.queue.toList) :
    Accounts b b' := by
  refine ⟨⟨[], by simp [outcomes], ?_⟩, fun h => h.congr outcomes delivery⟩
  rw [queue, List.map_nil, List.nil_append]

theorem refl (b : Bridge) : Accounts b b :=
  of_eq rfl rfl rfl

theorem trans {a b c : Bridge} (h : Accounts a b) (h' : Accounts b c) : Accounts a c := by
  obtain ⟨closed, houtcomes, hperm⟩ := h.closed
  obtain ⟨closed', houtcomes', hperm'⟩ := h'.closed
  refine ⟨⟨closed ++ closed', ?_, ?_⟩, fun hb => h'.booked (h.booked hb)⟩
  · rw [houtcomes', houtcomes, List.append_assoc]
  · rw [List.map_append, List.append_assoc]
    exact (hperm'.append_left _).trans hperm

end Accounts

theorem foldl_finish {f : Bridge → Request → Bridge} (fault : Fault)
    (outcomes : ∀ b r, (f b r).outcomes = b.outcomes ++ [(r, some fault)])
    (booked : ∀ b r, b.Booked → (f b r).Booked) (b : Bridge) (rs : List Request) :
    (rs.foldl f b).outcomes = b.outcomes ++ rs.map (·, some fault) ∧
      (b.Booked → (rs.foldl f b).Booked) := by
  induction rs generalizing b with
  | nil => simp
  | cons r rs ih =>
      obtain ⟨houtcomes, hbooked⟩ := ih (f b r)
      constructor
      · rw [List.foldl_cons, houtcomes, outcomes]
        simp
      · exact fun hb => hbooked (booked b r hb)

theorem accounts_failQueued (b : Bridge) (fault : Fault) : Accounts b (b.failQueued fault) := by
  have hqueue := congrArg Bridge.queue (control_failQueued b fault)
  change (b.failQueued fault).queue = (b.queue.remove false fun _ => true).1 at hqueue
  obtain ⟨houtcomes, hbooked⟩ := foldl_finish
    (f := fun b request => b.finishRequest request (some fault)) fault
    (fun b r => outcomes_finishRequest b r _) (fun _ r hb => booked_finishRequest hb r _)
    { b with queue := (b.queue.remove false fun _ => true).1 }
    (b.queue.remove false fun _ => true).2
  refine ⟨⟨_, houtcomes, ?_⟩, fun hb => hbooked (hb.congr rfl rfl)⟩
  rw [hqueue, List.map_map]
  simpa [Function.comp_def] using Queue.remove_perm b.queue false fun _ => true

theorem foldl_dropClosed (b : Bridge) (rs : List Request) :
    (rs.foldl dropClosed b).outcomes = b.outcomes ++ rs.map (·, some .documentClosed) ∧
      (b.Booked → (rs.foldl dropClosed b).Booked) :=
  foldl_finish (f := dropClosed) .documentClosed (fun b r => by simp [dropClosed])
    (fun b r hb => booked_finishRequest (hb.congr (outcomes_log b _) rfl) r _) b rs

theorem accounts_dispatchClose (b : Bridge) (e : Editor) (doc : Document) :
    Accounts b (b.dispatchClose e doc) := by
  obtain ⟨houtcomes, hbooked⟩ := foldl_dropClosed
    { b with queue := (b.queue.remove b.running.isSome (concerns e doc)).1 }
    (b.queue.remove b.running.isSome (concerns e doc)).2
  refine ⟨⟨_, houtcomes, ?_⟩, fun hb => (hbooked (hb.congr rfl rfl)).congr rfl rfl⟩
  rw [queue_dispatchClose, List.map_map]
  simpa [Function.comp_def] using Queue.remove_perm b.queue _ _

theorem accounts_complete (b : Bridge) (e : Editor) (cur : Running) (res : RunResult)
    (hhead : b.queue.peek? = some cur.request) (hstate : b.state = cur.request.kind.state)
    (empty : b.delivery cur.request.id = {}) : Accounts b (b.complete e cur res) := by
  have hqueue := congrArg Bridge.queue (control_complete b e cur res hhead hstate)
  change (b.complete e cur res).queue = b.queue.pop at hqueue
  refine ⟨⟨_, outcomes_complete b e cur res hhead hstate, ?_⟩,
    fun hb => booked_complete hb e cur res hhead hstate empty⟩
  rw [hqueue, Queue.toList_eq_cons_of_peek? b.queue hhead]
  exact List.Perm.refl _

/-! ## Requests that must not be sent -/

theorem outcomes_dropHead (b : Bridge) (r : Request) (fault : Fault) :
    (b.dropHead r fault).outcomes = b.outcomes ++ [(r, some fault)] := by
  unfold dropHead
  rw [outcomes_finishRequest, outcomes_log]
  rfl

theorem outcomes_launch (b : Bridge) (r : Request) : (b.launch r).outcomes = b.outcomes := by
  have hlaunch := filterMap_trace_launch (f := Event.outcome?) (fun _ => rfl) b r
  exact hlaunch.trans (List.append_nil _)

def verdict (b : Bridge) (r : Request) : Option Fault :=
  (b.admission r).2

def rejects (b : Bridge) (r : Request) : Bool :=
  (b.verdict r).isSome

theorem verdict_eq (b : Bridge) (r : Request) :
    b.verdict r =
      if r.doc = none then some .invalidRequest
      else if (b.breaker.allow b.now).2 then none else some .unavailable := by
  unfold verdict
  cases hdoc : r.doc with
  | none =>
      rw [admission_of_not_valid b r (by simp [Request.isValid, hdoc])]
      simp
  | some d =>
      rw [admission_of_valid b r (by simp [Request.isValid, hdoc])]
      simp

theorem verdict_congr {b b' : Bridge} (breaker : b'.breaker = b.breaker) (now : b'.now = b.now) :
    b'.verdict = b.verdict := by
  funext r
  rw [verdict_eq, verdict_eq, breaker, now]

/-- The requests that must not be sent have been taken off the front of the queue
and finished, and the next one, if there is one, is in flight. -/
structure PicksFirst (b b' : Bridge) : Prop where
  outcomes : b'.outcomes =
    b.outcomes ++ (b.queue.toList.takeWhile b.rejects).map fun r => (r, b.verdict r)
  queue : b'.queue.toList = b.queue.toList.dropWhile b.rejects
  running : b'.running =
    ((b.queue.toList.dropWhile b.rejects).head?.map fun r => { request := r }).or b.running
  starts : b'.starts = b.starts ++ (b.queue.toList.dropWhile b.rejects).head?.toList

/-- Some requests that must not be sent have been taken off the front of the
queue so far. -/
structure Drops (b c : Bridge) (dropped : List Request) : Prop where
  queue : b.queue.toList = dropped ++ c.queue.toList
  rejected : ∀ r ∈ dropped, b.rejects r = true
  outcomes : c.outcomes = b.outcomes ++ dropped.map fun r => (r, b.verdict r)
  running : c.running = b.running
  starts : c.starts = b.starts
  breaker : c.breaker = b.breaker
  now : c.now = b.now

namespace Drops

variable {b c : Bridge} {dropped : List Request}

theorem drop (h : Drops b c dropped) {r : Request} {fault : Fault}
    (peek : c.queue.peek? = some r) (verdict : c.verdict r = some fault) :
    Drops b (c.dropHead r fault) (dropped ++ [r]) := by
  have hverdict : b.verdict r = some fault := by
    rw [← verdict_congr h.breaker h.now, verdict]
  have hhead := Queue.toList_eq_cons_of_peek? c.queue peek
  refine ⟨?_, ?_, ?_, h.running, ?_, h.breaker, h.now⟩
  · change b.queue.toList = dropped ++ [r] ++ c.queue.pop.toList
    rw [h.queue, hhead, List.append_assoc]
    rfl
  · intro s hs
    rcases List.mem_append.mp hs with hs | hs
    · exact h.rejected s hs
    · rw [List.mem_singleton.mp hs, rejects, hverdict]
      rfl
  · rw [outcomes_dropHead, h.outcomes]
    simp [hverdict]
  · rw [← h.starts]
    simp [Bridge.starts, dropHead, finishRequest, updateDelivery, log, emit, Event.started?]

/-- If the next request may be sent, those before it are the longest prefix of
requests that must not. -/
theorem split (h : Drops b c dropped) (next : ∀ r, c.queue.peek? = some r → c.verdict r = none) :
    b.queue.toList.takeWhile b.rejects = dropped ∧
      b.queue.toList.dropWhile b.rejects = c.queue.toList := by
  rw [h.queue, List.takeWhile_append_of_pos h.rejected, List.dropWhile_append_of_pos h.rejected]
  cases hrest : c.queue.toList with
  | nil => simp
  | cons r rest =>
      have hverdict := next r (Queue.peek?_of_toList_eq_cons c.queue hrest)
      rw [verdict_congr h.breaker h.now] at hverdict
      simp [rejects, hverdict]

end Drops

/-- Exactly the longest prefix of requests that must not be sent is taken off the
queue. -/
theorem startNext_picksFirst (b : Bridge) : PicksFirst b b.startNext := by
  apply startNext_rule (P := fun c => ∃ dropped, Drops b c dropped)
  case h => exact ⟨[], by simp, by simp, by simp, rfl, rfl, rfl, rfl⟩
  case stop =>
    rintro c ⟨dropped, hdrops⟩ hpeek
    obtain ⟨htake, hdrop⟩ := hdrops.split (by simp [hpeek])
    have hempty := Queue.toList_eq_nil_of_peek? c.queue hpeek
    constructor
    · rw [htake, hdrops.outcomes]
    · rw [hdrop]
    · simp [hdrop, hempty, hdrops.running]
    · simp [hdrop, hempty, hdrops.starts]
  case drop =>
    rintro c r breaker fault ⟨dropped, hdrops⟩ hpeek hadmission
    have hsame : ({ c with breaker := breaker } : Bridge) = c := by
      rw [breaker_of_admission hadmission]
    rw [hsame] at hadmission ⊢
    exact ⟨_, hdrops.drop hpeek (congrArg Prod.snd hadmission)⟩
  case start =>
    rintro c r breaker ⟨dropped, hdrops⟩ hpeek hadmission
    have hnext : ∀ s, c.queue.peek? = some s → c.verdict s = none := by
      intro s hs
      rw [hpeek] at hs
      cases hs
      exact congrArg Prod.snd hadmission
    obtain ⟨htake, hdrop⟩ := hdrops.split hnext
    have hhead := Queue.toList_eq_cons_of_peek? c.queue hpeek
    constructor
    · rw [outcomes_launch, htake]
      exact hdrops.outcomes
    · rw [queue_launch, hdrop]
    · rw [hdrop, hhead]
      rfl
    · rw [starts_launch, hdrop, hhead, ← hdrops.starts]
      rfl

theorem booked_startNext {b : Bridge} (h : b.Booked) : b.startNext.Booked := by
  apply startNext_rule (P := Booked)
  case h => exact h
  case stop => exact fun c hc _ => hc
  case drop =>
    rintro c r breaker fault hc - -
    have hpopped : Booked { c with breaker := breaker, queue := c.queue.pop } := hc.congr rfl rfl
    exact booked_finishRequest (hpopped.congr (outcomes_log _ _) rfl) r _
  case start =>
    rintro c r breaker hc - -
    exact hc.congr (outcomes_launch _ r) (delivery_launch _ r)

theorem accounts_startNext (b : Bridge) : Accounts b b.startNext := by
  have hpicks := startNext_picksFirst b
  refine ⟨⟨_, hpicks.outcomes, ?_⟩, booked_startNext⟩
  rw [hpicks.queue, List.map_map]
  simp [Function.comp_def]

theorem accounts_wake (b : Bridge) : Accounts b b.wake := by
  rcases wake_cases b with hsame | hlower | ⟨-, hstart⟩
  · rw [hsame]
    exact Accounts.refl b
  · rw [hlower]
    exact Accounts.of_eq rfl rfl rfl
  · rw [hstart]
    have hlowered : Accounts b { b with queue := b.queue.lower } := Accounts.of_eq rfl rfl rfl
    exact hlowered.trans (accounts_startNext _)

end Bridge

end MerlinBridge
