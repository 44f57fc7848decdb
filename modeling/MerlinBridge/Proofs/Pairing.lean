import MerlinBridge.Proofs.Coherence

/-!
# Results go to the requests that asked for them

The bridge handles one run of the tool after the other. What has come to its end,
followed by what waits in the queue, is a part of what the clients have appended,
in the same order; and the runs that were started are those that came to their
end, followed by the one under way. Both are kept by every step (`Paired`).

The queue holds the running request at its head, so a request is started, and
its result handled, in the order of the queue.
-/

namespace MerlinBridge

namespace Stage

def isPast : Stage → Bool
  | called => false
  | accepted => false
  | _ => true

end Stage

theorem Bridge.isPast_clientStep (b : Bridge) (r : Request) (s : Stage) (h : s.isPast = true) :
    (b.clientStep r s).1.isPast = true := by
  cases s with
  | called => cases h
  | accepted => cases h
  | _ => rfl

namespace Bridge

def inFlight (b : Bridge) : Option Request :=
  b.running.map Running.request

theorem toList_failQueued (b : Bridge) (fault : Fault) :
    (b.failQueued fault).queue.toList = [] := by
  have hqueue := congrArg Bridge.queue (control_failQueued b fault)
  change (b.failQueued fault).queue = (b.queue.remove false fun _ => true).1 at hqueue
  rw [hqueue, Queue.toList_remove_all]

/-- The last thing said about a run is the outcome of its own request. -/
theorem getLast?_complete (b : Bridge) (e : Editor) (cur : Running) (res : RunResult) :
    (b.complete e cur res).trace.getLast? =
      some (.finished cur.request ((b.popRunning cur).handle e cur res).2) := by
  unfold complete finishRequest emit
  exact List.getLast?_concat

theorem inFlight_clientStep (b : Bridge) (r : Request) (s : Stage) :
    (b.clientStep r s).2.inFlight = b.inFlight := by
  have hflight := congrArg inFlight (control_clientStep b r s)
  exact hflight

/-- But for the step in which it appends its request, a client adds nothing to
the queue. -/
theorem toList_clientStep_sublist (b : Bridge) (r : Request) (s : Stage) (h : s ≠ .accepted) :
    (b.clientStep r s).2.queue.toList.Sublist b.queue.toList := by
  cases s with
  | called =>
      simp only [clientStep]
      split <;> exact List.Sublist.refl _
  | accepted => exact absurd rfl h
  | appended => exact List.Sublist.refl _
  | signalled =>
      change b.sweepIfDead.queue.toList.Sublist b.queue.toList
      unfold sweepIfDead
      split
      · rw [toList_failQueued]
        exact List.nil_sublist _
      · exact List.Sublist.refl _
  | returned => exact List.Sublist.refl _

theorem inFlight_dispatchClose (b : Bridge) (e : Editor) (doc : Document) :
    (b.dispatchClose e doc).inFlight = b.inFlight := by
  rw [inFlight, running_dispatchClose, inFlight]
  cases b.running with
  | none => rfl
  | some cur => simp [request_markClosed]

theorem toList_dispatchClose_sublist (b : Bridge) (e : Editor) (doc : Document) :
    (b.dispatchClose e doc).queue.toList.Sublist b.queue.toList := by
  rw [queue_dispatchClose]
  exact Queue.toList_remove_sublist b.queue _ _

end Bridge

namespace World

/-- The runs that came to their end and the queue, against what was appended. -/
structure Paired (appended : List Request) (ended : List Ended) (w : World) : Prop where
  order : (ended.map Ended.request ++ w.bridge.queue.toList).Sublist appended
  starts : w.bridge.starts = ended.map Ended.request ++ w.bridge.inFlight.toList

namespace Paired

variable {appended : List Request} {ended : List Ended} {w w' : World}

/-- A step in which no run starts or ends and nothing is appended. -/
theorem keep (h : Paired appended ended w) (quiet : w.bridge.Quiet w'.bridge)
    (inFlight : w'.bridge.inFlight = w.bridge.inFlight)
    (waiting : w'.bridge.queue.toList.Sublist w.bridge.queue.toList) :
    Paired appended ended w' := by
  refine ⟨((List.Sublist.refl _).append waiting).trans h.order, ?_⟩
  rw [quiet.starts_eq, inFlight]
  exact h.starts

theorem push (h : Paired appended ended w) {r : Request} (quiet : w.bridge.Quiet w'.bridge)
    (inFlight : w'.bridge.inFlight = w.bridge.inFlight)
    (waiting : w'.bridge.queue.toList = w.bridge.queue.toList ++ [r]) :
    Paired (appended ++ [r]) ended w' := by
  refine ⟨?_, ?_⟩
  · rw [waiting, ← List.append_assoc]
    exact h.order.append (List.Sublist.refl [r])
  · rw [quiet.starts_eq, inFlight]
    exact h.starts

/-- The next request is picked from a queue in which no request is in flight. -/
theorem pick {b : Bridge} (picks : b.Picks w'.bridge)
    (order : (ended.map Ended.request ++ b.queue.toList).Sublist appended)
    (starts : b.starts = ended.map Ended.request) : Paired appended ended w' := by
  refine ⟨((List.Sublist.refl _).append picks.waiting.sublist).trans order, ?_⟩
  rcases picks.outcome with ⟨hidle, -, -, hstarts⟩ | ⟨r, -, hrunning, -, -, hstarts⟩
  · rw [hstarts, starts, Bridge.inFlight, hidle]
    simp
  · rw [hstarts, starts, Bridge.inFlight, hrunning]
    rfl

/-- The run of the head of the queue comes to its end. -/
theorem finish {b : Bridge} {cur : Running} (h : Paired appended ended w) (sound : w.Sound)
    (running : w.bridge.running = some cur) {x : Ended} (hx : x.run = cur)
    (quiet : w.bridge.Quiet b) (queue : b.queue = w.bridge.queue.pop) :
    ((ended ++ [x]).map Ended.request ++ b.queue.toList).Sublist appended ∧
      b.starts = (ended ++ [x]).map Ended.request := by
  have hhead := Queue.toList_eq_cons_of_peek? _ (sound.coherent.head cur running)
  have hrequest : x.request = cur.request := congrArg Running.request hx
  have horder := h.order
  have hstarts := h.starts
  rw [hhead] at horder
  rw [Bridge.inFlight, running] at hstarts
  refine ⟨?_, ?_⟩
  · rw [queue, List.map_append, List.append_assoc]
    simpa [hrequest] using horder
  · rw [quiet.starts_eq, hstarts, List.map_append]
    simp [hrequest]

/-- The request in flight is the head of the queue, so what was started is a part
of what was appended. -/
theorem starts_sublist (h : Paired appended ended w) (sound : w.Sound) :
    w.bridge.starts.Sublist appended := by
  have hflight : w.bridge.inFlight.toList.Sublist w.bridge.queue.toList := by
    unfold Bridge.inFlight
    cases hrunning : w.bridge.running with
    | none => exact List.nil_sublist _
    | some cur =>
        rw [Queue.toList_eq_cons_of_peek? _ (sound.coherent.head cur hrunning)]
        exact (List.nil_sublist _).cons_cons _
  rw [h.starts]
  exact ((List.Sublist.refl _).append hflight).trans h.order

end Paired

theorem paired_start (settings : Settings) (mayWatch : Bool) :
    Paired [] [] (start settings mayWatch) :=
  ⟨by simp [start, Bridge.new, Queue.toList], rfl⟩

theorem paired_move {appended : List Request} {ended : List Ended} {w w' : World} {a : Action}
    (hmove : Move w a w') (sound : w.Sound) (h : Paired appended ended w) :
    Paired (appended ++ appendedAt w a) (ended ++ endedAt w a) w' := by
  cases hmove with
  | ask query doc =>
      simp only [appendedAt, endedAt, List.append_nil]
      exact h.keep (Bridge.Quiet.of_trace_eq rfl) rfl (List.Sublist.refl _)
  | client i c called =>
      have hquiet := Bridge.quiet_clientStep w.bridge c.request c.stage
      have hflight := Bridge.inFlight_clientStep w.bridge c.request c.stage
      rw [appendedAt_client w i called]
      simp only [endedAt, List.append_nil]
      split
      · rename_i haccepted
        refine h.push hquiet hflight ?_
        rw [haccepted]
        exact Queue.toList_append _ _
      · rename_i hstage
        rw [List.append_nil]
        exact h.keep hquiet hflight (Bridge.toList_clientStep_sublist _ _ _ hstage)
  | wake serving =>
      simp only [appendedAt, endedAt, List.append_nil]
      rcases Bridge.wake_cases w.bridge with hsame | hlower | ⟨hidle, hstart⟩
      · rw [hsame]
        exact h
      · rw [hlower]
        exact h.keep (Bridge.Quiet.of_trace_eq rfl) rfl (List.Sublist.refl _)
      · rw [hstart]
        have hstarts := h.starts
        rw [Bridge.inFlight, hidle] at hstarts
        rw [Option.map_none, Option.toList_none, List.append_nil] at hstarts
        have hpicks := Bridge.startNext_picks { w.bridge with queue := w.bridge.queue.lower } hidle
          (sound.rest serving hidle)
        exact Paired.pick hpicks h.order hstarts
  | result e res cur serving running =>
      have hhead := sound.coherent.head cur running
      have hbusy := sound.coherent.busy cur running
      have hcontrol := Bridge.control_complete w.bridge e cur res hhead hbusy
      have hended : endedAt w (.result e res) = [⟨cur, w.bridge.breaker, some res⟩] := by
        simp [endedAt, serving, running]
      -- The head leaves the queue and joins the runs that came to their end: no order changes.
      obtain ⟨horder, hstarts⟩ := h.finish sound running
        (x := ⟨cur, w.bridge.breaker, some res⟩) rfl
        (Bridge.quiet_complete w.bridge e cur res hhead hbusy) (congrArg Bridge.queue hcontrol)
      simp only [appendedAt, List.append_nil, hended]
      exact Paired.pick (Bridge.startNext_picks _ (congrArg Bridge.running hcontrol)
        (congrArg Bridge.state hcontrol)) horder hstarts
  | close e doc serving =>
      simp only [appendedAt, endedAt, List.append_nil]
      exact h.keep (Bridge.quiet_dispatchClose w.bridge e doc)
        (Bridge.inFlight_dispatchClose w.bridge e doc)
        (Bridge.toList_dispatchClose_sublist w.bridge e doc)
  | abandon serving dying =>
      simp only [appendedAt, endedAt, serving, dying, and_self, if_true, List.append_nil]
      cases hrunning : w.bridge.running with
      | none =>
          rw [Bridge.abandonRun_of_idle w.bridge hrunning, Option.toList_none, List.map_nil,
            List.append_nil]
          exact h.keep (Bridge.Quiet.refl _) rfl (List.Sublist.refl _)
      | some cur =>
          obtain ⟨horder, hstarts⟩ := h.finish sound hrunning
            (x := ⟨cur, w.bridge.breaker, none⟩) rfl (Bridge.quiet_abandonRun w.bridge)
            (by rw [Bridge.abandonRun_of_running w.bridge hrunning]; rfl)
          refine ⟨horder, ?_⟩
          rw [Bridge.inFlight, Bridge.running_abandonRun]
          simpa using hstarts
  | drain ending =>
      simp only [appendedAt, endedAt, List.append_nil]
      have hflight := congrArg Bridge.inFlight (Bridge.control_failQueued w.bridge .shuttingDown)
      refine h.keep (Bridge.quiet_failQueued w.bridge rfl) hflight ?_
      rw [Bridge.toList_failQueued]
      exact List.nil_sublist _
  | pass _ _ idle passive =>
      obtain ⟨⟨now, tracker, dying, dead, hbridge⟩, -, -, -⟩ := passive
      rw [appendedAt_of_idle idle, endedAt_of_idle idle, List.append_nil, List.append_nil]
      refine h.keep ?_ ?_ ?_
      · rw [hbridge]
        exact Bridge.Quiet.of_trace_eq rfl
      · rw [hbridge]
        rfl
      · simp only [hbridge, List.Sublist.refl]

theorem paired_run (settings : Settings) (mayWatch : Bool) (as : List Action) :
    Paired (observe appendedAt (start settings mayWatch) as)
      (observe endedAt (start settings mayWatch) as) ((start settings mayWatch).run as) := by
  refine run_induction _ (P := fun as w => Paired (observe appendedAt (start settings mayWatch) as)
    (observe endedAt (start settings mayWatch) as) w) (paired_start settings mayWatch) ?_ as
  intro as a w' hmove h
  rw [observe_append_singleton, observe_append_singleton]
  exact paired_move hmove (sound_run settings mayWatch as) h

theorem queue_sublist_appended (settings : Settings) (mayWatch : Bool) (as : List Action) :
    ((start settings mayWatch).run as).bridge.queue.toList.Sublist
      (observe appendedAt (start settings mayWatch) as) :=
  (List.sublist_append_right _ _).trans (paired_run settings mayWatch as).order

/-! ## Each request is appended once -/

/-- Each call has its number as the identity of its request, and no request is
appended twice. -/
structure Numbered (appended : List Request) (w : World) : Prop where
  nextId : w.bridge.nextId = w.calls.length
  ids : ∀ (i : Nat) (c : Call), w.calls[i]? = some c → c.request.id = i
  past : ∀ r ∈ appended, ∃ c : Call,
    w.calls[r.id]? = some c ∧ c.request = r ∧ c.stage.isPast = true
  nodup : (appended.map Request.id).Nodup

namespace Numbered

variable {appended : List Request} {w w' : World}

theorem keep (h : Numbered appended w) (nextId : w'.bridge.nextId = w.bridge.nextId)
    (calls : w'.calls = w.calls) : Numbered appended w' := by
  obtain ⟨hnext, hids, hpast, hnodup⟩ := h
  refine ⟨?_, ?_, ?_, hnodup⟩
  · rw [nextId, calls, hnext]
  · rw [calls]
    exact hids
  · rw [calls]
    exact hpast

theorem ask (h : Numbered appended w) {b : Bridge} {r : Request}
    (nextId : b.nextId = w.bridge.nextId + 1) (id : r.id = w.bridge.nextId) :
    Numbered appended { w with bridge := b, calls := w.calls ++ [{ request := r }] } := by
  refine ⟨?_, ?_, ?_, h.nodup⟩
  · simp [nextId, h.nextId]
  · intro i c hc
    rw [List.getElem?_append] at hc
    split at hc
    · exact h.ids i c hc
    · obtain ⟨hi, rfl⟩ := List.getElem?_eq_some_iff.mp hc
      simp only [List.length_singleton, List.getElem_singleton] at hi ⊢
      rw [id, h.nextId]
      omega
  · intro s hs
    obtain ⟨c, hc, hrequest⟩ := h.past s hs
    have hlt := (List.getElem?_eq_some_iff.mp hc).1
    exact ⟨c, by rw [List.getElem?_append_left hlt, hc], hrequest⟩

/-- A client that has not appended its request so far has none in the queue. -/
theorem notMem (h : Numbered appended w) {i : Nat} {c : Call} (called : w.calls[i]? = some c)
    (stage : c.stage.isPast = false) : i ∉ appended.map Request.id := by
  intro hi
  obtain ⟨r, hr, rfl⟩ := List.mem_map.mp hi
  obtain ⟨d, hd, -, hpast⟩ := h.past r hr
  rw [called] at hd
  cases hd
  rw [stage] at hpast
  cases hpast

theorem advance (h : Numbered appended w) {b : Bridge} {i : Nat} {c : Call} {s : Stage}
    (nextId : b.nextId = w.bridge.nextId) (called : w.calls[i]? = some c)
    (stage : c.stage.isPast = true → s.isPast = true) :
    Numbered appended { w with bridge := b, calls := w.calls.set i ⟨c.request, s⟩ } := by
  refine ⟨?_, ?_, ?_, h.nodup⟩
  · simp [nextId, h.nextId]
  · intro j d hd
    rcases (getElem?_set_iff called).mp hd with ⟨rfl, rfl⟩ | ⟨-, hd⟩
    · exact h.ids i c called
    · exact h.ids j d hd
  · intro r hr
    obtain ⟨d, hd, hrequest, hpast⟩ := h.past r hr
    by_cases hi : i = r.id
    · subst hi
      rw [called] at hd
      cases hd
      have hset := (getElem?_set_iff (d := ⟨c.request, s⟩) called).mpr (Or.inl ⟨rfl, rfl⟩)
      exact ⟨_, hset, hrequest, stage hpast⟩
    · exact ⟨d, (getElem?_set_iff called).mpr (Or.inr ⟨hi, hd⟩), hrequest, hpast⟩

theorem push (h : Numbered appended w) {i : Nat} {c : Call} (called : w.calls[i]? = some c)
    (stage : c.stage.isPast = false) {w' : World} (h' : Numbered appended w')
    (past : w'.calls[i]? = some ⟨c.request, .appended⟩) :
    Numbered (appended ++ [c.request]) w' := by
  have hid := h.ids i c called
  refine ⟨h'.nextId, h'.ids, ?_, ?_⟩
  · intro r hr
    rcases List.mem_append.mp hr with hr | hr
    · exact h'.past r hr
    · rw [List.mem_singleton.mp hr, hid]
      exact ⟨_, past, rfl, rfl⟩
  · rw [List.map_append]
    refine List.nodup_append.mpr ⟨h.nodup, by simp, ?_⟩
    intro j hj k hk
    rw [List.map_singleton, List.mem_singleton, hid] at hk
    rintro rfl
    exact h.notMem called stage (hk ▸ hj)

end Numbered

theorem numbered_start (settings : Settings) (mayWatch : Bool) :
    Numbered [] (start settings mayWatch) :=
  ⟨rfl, by simp [start], by simp, by simp⟩

theorem numbered_move {appended : List Request} {w w' : World} {a : Action}
    (hmove : Move w a w') (sound : w.Sound) (h : Numbered appended w) :
    Numbered (appended ++ appendedAt w a) w' := by
  cases hmove with
  | ask query doc =>
      simp only [appendedAt, List.append_nil]
      refine h.ask rfl ?_
      cases doc <;> rfl
  | client i c called =>
      have hnext := congrArg Bridge.nextId (Bridge.control_clientStep w.bridge c.request c.stage)
      have hstep := h.advance (b := (w.bridge.clientStep c.request c.stage).2) hnext called
        (Bridge.isPast_clientStep w.bridge c.request c.stage)
      rw [appendedAt_client w i called]
      split
      · rename_i haccepted
        refine h.push called (by rw [haccepted]; rfl) hstep ?_
        rw [haccepted]
        exact (getElem?_set_iff called).mpr (Or.inl ⟨rfl, rfl⟩)
      · rw [List.append_nil]
        exact hstep
  | wake serving =>
      simp only [appendedAt, List.append_nil]
      have hframe := (Bridge.coherent_wake w.bridge sound.coherent (sound.rest serving)).2.2
      exact h.keep hframe.nextId_eq rfl
  | result e res cur serving running =>
      simp only [appendedAt, List.append_nil]
      have hframe := (Bridge.coherent_result w.bridge e cur res sound.coherent running).2.2
      exact h.keep hframe.nextId_eq rfl
  | close e doc serving =>
      simp only [appendedAt, List.append_nil]
      have hcontrol := Bridge.control_dispatchClose w.bridge e doc
      exact h.keep (Bridge.Frame.of_control hcontrol).nextId_eq rfl
  | abandon serving dying =>
      simp only [appendedAt, List.append_nil]
      exact h.keep (Bridge.frame_abandonRun w.bridge).nextId_eq rfl
  | drain ending =>
      simp only [appendedAt, List.append_nil]
      have hcontrol := Bridge.control_failQueued w.bridge .shuttingDown
      exact h.keep (Bridge.Frame.of_control hcontrol).nextId_eq rfl
  | pass _ _ idle passive =>
      obtain ⟨⟨now, tracker, dying, dead, hbridge⟩, hcalls, -, -⟩ := passive
      rw [appendedAt_of_idle idle, List.append_nil]
      refine h.keep ?_ hcalls
      rw [hbridge]

theorem numbered_run (settings : Settings) (mayWatch : Bool) (as : List Action) :
    Numbered (observe appendedAt (start settings mayWatch) as)
      ((start settings mayWatch).run as) := by
  refine run_induction _
    (P := fun as w => Numbered (observe appendedAt (start settings mayWatch) as) w)
    (numbered_start settings mayWatch) ?_ as
  intro as a w' hmove h
  rw [observe_append_singleton]
  exact numbered_move hmove (sound_run settings mayWatch as) h

/-- A run that ended because the tool returned, and not because it was
abandoned. -/
def Ended.isHandled (x : Ended) : Bool :=
  x.result.isSome

/-- Results go to the requests that asked for them, in every run. The runs that
were started are those that came to their end, in the same order, and the one
under way if there is one, which is the last that was started and that of the
head of the queue. So a result that arrives is handled for the request at the
head, which is finished with the outcome, and the line about another head is
never logged. Requests are started, and their results handled, in the order
in which they were appended, each at most once. -/
theorem fifo_single_flight (settings : Settings) (mayWatch : Bool) (as : List Action) :
    let b := ((start settings mayWatch).run as).bridge
    let appended := observe appendedAt (start settings mayWatch) as
    let ended := observe endedAt (start settings mayWatch) as
    b.starts = ended.map Ended.request ++ b.inFlight.toList ∧
    b.starts.length ≤ ended.length + 1 ∧
    (∀ cur, b.running = some cur →
      b.starts.getLast? = some cur.request ∧ b.queue.peek? = some cur.request ∧
      b.popRunning cur = { b with queue := b.queue.pop, running := none } ∧
      ∀ e res, b.result e res = (b.complete e cur res).startNext ∧
        (b.complete e cur res).trace.getLast? =
          some (.finished cur.request ((b.popRunning cur).handle e cur res).2)) ∧
    (∀ line, Event.log line ∈ b.trace →
      ¬ (Fault.protocolViolation.message ++ ": head of queue is " : Bytes) <+: line) ∧
    b.starts.Sublist appended ∧
    ((ended.filter Ended.isHandled).map Ended.request).Sublist appended ∧
    (appended.map Request.id).Nodup := by
  have hsound := sound_run settings mayWatch as
  have hpaired := paired_run settings mayWatch as
  have hnumbered := numbered_run settings mayWatch as
  refine ⟨hpaired.starts, ?_, ?_, ?_, hpaired.starts_sublist hsound, ?_, hnumbered.nodup⟩
  · rw [hpaired.starts, List.length_append, List.length_map]
    have hone := Option.length_toList_le
      (o := ((start settings mayWatch).run as).bridge.inFlight)
    omega
  · intro cur hcur
    have hhead := hsound.coherent.head cur hcur
    refine ⟨?_, hhead, Bridge.popRunning_of_head _ cur hhead, ?_⟩
    · rw [hpaired.starts, Bridge.inFlight, hcur]
      simp
    · intro e res
      refine ⟨?_, Bridge.getLast?_complete _ e cur res⟩
      unfold Bridge.result
      rw [hcur]
  · intro line hline
    have hordinary : Ordinary line := hsound.coherent.ordinary _ hline
    exact hordinary.not_lead (by decide)
  · have hhandled := (List.filter_sublist (p := Ended.isHandled)
      (l := observe endedAt (start settings mayWatch) as)).map Ended.request
    exact hhandled.trans ((List.sublist_append_left _ _).trans hpaired.order)

end World

end MerlinBridge
