import MerlinBridge.Proofs.Answer
import MerlinBridge.Proofs.QueueView

/-!
# What one turn of the dispatcher does

One lemma for each function of the dispatcher says what becomes of the control,
and one what is added to the trace. Only `Bridge.launch` starts a run of the
tool; everything else is `Quiet`, which means that it adds ordinary events and
starts nothing.

`startNext` is a loop over the head of the queue. Its rule, `startNext_rule`,
takes an invariant that holds while requests are dropped and a statement about
the two ways in which the loop ends, so that no later proof counts the requests
that were looked at.
-/

namespace MerlinBridge

namespace Bridge

/-- `b'` has said more than `b`, but started no run, and all of it is
ordinary. -/
def Quiet (b b' : Bridge) : Prop :=
  ∃ said, b'.trace = b.trace ++ said ∧ ∀ e ∈ said, e.IsOrdinary ∧ e.started? = none

namespace Quiet

theorem refl (b : Bridge) : Quiet b b :=
  ⟨[], by simp, by simp⟩

theorem trans {a b c : Bridge} (h : Quiet a b) (h' : Quiet b c) : Quiet a c := by
  obtain ⟨said, htrace, hsaid⟩ := h
  obtain ⟨said', htrace', hsaid'⟩ := h'
  refine ⟨said ++ said', ?_, ?_⟩
  · rw [htrace', htrace, List.append_assoc]
  · intro e he
    rcases List.mem_append.mp he with he | he
    · exact hsaid e he
    · exact hsaid' e he

theorem of_notes {b b' : Bridge}
    (h : ∃ notes, b'.trace = b.trace ++ notes ∧ ∀ e ∈ notes, e.IsNote) : Quiet b b' := by
  obtain ⟨notes, htrace, hnotes⟩ := h
  exact ⟨notes, htrace, fun e he => ⟨(hnotes e he).isOrdinary, (hnotes e he).started?_eq_none⟩⟩

theorem of_trace_eq {b b' : Bridge} (h : b'.trace = b.trace) : Quiet b b' :=
  ⟨[], by simp [h], by simp⟩

theorem log (b : Bridge) {line : Bytes} (h : Ordinary line) : Quiet b (b.log line) :=
  of_notes (Notes.log b h).trace

theorem finishRequest (b : Bridge) (r : Request) (fault : Option Fault)
    (h : ∀ f, fault = some f → f.isIncoherence = false) :
    Quiet b (b.finishRequest r fault) := by
  refine ⟨[.finished r fault], rfl, ?_⟩
  intro e he
  rw [List.mem_singleton.mp he]
  exact ⟨h, rfl⟩

theorem foldl (f : Bridge → Request → Bridge) (hf : ∀ b r, Quiet b (f b r)) (b : Bridge)
    (rs : List Request) : Quiet b (rs.foldl f b) := by
  induction rs generalizing b with
  | nil => exact refl b
  | cons r rs ih => exact (hf b r).trans (ih (f b r))

theorem starts_eq {b b' : Bridge} (h : Quiet b b') : b'.starts = b.starts := by
  obtain ⟨said, htrace, hsaid⟩ := h
  have hnone : said.filterMap Event.started? = [] := by
    rw [List.filterMap_eq_nil_iff]
    exact fun e he => (hsaid e he).2
  rw [starts, htrace, List.filterMap_append, hnone, List.append_nil, starts]

theorem ordinary {b b' : Bridge} (h : Quiet b b') (hb : ∀ e ∈ b.trace, e.IsOrdinary) :
    ∀ e ∈ b'.trace, e.IsOrdinary := by
  obtain ⟨said, htrace, hsaid⟩ := h
  intro e he
  rw [htrace] at he
  rcases List.mem_append.mp he with he | he
  · exact hb e he
  · exact (hsaid e he).1

end Quiet

/-- Of the control, only the queue, the run under way, the state of the machine
and the breaker differ: the settings, the clock and the flags of the end are the
same. -/
def Frame (b b' : Bridge) : Prop :=
  b'.control =
    { b.control with
      queue := b'.queue, running := b'.running, state := b'.state, breaker := b'.breaker }

namespace Frame

theorem refl (b : Bridge) : Frame b b := rfl

theorem trans {a b c : Bridge} (h : Frame a b) (h' : Frame b c) : Frame a c := by
  unfold Frame at h'
  rw [h] at h'
  exact h'

/-- To give the four parts of the control that may differ is enough. -/
theorem of_control {b b' : Bridge} {queue : Queue Request} {running : Option Running}
    {state : Protocol.State} {breaker : Breaker}
    (h : b'.control =
      { b.control with
        queue := queue, running := running, state := state, breaker := breaker }) :
    Frame b b' := by
  have hqueue : b'.queue = queue := congrArg Bridge.queue h
  have hrunning : b'.running = running := congrArg Bridge.running h
  have hstate : b'.state = state := congrArg Bridge.state h
  have hbreaker : b'.breaker = breaker := congrArg Bridge.breaker h
  unfold Frame
  rw [h, hqueue, hrunning, hstate, hbreaker]

theorem dead_eq {b b' : Bridge} (h : Frame b b') : b'.dead = b.dead := by
  have hdead := congrArg Bridge.dead (show b'.control = _ from h)
  exact hdead

theorem nextId_eq {b b' : Bridge} (h : Frame b b') : b'.nextId = b.nextId := by
  have hnext := congrArg Bridge.nextId (show b'.control = _ from h)
  exact hnext

theorem dying_eq {b b' : Bridge} (h : Frame b b') : b'.dying = b.dying := by
  have hdying := congrArg Bridge.dying (show b'.control = _ from h)
  exact hdying

theorem settings_eq {b b' : Bridge} (h : Frame b b') : b'.settings = b.settings := by
  have hsettings := congrArg Bridge.settings (show b'.control = _ from h)
  exact hsettings

end Frame

/-! ## Finishing several requests -/

theorem foldl_keeps {β : Type} (g : Bridge → β) {f : Bridge → Request → Bridge}
    (hf : ∀ b r, g (f b r) = g b) (b : Bridge) (rs : List Request) :
    g (rs.foldl f b) = g b := by
  induction rs generalizing b with
  | nil => rfl
  | cons r rs ih => exact (ih (f b r)).trans (hf b r)

/-- Failing the queue empties it and changes nothing else of the control. -/
theorem control_failQueued (b : Bridge) (fault : Fault) :
    (b.failQueued fault).control =
      { b.control with queue := (b.queue.remove false fun _ => true).1 } := by
  unfold failQueued
  exact foldl_keeps control (fun b r => control_finishRequest b r (some fault)) _ _

theorem quiet_failQueued (b : Bridge) {fault : Fault} (h : fault.isIncoherence = false) :
    Quiet b (b.failQueued fault) := by
  unfold failQueued
  refine Quiet.foldl _ ?_ { b with queue := _ } _
  intro b r
  apply Quiet.finishRequest
  rintro f ⟨⟩
  exact h

/-! ## Starting the next request -/

theorem eq_of_admission_eq {b b' : Bridge} {r : Request} {fault : Option Fault}
    (h : b.admission r = (b', fault)) : b' = { b with breaker := b'.breaker } := by
  unfold admission at h
  split at h
  · cases h
    rfl
  · cases h
    rfl

theorem admission_of_valid (b : Bridge) (r : Request) (h : r.isValid = true) :
    b.admission r =
      ({ b with breaker := (b.breaker.allow b.now).1 },
        if (b.breaker.allow b.now).2 then none else some .unavailable) := by
  simp [admission, h]

theorem admission_of_not_valid (b : Bridge) (r : Request) (h : r.isValid = false) :
    b.admission r = (b, some .invalidRequest) := by
  simp [admission, h]

/-- A request that must not be sent is invalid, or the breaker rejects it. -/
theorem admission_fault (b : Bridge) (r : Request) {fault : Fault}
    (h : (b.admission r).2 = some fault) :
    (r.isValid = false ∧ fault = .invalidRequest) ∨
      (r.isValid = true ∧ fault = .unavailable) := by
  cases hvalid : r.isValid with
  | false =>
      rw [admission_of_not_valid b r hvalid] at h
      exact Or.inl ⟨rfl, (Option.some.inj h).symm⟩
  | true =>
      rw [admission_of_valid b r hvalid] at h
      dsimp only at h
      split at h
      · cases h
      · exact Or.inr ⟨rfl, (Option.some.inj h).symm⟩

theorem control_dropHead (b : Bridge) (r : Request) (fault : Fault) :
    (b.dropHead r fault).control = { b.control with queue := b.queue.pop } := rfl

theorem quiet_dropHead (b : Bridge) (r : Request) {fault : Fault}
    (h : fault.isIncoherence = false) : Quiet b (b.dropHead r fault) := by
  unfold dropHead
  refine Quiet.trans (b := { b with queue := b.queue.pop }) (Quiet.of_trace_eq rfl) ?_
  refine Quiet.trans (Quiet.log _ ?_) (Quiet.finishRequest _ _ _ ?_)
  · exact (((show Ordinary "dropping " by decide).append _).append _).append _
  · rintro f ⟨⟩
    exact h

theorem launch_eq (b : Bridge) (r : Request) (h : b.state = .default) :
    b.launch r =
      ({ ({ b with state := r.kind.state }).log
          ("start " ++ r.text ++ " in state " ++ r.kind.state.name) with
        running := some { request := r } }).emit (.started r) := by
  have hsubmit : Protocol.submit b.state r.kind.event = ⟨true, r.kind.state, []⟩ := by
    rw [h, Protocol.submit, Request.Kind.next?_event]
  unfold launch
  rw [hsubmit]
  rfl

theorem control_launch (b : Bridge) (r : Request) (h : b.state = .default) :
    (b.launch r).control =
      { b.control with state := r.kind.state, running := some { request := r } } := by
  rw [launch_eq b r h]
  rfl

theorem trace_launch (b : Bridge) (r : Request) (h : b.state = .default) :
    ∃ line, Ordinary line ∧ (b.launch r).trace = b.trace ++ [.log line, .started r] := by
  have hline : Ordinary ("start " ++ r.text ++ " in state " ++ r.kind.state.name) :=
    (((show Ordinary "start " by decide).append _).append _).append _
  refine ⟨_, hline.dropEnd, ?_⟩
  rw [launch_eq b r h]
  exact List.append_assoc b.trace [_] [_]

/-- In whatever state the machine was, all that is said when a request is started
are lines of the log and the start. -/
theorem filterMap_trace_launch {α : Type} {f : Event → Option α} (h : ∀ line, f (.log line) = none)
    (b : Bridge) (r : Request) :
    (b.launch r).trace.filterMap f = b.trace.filterMap f ++ (f (.started r)).toList := by
  have hlines : ∀ lines : List Bytes,
      (lines.map fun line => Event.log (line.dropEnd "\n")).filterMap f = [] := by
    simp [h]
  have hstarted : [Event.started r].filterMap f = (f (.started r)).toList := by
    cases hr : f (.started r) <;> simp [hr]
  unfold launch submit follow log emit
  simp only [logAll_eq]
  split <;> simp [hlines, hstarted, h]

theorem starts_launch (b : Bridge) (r : Request) : (b.launch r).starts = b.starts ++ [r] :=
  filterMap_trace_launch (f := Event.started?) (fun _ => rfl) b r

theorem queue_launch (b : Bridge) (r : Request) : (b.launch r).queue = b.queue := by
  unfold launch submit follow log emit
  simp only [logAll_eq]
  split <;> rfl

/-- The rule of the loop. While requests are dropped, `P` is kept; then either
the queue is empty or its head is started, and `Q` holds. -/
theorem startNext_rule {P Q : Bridge → Prop}
    (stop : ∀ b, P b → b.queue.peek? = none → Q b)
    (drop : ∀ b r breaker fault, P b → b.queue.peek? = some r →
      b.admission r = ({ b with breaker := breaker }, some fault) →
      P (({ b with breaker := breaker }).dropHead r fault))
    (start : ∀ b r breaker, P b → b.queue.peek? = some r →
      b.admission r = ({ b with breaker := breaker }, none) →
      Q (({ b with breaker := breaker }).launch r))
    (b : Bridge) (h : P b) : Q b.startNext := by
  -- A turn of the loop takes one request off the queue, so as many turns as it is long are enough.
  have hloop : ∀ fuel (b : Bridge), b.queue.length ≤ fuel → P b → Q (startNextFrom fuel b) := by
    intro fuel
    induction fuel with
    | zero =>
        intro b hfuel hb
        apply stop b hb
        have hempty : b.queue.toList = [] := by
          rw [Queue.length_eq] at hfuel
          exact List.length_eq_zero_iff.mp (Nat.le_zero.mp hfuel)
        rw [Queue.peek?_eq_head?, hempty, List.head?_nil]
    | succ fuel ih =>
        intro b hfuel hb
        unfold startNextFrom
        split
        · rename_i hpeek
          exact stop b hb hpeek
        · rename_i r hpeek
          split
          · rename_i b' fault hadmission
            have hb' := eq_of_admission_eq hadmission
            rw [hb'] at hadmission ⊢
            have hlength :
                (({ b with breaker := b'.breaker }).dropHead r fault).queue.length ≤ fuel := by
              change b.queue.pop.length ≤ fuel
              rw [Queue.length_eq, Queue.toList_pop, List.length_tail, ← Queue.length_eq]
              omega
            exact ih _ hlength (drop b r b'.breaker fault hb hpeek hadmission)
          · rename_i b' hadmission
            have hb' := eq_of_admission_eq hadmission
            rw [hb'] at hadmission ⊢
            exact start b r b'.breaker hb hpeek hadmission
  exact hloop _ b (Nat.le_refl _) h

theorem startNext_of_admission {b b' : Bridge} {r : Request} (peek : b.queue.peek? = some r)
    (h : b.admission r = (b', none)) : b.startNext = b'.launch r := by
  unfold startNext
  cases hlength : b.queue.length with
  | zero =>
      rw [Queue.length_eq, Queue.toList_eq_cons_of_peek? b.queue peek] at hlength
      cases hlength
  | succ n => simp [startNextFrom, peek, h]

/-- The faults of requests that must not be sent say nothing about the protocol
machine. -/
theorem isIncoherence_of_admission {b b' : Bridge} {r : Request} {fault : Fault}
    (h : b.admission r = (b', some fault)) : fault.isIncoherence = false := by
  have hfault : (b.admission r).2 = some fault := by rw [h]
  rcases admission_fault b r hfault with ⟨-, rfl⟩ | ⟨-, rfl⟩
  · rfl
  · rfl

theorem isValid_of_admission {b b' : Bridge} {r : Request} (h : b.admission r = (b', none)) :
    r.isValid = true := by
  cases hvalid : r.isValid with
  | false =>
      rw [admission_of_not_valid b r hvalid] at h
      cases h
  | true => rfl

/-- What `startNext` leaves of the queue is a tail of it. Either that is nothing
and nothing runs, or the run of its head has just been started. -/
structure Picks (b b' : Bridge) : Prop where
  frame : Frame b b'
  waiting : b'.queue.toList <:+ b.queue.toList
  ordinary : (∀ e ∈ b.trace, e.IsOrdinary) → ∀ e ∈ b'.trace, e.IsOrdinary
  outcome :
    (b'.running = none ∧ b'.queue.toList = [] ∧ b'.state = .default ∧ b'.starts = b.starts) ∨
      ∃ r : Request, r.isValid = true ∧ b'.running = some { request := r } ∧
        b'.queue.peek? = some r ∧ b'.state = r.kind.state ∧ b'.starts = b.starts ++ [r]

theorem startNext_picks (b : Bridge) (hrunning : b.running = none) (hstate : b.state = .default) :
    Picks b b.startNext := by
  apply startNext_rule
    (P := fun c => c.running = none ∧ c.state = .default ∧ Frame b c ∧
      c.queue.toList <:+ b.queue.toList ∧ Quiet b c)
  case h => exact ⟨hrunning, hstate, Frame.refl b, List.suffix_refl _, Quiet.refl b⟩
  case stop =>
    rintro c ⟨hc, hs, hframe, hwaiting, hquiet⟩ hpeek
    have hempty := Queue.toList_eq_nil_of_peek? c.queue hpeek
    exact ⟨hframe, hwaiting, hquiet.ordinary, Or.inl ⟨hc, hempty, hs, hquiet.starts_eq⟩⟩
  case drop =>
    rintro c r breaker fault ⟨hc, hs, hframe, hwaiting, hquiet⟩ hpeek hadmission
    refine ⟨hc, hs, hframe.trans ?_, ?_, hquiet.trans ?_⟩
    · exact Frame.of_control (b := c) (control_dropHead { c with breaker := breaker } r fault)
    · change c.queue.pop.toList <:+ b.queue.toList
      rw [Queue.toList_pop]
      exact (List.tail_suffix _).trans hwaiting
    · exact quiet_dropHead { c with breaker := breaker } r (isIncoherence_of_admission hadmission)
  case start =>
    rintro c r breaker ⟨hc, hs, hframe, hwaiting, hquiet⟩ hpeek hadmission
    have hcontrol := control_launch { c with breaker := breaker } r hs
    obtain ⟨line, hline, htrace⟩ := trace_launch { c with breaker := breaker } r hs
    have hqueue := congrArg Bridge.queue hcontrol
    have hrun := congrArg Bridge.running hcontrol
    have hactive := congrArg Bridge.state hcontrol
    change (({ c with breaker := breaker }).launch r).queue = c.queue at hqueue
    refine ⟨hframe.trans (Frame.of_control (b := c) hcontrol), ?_, ?_,
      Or.inr ⟨r, isValid_of_admission hadmission, hrun, ?_, hactive, ?_⟩⟩
    · rw [hqueue]
      exact hwaiting
    · intro hb e he
      rw [htrace] at he
      rcases List.mem_append.mp he with he | he
      · exact hquiet.ordinary hb e he
      · simp only [List.mem_cons, List.not_mem_nil, or_false] at he
        rcases he with rfl | rfl
        · exact hline
        · trivial
    · rw [hqueue]
      exact hpeek
    · rw [← hquiet.starts_eq, starts, htrace, List.filterMap_append]
      rfl

/-- A signal is ignored, or taken while something runs, or taken to start the
next request. -/
theorem wake_cases (b : Bridge) :
    b.wake = b ∨ b.wake = { b with queue := b.queue.lower } ∨
      (b.running = none ∧ b.wake = ({ b with queue := b.queue.lower }).startNext) := by
  unfold wake
  split
  · dsimp only
    split
    · rename_i hidle
      exact Or.inr (Or.inr ⟨Option.isNone_iff_eq_none.mp hidle, rfl⟩)
    · exact Or.inr (Or.inl rfl)
  · exact Or.inl rfl

/-! ## Completing the run under way -/

/-- A request that is at the head of the queue leaves it without a word. -/
theorem popRunning_of_head (b : Bridge) (cur : Running)
    (h : b.queue.peek? = some cur.request) :
    b.popRunning cur = { b with queue := b.queue.pop, running := none } := by
  simp [popRunning, h]

/-- What becomes of the control when a run ends whose request is at the head of
the queue and whose state is active. -/
theorem control_complete (b : Bridge) (e : Editor) (cur : Running) (res : RunResult)
    (hhead : b.queue.peek? = some cur.request) (hstate : b.state = cur.request.kind.state) :
    (b.complete e cur res).control =
      { b.control with
        queue := b.queue.pop
        running := none
        state := .default
        breaker := b.breaker.report b.now cur.closed res.fault } := by
  have hanswers := handle_answers { b with queue := b.queue.pop, running := none } e cur res hstate
  have hrest : (handle { b with queue := b.queue.pop, running := none } e cur res).1.state =
      .default := congrArg Bridge.state hanswers.control
  unfold complete
  rw [popRunning_of_head b cur hhead]
  simp only [hrest, if_true, control_finishRequest]
  split
  · exact hanswers.control
  · exact hanswers.control

theorem quiet_complete (b : Bridge) (e : Editor) (cur : Running) (res : RunResult)
    (hhead : b.queue.peek? = some cur.request) (hstate : b.state = cur.request.kind.state) :
    Quiet b (b.complete e cur res) := by
  have hanswers := handle_answers { b with queue := b.queue.pop, running := none } e cur res hstate
  have hrest : (handle { b with queue := b.queue.pop, running := none } e cur res).1.state =
      .default := congrArg Bridge.state hanswers.control
  have hquiet : Quiet b (handle { b with queue := b.queue.pop, running := none } e cur res).1 :=
    Quiet.of_notes hanswers.trace
  unfold complete
  rw [popRunning_of_head b cur hhead]
  simp only [hrest, if_true]
  refine Quiet.trans ?_ (Quiet.finishRequest _ _ _ hanswers.fault)
  split
  · refine hquiet.trans (Quiet.log _ ?_)
    exact ((((Ordinary.request_text _).append _).append _).append _).append _
  · refine hquiet.trans (Quiet.log _ ?_)
    exact ((Ordinary.request_text _).append _).append _

/-! ## Closing a document and ending the bridge -/

theorem control_dispatchClose (b : Bridge) (e : Editor) (doc : Document) :
    (b.dispatchClose e doc).control =
      { b.control with
        queue := (b.queue.remove b.running.isSome (concerns e doc)).1
        running := b.running.map (markClosed e doc) } := by
  have hfold := foldl_keeps (f := dropClosed) control (fun _ _ => rfl)
    { b with queue := (b.queue.remove b.running.isSome (concerns e doc)).1 }
    (b.queue.remove b.running.isSome (concerns e doc)).2
  exact congrArg (fun c : Bridge => { c with running := c.running.map (markClosed e doc) }) hfold

theorem queue_dispatchClose (b : Bridge) (e : Editor) (doc : Document) :
    (b.dispatchClose e doc).queue = (b.queue.remove b.running.isSome (concerns e doc)).1 :=
  congrArg Bridge.queue (control_dispatchClose b e doc)

theorem running_dispatchClose (b : Bridge) (e : Editor) (doc : Document) :
    (b.dispatchClose e doc).running = b.running.map (markClosed e doc) :=
  congrArg Bridge.running (control_dispatchClose b e doc)

theorem quiet_dispatchClose (b : Bridge) (e : Editor) (doc : Document) :
    Quiet b (b.dispatchClose e doc) := by
  have hdrop : ∀ (b : Bridge) (r : Request), Quiet b (b.dropClosed r) := by
    intro b r
    refine Quiet.trans (Quiet.log b ?_) (Quiet.finishRequest _ _ _ ?_)
    · exact (((show Ordinary "dropping " by decide).append _).append _).append _
    · rintro f ⟨⟩
      rfl
  exact Quiet.foldl dropClosed hdrop { b with queue := _ } _

theorem abandonRun_of_idle (b : Bridge) (h : b.running = none) : b.abandonRun = b := by
  simp only [abandonRun, h]

/-- A run that is abandoned takes the head of the queue with it. -/
theorem abandonRun_of_running (b : Bridge) {cur : Running} (h : b.running = some cur) :
    b.abandonRun =
      ({ b with queue := b.queue.pop, running := none }).finishRequest cur.request
        (some .shuttingDown) := by
  simp only [abandonRun, h]

theorem running_abandonRun (b : Bridge) : b.abandonRun.running = none := by
  cases hrunning : b.running with
  | none => rw [abandonRun_of_idle b hrunning, hrunning]
  | some cur =>
      rw [abandonRun_of_running b hrunning]
      rfl

theorem frame_abandonRun (b : Bridge) : Frame b b.abandonRun := by
  cases hrunning : b.running with
  | none =>
      rw [abandonRun_of_idle b hrunning]
      exact Frame.refl b
  | some cur =>
      rw [abandonRun_of_running b hrunning]
      rfl

theorem breaker_abandonRun (b : Bridge) : b.abandonRun.breaker = b.breaker := by
  cases hrunning : b.running with
  | none => rw [abandonRun_of_idle b hrunning]
  | some cur =>
      rw [abandonRun_of_running b hrunning]
      rfl

theorem quiet_abandonRun (b : Bridge) : Quiet b b.abandonRun := by
  cases hrunning : b.running with
  | none =>
      rw [abandonRun_of_idle b hrunning]
      exact Quiet.refl b
  | some cur =>
      rw [abandonRun_of_running b hrunning]
      refine Quiet.finishRequest { b with queue := b.queue.pop, running := none } _ _ ?_
      rintro f ⟨⟩
      rfl

end Bridge

end MerlinBridge
