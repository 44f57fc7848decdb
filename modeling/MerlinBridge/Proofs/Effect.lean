import MerlinBridge.Proofs.Coherence

/-!
# What a result does outside the bridge

What of a bridge is seen from outside, its log aside, are the calls that the
editor has received, the findings, and the slots of the requests. `Effect` is
what handling one result adds to that, and `Effect.ofResult` is the effect of a
result as a function of the request, of the result, of whether the document was
closed and has the focus, and of whether the breaker has opened. Nothing else of
the bridge, and nothing of the document as it is now, goes into it.

The handler performs that effect (`handle_performs`). A failure is seen at once
from an effect: it finds nothing, it delivers nothing, and it shows messages at
most.
-/

namespace MerlinBridge

def Event.host? : Event → Option HostCall
  | .host call => some call
  | _ => none

structure Outside where
  calls : List HostCall
  store : Store
  delivery : Nat → Delivery Fault

def Outside.finish (o : Outside) (r : Request) (fault : Option Fault) : Outside :=
  { o with
    delivery := fun id =>
      if id = r.id then (o.delivery id).finish r.query.completionStart? fault
      else o.delivery id }

namespace Bridge

def hostCalls (b : Bridge) : List HostCall :=
  b.trace.filterMap Event.host?

def outside (b : Bridge) : Outside :=
  ⟨b.hostCalls, b.store, b.delivery⟩

@[simp] theorem outside_log (b : Bridge) (line : Bytes) : (b.log line).outside = b.outside := by
  simp [outside, hostCalls, log, emit, Event.host?]

@[simp] theorem outside_logAll (b : Bridge) (lines : List Bytes) :
    (b.logAll lines).outside = b.outside := by
  simp [logAll_eq, outside, hostCalls, List.filterMap_map, Function.comp_def, Event.host?]

@[simp] theorem outside_follow (b : Bridge) (s : Protocol.Step) :
    (b.follow s).outside = b.outside :=
  outside_logAll _ _

@[simp] theorem outside_submit (b : Bridge) (e : Protocol.Event) :
    (b.submit e).outside = b.outside :=
  outside_follow _ _

@[simp] theorem outside_logSkipped (b : Bridge) (r : Request) (skipped : List Payload.Skip) :
    (b.logSkipped r skipped).outside = b.outside :=
  outside_logAll _ _

@[simp] theorem outside_tell (b : Bridge) (call : HostCall) :
    (b.tell call).outside = { b.outside with calls := b.outside.calls ++ [call] } := by
  simp [outside, hostCalls, tell, emit, Event.host?]

@[simp] theorem outside_finishRequest (b : Bridge) (r : Request) (fault : Option Fault) :
    (b.finishRequest r fault).outside = b.outside.finish r fault := by
  simp [outside, hostCalls, finishRequest, updateDelivery, emit, Event.host?, Outside.finish]

end Bridge

namespace Editor

def looksAt (e : Editor) (r : Request) : Bool :=
  (e.resolve r.doc).any e.isFocused

theorem looksAt_of_not_focused (e : Editor) {r : Request}
    (h : (e.resolve r.doc).filter e.isFocused = none) : e.looksAt r = false := by
  unfold looksAt
  cases hdoc : e.resolve r.doc with
  | none => rfl
  | some d => simpa [hdoc] using h

/-- The document that the editor finds for a request is the one that the request
is about, whatever has become of it. -/
theorem looksAt_of_focused (e : Editor) {r : Request} {d : Document}
    (h : (e.resolve r.doc).filter e.isFocused = some d) :
    e.looksAt r = true ∧ r.doc = some d.id := by
  obtain ⟨hfound, hfocused⟩ := Option.filter_eq_some_iff.mp h
  obtain ⟨id, hid, hdocument⟩ := Option.bind_eq_some_iff.mp hfound
  have hsame : d.id = id := by simpa using List.find?_some hdocument
  constructor
  · simp [looksAt, hfound, hfocused]
  · rw [hid, hsame]

end Editor

/-! ## Effects -/

structure Effect where
  fault : Option Fault := none
  calls : List HostCall := []
  findings : Option Findings := none
  result : Option (CompletionResult Fault) := none

namespace Effect

def failure (fault : Fault) (messages : List Bytes) : Effect where
  fault := some fault
  calls := messages.map .message

def act (x : Effect) (r : Request) (o : Outside) : Outside where
  calls := o.calls ++ x.calls
  store :=
    match x.findings with
    | none => o.store
    | some f => o.store.set (Store.key r.path) f
  delivery :=
    match x.result with
    | none => o.delivery
    | some c => fun id =>
        if id = r.id then { o.delivery id with result := ((o.delivery id).result.fire c).1 }
        else o.delivery id

/-- The slots of a request that had none of them filled before the effect, once it
is finished. -/
def slots (x : Effect) (r : Request) : Delivery Fault :=
  ({ result :=
      match x.result with
      | none => {}
      | some c => (({} : OneShot (CompletionResult Fault)).fire c).1 } : Delivery Fault).finish
    r.query.completionStart? x.fault

theorem delivery_act_finish (x : Effect) {r : Request} {o : Outside} (h : o.delivery r.id = {}) :
    ((x.act r o).finish r x.fault).delivery r.id = x.slots r := by
  cases hresult : x.result with
  | none => simp [Outside.finish, act, slots, hresult, h]
  | some c => simp [Outside.finish, act, slots, hresult, h]

def ofErrors (r : Request) (focused : Bool) (v : Option Json) : Effect :=
  match Payload.Errors.ofJson v with
  | .error err => failure (.malformed (.payload err)) []
  | .ok p =>
      if focused then
        let diagnostics := p.errors.filterMap (Bridge.diagnosticOf? r)
        { calls :=
            [.tasks r.path (p.errors.filterMap (Bridge.taskOf? r)),
              .highlights (r.doc.getD 0) diagnostics
                (p.quickFixes.filterMap (Bridge.markerOf? r))]
          findings := some ⟨diagnostics, p.quickFixes.filterMap (Bridge.fixOf? r)⟩ }
      else failure .stale []

def ofCompletion (startOffset : Int64) (v : Option Json) : Effect :=
  match Payload.Completions.ofJson v with
  | .error err => failure (.malformed (.payload err)) []
  | .ok p => { result := some ⟨startOffset, p.entries.map fun c => ⟨c.name, c.desc⟩, none⟩ }

def ofDefinition (v : Option Json) : Effect :=
  match Payload.Locate.ofJson v with
  | .error (.noFile pos) =>
      failure (.definitionNotFound (.noFile pos))
        ["Merlin: definition at " ++ Command.position pos.line pos.col ++ " has no file"]
  | .error err => failure (.malformed (.payload err)) []
  | .ok p =>
      { calls :=
          [if p.message ≠ [] then .message ("Merlin: " ++ p.message)
            else .openAt p.file p.pos.line p.pos.col] }

def ofUsages (r : Request) (v : Option Json) : Effect :=
  match Payload.Occurrences.ofJson v with
  | .error err => failure (.malformed (.payload err)) []
  | .ok p => { calls := [.usages (p.spans.filterMap (Bridge.usageOf? r))] }

def ofValue (r : Request) (focused : Bool) (v : Option Json) : Effect :=
  match r.query with
  | .errors => ofErrors r focused v
  | .completion _ startOffset _ _ => ofCompletion startOffset v
  | .definition _ _ => ofDefinition v
  | .usages _ _ => ofUsages r v

def ofComplaint (c : Complaint) : Effect :=
  if c.isKnown then failure (.complaint c) ["Merlin " ++ c.cls ++ ": " ++ c.message]
  else failure (.malformed (.unknownClass c)) []

def ofOutput (r : Request) (focused : Bool) (out : Bytes) : Effect :=
  match Envelope.decode out with
  | .error err => failure (.malformed (.envelope err)) []
  | .ok env =>
      match env.complaint? with
      | some c => ofComplaint c
      | none => ofValue r focused env.value

def givingUp (settings : Settings) : Bytes :=
  "Merlin: giving up on " ++ settings.merlinPath ++ " for " ++
    Duration.text settings.breakerCooldown

/-- The effect of a run that brought no reply, after which the breaker is open or
not. -/
def ofFault (settings : Settings) (opened : Bool) (f : Tool.Fault) : Effect :=
  if f = .incomplete then failure (.malformed (.cutShort f)) []
  else
    failure (.transport f)
      (("Merlin: " ++ f.message) :: if opened then [givingUp settings] else [])

def ofResult (settings : Settings) (opened focused : Bool) (cur : Running) (res : RunResult) :
    Effect :=
  if cur.closed then failure .documentClosed []
  else
    match res.fault with
    | some f => ofFault settings opened f
    | none => ofOutput cur.request focused res.output

end Effect

namespace Bridge

structure Performs (r : Request) (x : Effect) (b : Bridge) (p : Bridge × Option Fault) : Prop where
  fault : p.2 = x.fault
  outside : p.1.outside = x.act r b.outside

theorem Performs.congr {r : Request} {x : Effect} {b c : Bridge} {p : Bridge × Option Fault}
    (h : Performs r x b p) {d : Bridge} (before : b.outside = c.outside)
    (after : d.outside = p.1.outside) : Performs r x c (d, p.2) := by
  refine ⟨h.fault, ?_⟩
  rw [after, h.outside, before]

theorem Performs.silent {r : Request} {b b' : Bridge} (fault : Fault)
    (h : b'.outside = b.outside) : Performs r (.failure fault []) b (b', some fault) := by
  refine ⟨rfl, ?_⟩
  simp [h, Effect.act, Effect.failure]

theorem outside_showErrors (b : Bridge) (r : Request) (doc : Nat) (p : Payload.Errors) :
    (b.showErrors r doc p).outside =
      { b.outside with
        calls := b.outside.calls ++
          [.tasks r.path (p.errors.filterMap (taskOf? r)),
            .highlights doc (p.errors.filterMap (diagnosticOf? r))
              (p.quickFixes.filterMap (markerOf? r))]
        store := b.outside.store.set (Store.key r.path)
          ⟨p.errors.filterMap (diagnosticOf? r), p.quickFixes.filterMap (fixOf? r)⟩ } := by
  have hlogged : ((b.logAll (p.errors.filterMap (diagnosticNote? r))).logAll
      (p.quickFixes.filterMap (fixNote? r))).outside = b.outside := by simp
  rw [← hlogged]
  unfold showErrors
  simp only [outside_tell, List.append_assoc]
  rfl

theorem applyErrors_performs (b : Bridge) (e : Editor) (r : Request) (v : Option Json) :
    Performs r (.ofErrors r (e.looksAt r) v) b (b.applyErrors e r v) := by
  unfold applyErrors Effect.ofErrors
  cases Payload.Errors.ofJson v with
  | error err => exact Performs.silent _ (by simp)
  | ok p =>
      cases hfocus : (e.resolve r.doc).filter e.isFocused with
      | none =>
          rw [e.looksAt_of_not_focused hfocus]
          exact Performs.silent _ (by simp)
      | some d =>
          obtain ⟨hseen, hdoc⟩ := e.looksAt_of_focused hfocus
          rw [hseen, hdoc]
          refine ⟨rfl, ?_⟩
          have hnoted : ∀ line, (if d.revision = r.revision then b.logSkipped r p.skipped
              else (b.logSkipped r p.skipped).log line).outside = b.outside := by
            intro line
            split <;> simp
          simp only [outside_showErrors, hnoted]
          rfl

theorem applyCompletion_performs (b : Bridge) (r : Request) (startOffset : Int64)
    (v : Option Json) :
    Performs r (.ofCompletion startOffset v) b (b.applyCompletion r startOffset v) := by
  unfold applyCompletion Effect.ofCompletion
  cases Payload.Completions.ofJson v with
  | error err => exact Performs.silent _ (by simp)
  | ok p =>
      have hskipped : (b.logSkipped r p.skipped).outside = b.outside := by simp
      refine ⟨rfl, ?_⟩
      rw [← hskipped]
      dsimp only
      split
      · simp [Effect.act, outside, hostCalls, updateDelivery, Delivery.deliver]
      · rw [outside_log]
        simp [Effect.act, outside, hostCalls, updateDelivery, Delivery.deliver]

theorem applyDefinition_performs (b : Bridge) (r : Request) (v : Option Json) :
    Performs r (.ofDefinition v) b (b.applyDefinition r v) := by
  unfold applyDefinition Effect.ofDefinition
  cases Payload.Locate.ofJson v with
  | error err =>
      cases err with
      | noFile pos => exact ⟨rfl, by simp [Effect.act, Effect.failure]⟩
      | _ => exact Performs.silent _ (by simp)
  | ok p =>
      by_cases hmessage : p.message = []
      · exact ⟨by simp [hmessage], by simp [Effect.act, hmessage]⟩
      · exact ⟨by simp [hmessage], by simp [Effect.act, hmessage]⟩

theorem applyUsages_performs (b : Bridge) (r : Request) (v : Option Json) :
    Performs r (.ofUsages r v) b (b.applyUsages r v) := by
  unfold applyUsages Effect.ofUsages
  cases Payload.Occurrences.ofJson v with
  | error err => exact Performs.silent _ (by simp)
  | ok p => exact ⟨rfl, by simp [Effect.act]⟩

theorem applyValue_performs (b : Bridge) (e : Editor) (r : Request) (v : Option Json) :
    Performs r (.ofValue r (e.looksAt r) v) b (b.applyValue e r v) := by
  unfold applyValue Effect.ofValue
  cases r.query with
  | errors => exact applyErrors_performs b e r v
  | completion word startOffset line col => exact applyCompletion_performs b r startOffset v
  | definition line col => exact applyDefinition_performs b r v
  | usages line col => exact applyUsages_performs b r v

theorem handleComplaint_performs (b : Bridge) (r : Request) (c : Complaint) :
    Performs r (.ofComplaint c) b (b.handleComplaint r c) := by
  unfold handleComplaint Effect.ofComplaint
  by_cases hknown : c.isKnown = true
  · simp only [hknown, if_true]
    exact ⟨rfl, by simp [Effect.act, Effect.failure]⟩
  · simp only [hknown]
    exact Performs.silent _ (by simp)

theorem handleOutput_performs (b : Bridge) (e : Editor) (r : Request) (out : Bytes)
    (h : b.state = r.kind.state) :
    Performs r (.ofOutput r (e.looksAt r) out) b (b.handleOutput e r out) := by
  unfold handleOutput Effect.ofOutput
  cases Envelope.decode out with
  | error err => exact Performs.silent _ (by simp)
  | ok env =>
      cases hcomplaint : env.complaint? with
      | some c =>
          simp only [hcomplaint]
          exact handleComplaint_performs b r c
      | none =>
          simp only [hcomplaint, handleValue_eq b e r env.value h]
          exact (applyValue_performs b e r env.value).congr rfl rfl

/-- A run that did not reach the tool. That the breaker is told between the two
messages makes no difference. -/
theorem handleFault_eq (b : Bridge) (k : Request.Kind) (output : Bytes) {f : Tool.Fault}
    (h : b.state = k.state) (hf : f ≠ .incomplete) :
    b.handleFault output f =
      (let c := ({ b with state := .default, breaker := b.breaker.failure b.now }).tell
          (.message ("Merlin: " ++ f.message))
        if (b.breaker.failure b.now).isOpen then c.tell (.message (Effect.givingUp b.settings))
        else c,
        some (.transport f)) := by
  unfold handleFault
  rw [submit_errorHappened b k h, if_neg hf]
  rfl

theorem handleFault_performs (b : Bridge) (r : Request) (output : Bytes) (f : Tool.Fault)
    (h : b.state = r.kind.state) :
    Performs r (.ofFault b.settings (b.breaker.report b.now false (some f)).isOpen f) b
      (b.handleFault output f) := by
  unfold Effect.ofFault
  by_cases hf : f = .incomplete
  · simp only [handleFault, hf, if_true, submit_errorHappened b r.kind h]
    refine Performs.silent _ ?_
    rw [outside_log]
    rfl
  · have hreport : b.breaker.report b.now false (some f) = b.breaker.failure b.now := by
      simp [Breaker.report, hf]
    have hcontrol : ({ b with state := .default, breaker := b.breaker.failure b.now } :
        Bridge).outside = b.outside := rfl
    rw [if_neg hf, hreport, handleFault_eq b r.kind output h hf]
    refine ⟨rfl, ?_⟩
    by_cases hopen : (b.breaker.failure b.now).isOpen = true
    · simp [hopen, hcontrol, Effect.act, Effect.failure]
    · simp [hopen, hcontrol, Effect.act, Effect.failure]

def effectOf (b : Bridge) (e : Editor) (cur : Running) (res : RunResult) : Effect :=
  .ofResult b.settings (b.breaker.report b.now cur.closed res.fault).isOpen
    (e.looksAt cur.request) cur res

/-- Handling a result in the state of the request's kind performs the effect of
that result. -/
theorem handle_performs (b : Bridge) (e : Editor) (cur : Running) (res : RunResult)
    (h : b.state = cur.request.kind.state) :
    Performs cur.request (b.effectOf e cur res) b (b.handle e cur res) := by
  unfold handle effectOf Effect.ofResult
  cases hclosed : cur.closed with
  | true => exact Performs.silent _ (by simp)
  | false =>
      cases hfault : res.fault with
      | some f => exact handleFault_performs b cur.request res.output f h
      | none =>
          have houtput := handleOutput_performs { b with breaker := b.breaker.success } e
            cur.request res.output h
          exact houtput.congr rfl rfl

/-! ## The end of a run -/

/-- The end of a run whose request is at the head of the queue: its result is
handled, a line is logged, and the request is finished. -/
theorem complete_eq (b : Bridge) (e : Editor) (cur : Running) (res : RunResult)
    (hhead : b.queue.peek? = some cur.request) (hstate : b.state = cur.request.kind.state) :
    ∃ line, b.complete e cur res =
      ((handle { b with queue := b.queue.pop, running := none } e cur res).1.log line).finishRequest
        cur.request (b.effectOf e cur res).fault := by
  have hanswers := handle_answers { b with queue := b.queue.pop, running := none } e cur res hstate
  have hperforms := handle_performs { b with queue := b.queue.pop, running := none } e cur res hstate
  have hrest : (handle { b with queue := b.queue.pop, running := none } e cur res).1.state =
      .default := congrArg Bridge.state hanswers.control
  have hfault : (b.effectOf e cur res).fault =
      (handle { b with queue := b.queue.pop, running := none } e cur res).2 :=
    hperforms.fault.symm
  unfold complete
  rw [popRunning_of_head b cur hhead, hfault]
  simp only [hrest, if_true]
  split
  · exact ⟨_, rfl⟩
  · exact ⟨_, rfl⟩

theorem outside_complete (b : Bridge) (e : Editor) (cur : Running) (res : RunResult)
    (hhead : b.queue.peek? = some cur.request) (hstate : b.state = cur.request.kind.state) :
    (b.complete e cur res).outside =
      ((b.effectOf e cur res).act cur.request b.outside).finish cur.request
        (b.effectOf e cur res).fault := by
  obtain ⟨line, hcomplete⟩ := complete_eq b e cur res hhead hstate
  have hperforms := handle_performs { b with queue := b.queue.pop, running := none } e cur res hstate
  rw [hcomplete, outside_finishRequest, outside_log, hperforms.outside]
  rfl

/-! ## Calls of the editor -/

@[simp] theorem hostCalls_log (b : Bridge) (line : Bytes) : (b.log line).hostCalls = b.hostCalls :=
  congrArg Outside.calls (outside_log b line)

@[simp] theorem hostCalls_finishRequest (b : Bridge) (r : Request) (fault : Option Fault) :
    (b.finishRequest r fault).hostCalls = b.hostCalls :=
  congrArg Outside.calls (outside_finishRequest b r fault)

theorem hostCalls_failQueued (b : Bridge) (fault : Fault) :
    (b.failQueued fault).hostCalls = b.hostCalls :=
  foldl_keeps hostCalls (fun b r => hostCalls_finishRequest b r (some fault)) { b with queue := _ } _

theorem hostCalls_dispatchClose (b : Bridge) (e : Editor) (doc : Document) :
    (b.dispatchClose e doc).hostCalls = b.hostCalls :=
  foldl_keeps (f := dropClosed) hostCalls (by simp [dropClosed]) { b with queue := _ } _

theorem hostCalls_launch (b : Bridge) (r : Request) : (b.launch r).hostCalls = b.hostCalls := by
  have hlaunch := filterMap_trace_launch (f := Event.host?) (fun _ => rfl) b r
  exact hlaunch.trans (List.append_nil _)

theorem hostCalls_startNext (b : Bridge) : b.startNext.hostCalls = b.hostCalls := by
  apply startNext_rule (P := fun c => c.hostCalls = b.hostCalls)
    (Q := fun c => c.hostCalls = b.hostCalls)
  case h => rfl
  case stop => exact fun c hc _ => hc
  case drop =>
    intro c r breaker fault hc _ _
    unfold dropHead
    rw [hostCalls_finishRequest, hostCalls_log]
    exact hc
  case start =>
    intro c r breaker hc _ _
    rw [hostCalls_launch]
    exact hc

theorem hostCalls_wake (b : Bridge) : b.wake.hostCalls = b.hostCalls := by
  rcases wake_cases b with hsame | hlower | ⟨-, hstart⟩
  · rw [hsame]
  · rw [hlower]
    rfl
  · rw [hstart, hostCalls_startNext]
    rfl

theorem hostCalls_clientStep (b : Bridge) (r : Request) (s : Stage) :
    (b.clientStep r s).2.hostCalls = b.hostCalls := by
  cases s with
  | called =>
      simp only [clientStep]
      split <;> simp
  | accepted => exact hostCalls_log b _
  | signalled =>
      simp only [clientStep, sweepIfDead]
      split
      · exact hostCalls_failQueued b .shuttingDown
      · rfl
  | _ => rfl

theorem hostCalls_abandonRun (b : Bridge) : b.abandonRun.hostCalls = b.hostCalls := by
  cases hrunning : b.running with
  | none => rw [abandonRun_of_idle b hrunning]
  | some cur =>
      rw [abandonRun_of_running b hrunning, hostCalls_finishRequest]
      rfl

end Bridge

end MerlinBridge
