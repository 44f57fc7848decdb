import MerlinBridge.Proofs.Effect

/-!
# A request that fails

A request fails for a reason that the editor is told, or for one that it is not
told. `Fault.Announced` is the table of both. In either case that is all that is
seen of the failure: no findings change, no task, highlight, place or usage is
shown, and no candidates are delivered.
-/

namespace MerlinBridge

/-- `Announced opened fault n` means that the editor shows `n` messages when a run
ends with `fault`, and the breaker is open afterwards or not. -/
inductive Fault.Announced (opened : Bool) : Fault → Nat → Prop where
  | malformed (cause : Malformation) : Announced opened (.malformed cause) 0
  | stale : Announced opened .stale 0
  | documentClosed : Announced opened .documentClosed 0
  | transport (f : Tool.Fault) (whole : f ≠ .incomplete) :
      Announced opened (.transport f) (if opened then 2 else 1)
  | complaint (c : Complaint) (known : c.isKnown = true) : Announced opened (.complaint c) 1
  | definitionNotFound (pos : Pos) : Announced opened (.definitionNotFound (.noFile pos)) 1

namespace Effect

/-- If the request fails, the effect is no more than the messages of its fault.
If there is a result, the request is a completion, and the result starts where
the completion does. -/
structure Proper (r : Request) (opened : Bool) (x : Effect) : Prop where
  fault : ∀ fault, x.fault = some fault →
    ∃ messages, x = failure fault messages ∧ fault.Announced opened messages.length
  result : ∀ c, x.result = some c →
    r.query.completionStart? = some c.startOffset ∧ c.error = none

theorem proper_failure {r : Request} {opened : Bool} {fault : Fault} {messages : List Bytes}
    (h : fault.Announced opened messages.length) : (failure fault messages).Proper r opened := by
  refine ⟨?_, nofun⟩
  rintro fault' ⟨⟩
  exact ⟨messages, rfl, h⟩

theorem proper_malformed (r : Request) (opened : Bool) (cause : Malformation) :
    (failure (.malformed cause) []).Proper r opened :=
  proper_failure (.malformed cause)

theorem proper_of_success {r : Request} {opened : Bool} {x : Effect} (fault : x.fault = none)
    (result : x.result = none) : x.Proper r opened := by
  constructor
  · intro f hf
    rw [fault] at hf
    cases hf
  · intro c hc
    rw [result] at hc
    cases hc

theorem Proper.fault_eq_none {r : Request} {opened : Bool} {x : Effect} (h : x.Proper r opened)
    {c : CompletionResult Fault} (hc : x.result = some c) : x.fault = none := by
  cases hfault : x.fault with
  | none => rfl
  | some f =>
      obtain ⟨messages, hx, -⟩ := h.fault f hfault
      rw [hx] at hc
      cases hc

theorem proper_ofErrors (r : Request) (opened focused : Bool) (v : Option Json) :
    (ofErrors r focused v).Proper r opened := by
  unfold ofErrors
  cases Payload.Errors.ofJson v with
  | error err => exact proper_malformed r opened _
  | ok p =>
      cases focused with
      | true => exact proper_of_success rfl rfl
      | false => exact proper_failure .stale

theorem proper_ofCompletion (r : Request) (opened : Bool) {startOffset : Int64} (v : Option Json)
    (h : r.query.completionStart? = some startOffset) :
    (ofCompletion startOffset v).Proper r opened := by
  unfold ofCompletion
  cases Payload.Completions.ofJson v with
  | error err => exact proper_malformed r opened _
  | ok p =>
      refine ⟨nofun, ?_⟩
      rintro c ⟨⟩
      exact ⟨h, rfl⟩

theorem proper_ofDefinition (r : Request) (opened : Bool) (v : Option Json) :
    (ofDefinition v).Proper r opened := by
  unfold ofDefinition
  cases Payload.Locate.ofJson v with
  | error err =>
      cases err with
      | noFile pos => exact proper_failure (.definitionNotFound pos)
      | _ => exact proper_malformed r opened _
  | ok p => exact proper_of_success rfl rfl

theorem proper_ofUsages (r : Request) (opened : Bool) (v : Option Json) :
    (ofUsages r v).Proper r opened := by
  unfold ofUsages
  cases Payload.Occurrences.ofJson v with
  | error err => exact proper_malformed r opened _
  | ok p => exact proper_of_success rfl rfl

theorem proper_ofValue (r : Request) (opened focused : Bool) (v : Option Json) :
    (ofValue r focused v).Proper r opened := by
  unfold ofValue
  cases hquery : r.query with
  | errors => exact proper_ofErrors r opened focused v
  | completion word startOffset line col =>
      exact proper_ofCompletion r opened v (by rw [hquery]; rfl)
  | definition line col => exact proper_ofDefinition r opened v
  | usages line col => exact proper_ofUsages r opened v

theorem proper_ofOutput (r : Request) (opened focused : Bool) (out : Bytes) :
    (ofOutput r focused out).Proper r opened := by
  unfold ofOutput
  cases Envelope.decode out with
  | error err => exact proper_malformed r opened _
  | ok env =>
      cases hcomplaint : env.complaint? with
      | none => simpa [hcomplaint] using proper_ofValue r opened focused env.value
      | some c =>
          simp only [hcomplaint, ofComplaint]
          split
          · rename_i hknown
            exact proper_failure (.complaint c hknown)
          · exact proper_malformed r opened _

theorem proper_ofFault (r : Request) (settings : Settings) (opened : Bool) (f : Tool.Fault) :
    (ofFault settings opened f).Proper r opened := by
  unfold ofFault
  split
  · exact proper_malformed r opened _
  · rename_i hwhole
    have hannounced : Fault.Announced opened (.transport f) _ := .transport f hwhole
    cases opened with
    | true => exact proper_failure hannounced
    | false => exact proper_failure hannounced

theorem proper_ofResult (settings : Settings) (opened focused : Bool) (cur : Running)
    (res : RunResult) : (ofResult settings opened focused cur res).Proper cur.request opened := by
  unfold ofResult
  split
  · exact proper_failure .documentClosed
  · cases res.fault with
    | some f => exact proper_ofFault cur.request settings opened f
    | none => exact proper_ofOutput cur.request opened focused res.output

end Effect

namespace Bridge

theorem proper_effectOf (b : Bridge) (e : Editor) (cur : Running) (res : RunResult) :
    (b.effectOf e cur res).Proper cur.request
      (b.breaker.report b.now cur.closed res.fault).isOpen :=
  Effect.proper_ofResult _ _ _ _ _

theorem handle_failed (b : Bridge) (e : Editor) (cur : Running) (res : RunResult) {fault : Fault}
    (h : b.state = cur.request.kind.state) (failed : (b.handle e cur res).2 = some fault) :
    ∃ messages : List Bytes,
      (b.handle e cur res).1.outside =
          { b.outside with calls := b.outside.calls ++ messages.map .message } ∧
        fault.Announced (b.handle e cur res).1.breaker.isOpen messages.length := by
  have hperforms := handle_performs b e cur res h
  have hbreaker : (b.handle e cur res).1.breaker =
      b.breaker.report b.now cur.closed res.fault :=
    congrArg Bridge.breaker (handle_answers b e cur res h).control
  rw [hperforms.fault] at failed
  obtain ⟨messages, heffect, hannounced⟩ := (proper_effectOf b e cur res).fault fault failed
  refine ⟨messages, ?_, ?_⟩
  · rw [hperforms.outside, heffect]
    rfl
  · rw [hbreaker]
    exact hannounced

end Bridge

namespace World

/-- A request that fails has no effect, in every run, whatever the result and
whether its document has the focus: the findings and the slots stay as they are,
and the editor receives messages alone. There is none if the reply is malformed
or stale or the document was closed. Otherwise the run did not reach the tool,
or the tool replied with an error that it knows or with a place in no file; then
there is one message, and a second one if the run has left the breaker open. -/
theorem no_effect_of_fault (settings : Settings) (mayWatch : Bool) (as : List Action)
    (cur : Running) (running : ((start settings mayWatch).run as).bridge.running = some cur)
    (e : Editor) (res : RunResult) (fault : Fault)
    (failed : ((((start settings mayWatch).run as).bridge.popRunning cur).handle e cur res).2 =
      some fault) :
    let b := ((start settings mayWatch).run as).bridge
    let b' := ((b.popRunning cur).handle e cur res).1
    b'.store = b.store ∧ b'.delivery = b.delivery ∧
      ∃ messages : List Bytes, b'.hostCalls = b.hostCalls ++ messages.map .message ∧
        fault.Announced b'.breaker.isOpen messages.length := by
  have hsound := sound_run settings mayWatch as
  have hpop := Bridge.popRunning_of_head _ cur (hsound.coherent.head cur running)
  have hstate : (((start settings mayWatch).run as).bridge.popRunning cur).state =
      cur.request.kind.state := by
    rw [hpop]
    exact hsound.coherent.busy cur running
  have hpopped : (((start settings mayWatch).run as).bridge.popRunning cur).outside =
      ((start settings mayWatch).run as).bridge.outside := by
    rw [hpop]
    rfl
  obtain ⟨messages, houtside, hannounced⟩ := Bridge.handle_failed _ e cur res hstate failed
  rw [hpopped] at houtside
  exact ⟨congrArg Outside.store houtside, congrArg Outside.delivery houtside, messages,
    congrArg Outside.calls houtside, hannounced⟩

/-- A run that brings no output opens the breaker, and the editor shows two
messages. -/
theorem no_effect_of_noOutput :
    let b := ((start brittle false).run (check 0)).bridge
    let cur : Running := { request := Request.build 0 .errors (some page) }
    let b' := ((b.popRunning cur).handle desk cur ⟨[], some .noOutput, 0⟩).1
    b.running = some cur ∧ b'.breaker.isOpen = true ∧ b'.store = b.store ∧
      ∃ messages : List Bytes, b'.hostCalls = b.hostCalls ++ messages.map .message ∧
        messages.length = 2 := by
  have hopen : ((((start brittle false).run (check 0)).bridge.popRunning
      { request := Request.build 0 .errors (some page) }).handle desk
      { request := Request.build 0 .errors (some page) }
      ⟨[], some .noOutput, 0⟩).1.breaker.isOpen = true := by decide
  refine ⟨by decide, hopen, ?_⟩
  obtain ⟨hstore, -, messages, hcalls, hannounced⟩ := no_effect_of_fault brittle false (check 0)
    { request := Request.build 0 .errors (some page) } (by decide) desk ⟨[], some .noOutput, 0⟩
    (.transport .noOutput) (by decide)
  refine ⟨hstore, messages, hcalls, ?_⟩
  generalize hlength : messages.length = n at hannounced
  cases hannounced with
  | transport f whole => rw [if_pos hopen]

end World

end MerlinBridge
