import MerlinBridge.Proofs.Turn
import MerlinBridge.Proofs.World

/-!
# The protocol machine fits the request in flight

Replies of the tool carry no identifier, so the bridge relies on two things
while a run is under way: its request is at the head of the queue, and the
protocol machine is in the state of its kind. `Bridge.Coherent` says both, and
that all that was said so far is ordinary. Each step keeps it, for the clients
because they only append at the tail, and for the dispatcher by the lemmas of
`Turn`. As long as the dispatcher serves the bridge, the machine is moreover at
rest whenever nothing runs.
-/

namespace MerlinBridge

namespace Bridge

/-- The run under way, if there is one, is that of the head of the queue, and
the machine is in the state of its kind. -/
structure Coherent (b : Bridge) : Prop where
  ordinary : ∀ e ∈ b.trace, e.IsOrdinary
  head : ∀ cur, b.running = some cur → b.queue.peek? = some cur.request
  busy : ∀ cur, b.running = some cur → b.state = cur.request.kind.state

namespace Coherent

theorem of_idle {b : Bridge} (ordinary : ∀ e ∈ b.trace, e.IsOrdinary) (idle : b.running = none) :
    b.Coherent := by
  refine ⟨ordinary, ?_, ?_⟩
  · intro cur hcur
    rw [idle] at hcur
    cases hcur
  · intro cur hcur
    rw [idle] at hcur
    cases hcur

/-- A step that starts and ends no run keeps the bridge coherent, provided that
it leaves a head that the queue has in its place. -/
theorem keep {b b' : Bridge} (h : b.Coherent) (quiet : Quiet b b')
    (running : b'.running.map Running.request = b.running.map Running.request)
    (state : b'.state = b.state)
    (head : ∀ r, b.queue.peek? = some r → b'.queue.peek? = some r) : b'.Coherent := by
  have hsame : ∀ cur, b'.running = some cur →
      ∃ old, b.running = some old ∧ old.request = cur.request := by
    intro cur hcur
    rw [hcur, Option.map_some] at running
    exact Option.map_eq_some_iff.mp running.symm
  refine ⟨quiet.ordinary h.ordinary, ?_, ?_⟩
  · intro cur hcur
    obtain ⟨old, hold, hrequest⟩ := hsame cur hcur
    exact head _ (hrequest ▸ h.head old hold)
  · intro cur hcur
    obtain ⟨old, hold, hrequest⟩ := hsame cur hcur
    rw [state, h.busy old hold, hrequest]

/-- Once the next request has been picked, the bridge is coherent, and at rest
if nothing runs. -/
theorem of_picks {b b' : Bridge} (h : b.Picks b') (ordinary : ∀ e ∈ b.trace, e.IsOrdinary) :
    b'.Coherent ∧ (b'.running = none → b'.state = .default) := by
  rcases h.outcome with ⟨hidle, -, hstate, -⟩ | ⟨r, -, hrunning, hpeek, hstate, -⟩
  · exact ⟨of_idle (h.ordinary ordinary) hidle, fun _ => hstate⟩
  · refine ⟨⟨h.ordinary ordinary, ?_, ?_⟩, ?_⟩
    · intro cur hcur
      cases hrunning.symm.trans hcur
      exact hpeek
    · intro cur hcur
      cases hrunning.symm.trans hcur
      exact hstate
    · intro hidle
      rw [hrunning] at hidle
      cases hidle

end Coherent

theorem coherent_wake (b : Bridge) (h : b.Coherent) (rest : b.running = none → b.state = .default) :
    b.wake.Coherent ∧ (b.wake.running = none → b.wake.state = .default) ∧ Frame b b.wake := by
  rcases wake_cases b with hsame | hlower | ⟨hidle, hstart⟩
  · rw [hsame]
    exact ⟨h, rest, Frame.refl b⟩
  · rw [hlower]
    exact ⟨h.keep (Quiet.of_trace_eq rfl) rfl rfl fun r hr => hr, rest, rfl⟩
  · have hpicks := startNext_picks { b with queue := b.queue.lower } hidle (rest hidle)
    obtain ⟨hcoherent, hrest⟩ := Coherent.of_picks hpicks h.ordinary
    rw [hstart]
    exact ⟨hcoherent, hrest, hpicks.frame⟩

theorem coherent_result (b : Bridge) (e : Editor) (cur : Running) (res : RunResult)
    (h : b.Coherent) (hrunning : b.running = some cur) :
    (b.complete e cur res).startNext.Coherent ∧
      ((b.complete e cur res).startNext.running = none →
        (b.complete e cur res).startNext.state = .default) ∧
      Frame b (b.complete e cur res).startNext := by
  have hhead := h.head cur hrunning
  have hbusy := h.busy cur hrunning
  have hcontrol := control_complete b e cur res hhead hbusy
  have hidle := congrArg Bridge.running hcontrol
  have hstate := congrArg Bridge.state hcontrol
  have hpicks := startNext_picks (b.complete e cur res) hidle hstate
  obtain ⟨hcoherent, hrest⟩ := Coherent.of_picks hpicks
    ((quiet_complete b e cur res hhead hbusy).ordinary h.ordinary)
  exact ⟨hcoherent, hrest, (Frame.of_control hcontrol).trans hpicks.frame⟩

theorem request_markClosed (e : Editor) (doc : Document) (cur : Running) :
    (markClosed e doc cur).request = cur.request := by
  unfold markClosed
  split <;> rfl

theorem coherent_dispatchClose (b : Bridge) (e : Editor) (doc : Document) (h : b.Coherent) :
    (b.dispatchClose e doc).Coherent := by
  have hrunning := running_dispatchClose b e doc
  have hstate := congrArg Bridge.state (control_dispatchClose b e doc)
  cases hcur : b.running with
  | none =>
      rw [hcur] at hrunning
      exact Coherent.of_idle ((quiet_dispatchClose b e doc).ordinary h.ordinary) hrunning
  | some cur =>
      refine h.keep (quiet_dispatchClose b e doc) ?_ hstate ?_
      · rw [hrunning, hcur]
        simp [request_markClosed]
      · intro r hr
        rw [queue_dispatchClose, hcur]
        exact Queue.peek?_remove_true b.queue _ hr

theorem control_clientStep (b : Bridge) (r : Request) (s : Stage) :
    (b.clientStep r s).2.control = { b.control with queue := (b.clientStep r s).2.queue } := by
  cases s with
  | called =>
      simp only [clientStep]
      split <;> rfl
  | accepted => rfl
  | appended => rfl
  | signalled =>
      change b.sweepIfDead.control = { b.control with queue := b.sweepIfDead.queue }
      unfold sweepIfDead
      split
      · have hcontrol := control_failQueued b .shuttingDown
        have hqueue := congrArg Bridge.queue hcontrol
        change (b.failQueued .shuttingDown).queue = _ at hqueue
        rw [hcontrol, hqueue]
      · rfl
  | returned => rfl

theorem quiet_clientStep (b : Bridge) (r : Request) (s : Stage) :
    Quiet b (b.clientStep r s).2 := by
  cases s with
  | called =>
      simp only [clientStep]
      split
      · apply Quiet.finishRequest
        rintro f ⟨⟩
        rfl
      · exact Quiet.refl b
  | accepted =>
      have hline : Ordinary ("enqueue " ++ r.text) := (show Ordinary "enqueue " by decide).append _
      exact (Quiet.log b hline).trans (Quiet.of_trace_eq rfl)
  | appended => exact Quiet.of_trace_eq rfl
  | signalled =>
      change Quiet b b.sweepIfDead
      unfold sweepIfDead
      split
      · exact quiet_failQueued b rfl
      · exact Quiet.refl b
  | returned => exact Quiet.refl b

/-- A client appends at the tail, and takes away only from a bridge that is
dead, where nothing runs. -/
theorem coherent_clientStep (b : Bridge) (r : Request) (s : Stage) (h : b.Coherent)
    (idle : b.dead = true → b.running = none) : (b.clientStep r s).2.Coherent := by
  have hcontrol := control_clientStep b r s
  have hrunning := congrArg Bridge.running hcontrol
  have hstate := congrArg Bridge.state hcontrol
  change (b.clientStep r s).2.running = b.running at hrunning
  -- Only on a dead bridge does a client take requests away, and there no head has to be kept.
  by_cases hdead : b.dead = true
  · exact Coherent.of_idle ((quiet_clientStep b r s).ordinary h.ordinary)
      (hrunning.trans (idle hdead))
  · refine h.keep (quiet_clientStep b r s) (by rw [hrunning]) hstate ?_
    intro head hhead
    cases s with
    | called =>
        simp only [clientStep]
        split <;> exact hhead
    | accepted => exact Queue.peek?_append b.queue r hhead
    | appended => exact hhead
    | signalled => simpa [clientStep, sweepIfDead, hdead] using hhead
    | returned => exact hhead

end Bridge

namespace World

/-- The bridge is coherent, and at rest while the dispatcher serves it and nothing
runs. A dispatcher that has stopped serving leaves nothing running, and it has
returned before the bridge is dead. -/
structure Sound (w : World) : Prop where
  coherent : w.bridge.Coherent
  rest : w.phase = .serving → w.bridge.running = none → w.bridge.state = .default
  stopped : w.phase ≠ .serving → w.bridge.running = none
  dead : w.bridge.dead = true → w.phase = .returned

theorem sound_start (settings : Settings) (mayWatch : Bool) : (start settings mayWatch).Sound where
  coherent := Bridge.Coherent.of_idle (by simp [start, Bridge.new]) rfl
  rest := fun _ _ => rfl
  stopped := fun _ => rfl
  dead := fun h => by cases h

theorem Sound.idle_of_dead {w : World} (h : w.Sound) (hdead : w.bridge.dead = true) :
    w.bridge.running = none := by
  apply h.stopped
  rw [h.dead hdead]
  decide

/-- A step that starts and ends no run and leaves the machine alone. -/
theorem Sound.keep {w w' : World} (h : w.Sound) (coherent : w'.bridge.Coherent)
    (running : w'.bridge.running.isNone = w.bridge.running.isNone)
    (state : w'.bridge.state = w.bridge.state) (dead : w'.bridge.dead = w.bridge.dead)
    (phase : w'.phase = w.phase) : w'.Sound := by
  have hidle : w'.bridge.running = none ↔ w.bridge.running = none := by
    rw [← Option.isNone_iff_eq_none, running, Option.isNone_iff_eq_none]
  refine ⟨coherent, ?_, ?_, ?_⟩
  · intro hserving hnone
    rw [state]
    exact h.rest (phase ▸ hserving) (hidle.mp hnone)
  · intro hserving
    exact hidle.mpr (h.stopped (phase ▸ hserving))
  · intro hdead
    rw [phase]
    exact h.dead (dead ▸ hdead)

theorem Sound.turn {w : World} {b : Bridge} (h : w.Sound) (serving : w.phase = .serving)
    (turn : b.Coherent ∧ (b.running = none → b.state = .default) ∧ w.bridge.Frame b) :
    ({ w with bridge := b } : World).Sound := by
  obtain ⟨hcoherent, hrest, hframe⟩ := turn
  refine ⟨hcoherent, fun _ => hrest, ?_, ?_⟩
  · intro hserving
    exact absurd serving hserving
  · intro hdead
    exact h.dead (hframe.dead_eq ▸ hdead)

/-- A step of a dispatcher towards its end, which leaves nothing running. Nobody
has seen the bridge dead so far. -/
theorem Sound.goOn {w : World} {b : Bridge} (h : w.Sound) (alive : w.phase ≠ .returned)
    (quiet : w.bridge.Quiet b) (frame : w.bridge.Frame b) (idle : b.running = none) {phase : Phase}
    (ends : phase ≠ .serving) : ({ w with bridge := b, phase := phase } : World).Sound := by
  refine ⟨Bridge.Coherent.of_idle (quiet.ordinary h.coherent.ordinary) idle,
    fun hserving => absurd hserving ends, fun _ => idle, ?_⟩
  intro hdead
  exact absurd (h.dead (frame.dead_eq ▸ hdead)) alive

/-- A step that does not touch the queue, the run under way or the machine. -/
theorem Sound.passive {w w' : World} (h : w.Sound) (passive : Passive w w') : w'.Sound := by
  obtain ⟨⟨now, tracker, dying, dead, hbridge⟩, -, hphase, hdead⟩ := passive
  have hserving : w'.phase = .serving ↔ w.phase = .serving := by
    rcases hphase with hsame | ⟨hdrained, hreturned⟩
    · rw [hsame]
    · simp [hdrained, hreturned]
  have hcoherent : w'.bridge.Coherent := by
    rw [hbridge]
    exact h.coherent.keep (Bridge.Quiet.of_trace_eq rfl) rfl rfl fun r hr => hr
  refine ⟨hcoherent, ?_, ?_, ?_⟩
  · intro hphase'
    rw [hbridge]
    exact h.rest (hserving.mp hphase')
  · intro hphase'
    rw [hbridge]
    exact h.stopped (mt hserving.mpr hphase')
  · intro hdead'
    rcases hdead with hsame | ⟨-, hreturned⟩
    · rcases hphase with hphase | ⟨-, hreturned⟩
      · rw [hphase]
        exact h.dead (hsame ▸ hdead')
      · exact hreturned
    · exact hreturned

theorem sound_move {w w' : World} {a : Action} (hmove : Move w a w') (h : w.Sound) : w'.Sound := by
  cases hmove with
  | ask query doc =>
      refine h.keep ?_ rfl rfl rfl rfl
      exact h.coherent.keep (Bridge.Quiet.of_trace_eq rfl) rfl rfl fun r hr => hr
  | client i c called =>
      have hcontrol := Bridge.control_clientStep w.bridge c.request c.stage
      have hrunning := congrArg (fun b : Bridge => b.running.isNone) hcontrol
      have hstate := congrArg Bridge.state hcontrol
      have hdead := congrArg Bridge.dead hcontrol
      refine h.keep ?_ hrunning hstate hdead rfl
      exact Bridge.coherent_clientStep w.bridge c.request c.stage h.coherent h.idle_of_dead
  | wake serving =>
      exact h.turn serving (Bridge.coherent_wake w.bridge h.coherent (h.rest serving))
  | result e res cur serving running =>
      exact h.turn serving (Bridge.coherent_result w.bridge e cur res h.coherent running)
  | close e doc serving =>
      have hcontrol := Bridge.control_dispatchClose w.bridge e doc
      have hrunning := congrArg (fun b : Bridge => b.running.isNone) hcontrol
      have hstate := congrArg Bridge.state hcontrol
      have hdead := congrArg Bridge.dead hcontrol
      refine h.keep (Bridge.coherent_dispatchClose w.bridge e doc h.coherent) ?_ hstate hdead rfl
      exact hrunning.trans Option.isNone_map
  | abandon serving dying =>
      exact h.goOn (by simp [serving]) (Bridge.quiet_abandonRun w.bridge)
        (Bridge.frame_abandonRun w.bridge) (Bridge.running_abandonRun w.bridge) (by simp)
  | drain ending =>
      have hcontrol := Bridge.control_failQueued w.bridge .shuttingDown
      have hrunning := congrArg Bridge.running hcontrol
      have hidle : w.bridge.running = none := h.stopped (by simp [ending])
      exact h.goOn (by simp [ending]) (Bridge.quiet_failQueued w.bridge rfl)
        (Bridge.Frame.of_control hcontrol) (hrunning.trans hidle) (by simp)
  | pass _ _ idle passive => exact h.passive passive

theorem sound_run (settings : Settings) (mayWatch : Bool) (as : List Action) :
    ((start settings mayWatch).run as).Sound :=
  run_induction (P := fun _ w => w.Sound) _ (sound_start settings mayWatch)
    (fun _ _ _ hmove h => sound_move hmove h) as

/-- What every move of a sound world keeps as long as all that is seen satisfies `p`
holds at the end of a run in which it does. -/
theorem run_keeps {α : Type} {f : World → Action → List α} {p : α → Prop} {I : World → Prop}
    (move : ∀ w a w', Move w a w' → w.Sound → (∀ x ∈ f w a, p x) → I w → I w') {w : World}
    (sound : w.Sound) (h : I w) (as : List Action) (seen : ∀ x ∈ observe f w as, p x) :
    I (w.run as) := by
  have hrun := run_induction w
    (P := fun as v => v.Sound ∧ ((∀ x ∈ observe f w as, p x) → I v)) ⟨sound, fun _ => h⟩ ?_ as
  · exact hrun.2 seen
  · rintro as a w' hmove ⟨hsound, hkept⟩
    refine ⟨sound_move hmove hsound, ?_⟩
    intro hseen
    rw [observe_append_singleton] at hseen
    exact move _ a w' hmove hsound (fun x hx => hseen x (List.mem_append_right _ hx))
      (hkept fun x hx => hseen x (List.mem_append_left _ hx))

theorem dying_step {w : World} (sound : w.Sound) (a : Action) (h : w.bridge.dying = true) :
    (w.step a).bridge.dying = true := by
  cases a with
  | ask query doc => exact h
  | client i =>
      simp only [step]
      split
      · exact h
      · rename_i c hc
        have hdying := congrArg Bridge.dying
          (Bridge.control_clientStep w.bridge c.request c.stage)
        exact hdying.trans h
  | wake =>
      simp only [step]
      split
      · rename_i hserving
        obtain ⟨-, -, hframe⟩ :=
          Bridge.coherent_wake w.bridge sound.coherent (sound.rest hserving)
        exact hframe.dying_eq.trans h
      · exact h
  | result e res =>
      simp only [step]
      split
      · unfold Bridge.result
        split
        · exact h
        · rename_i cur hcur
          obtain ⟨-, -, hframe⟩ :=
            Bridge.coherent_result w.bridge e cur res sound.coherent hcur
          exact hframe.dying_eq.trans h
      · exact h
  | close e doc =>
      simp only [step]
      split
      · have hdying := congrArg Bridge.dying (Bridge.control_dispatchClose w.bridge e doc)
        exact hdying.trans h
      · exact h
  | kill => rfl
  | abandon =>
      simp only [step]
      split
      · exact (Bridge.frame_abandonRun w.bridge).dying_eq.trans h
      · exact h
  | drain =>
      simp only [step]
      split
      · have hdying := congrArg Bridge.dying (Bridge.control_failQueued w.bridge .shuttingDown)
        exact hdying.trans h
      · exact h
  | die =>
      simp only [step]
      split <;> exact h
  | leave =>
      simp only [step]
      split <;> exact h
  | watcherReturns =>
      simp only [step]
      split <;> exact h
  | elapse ns => exact h

theorem alive_of_step {w : World} (sound : w.Sound) {a : Action}
    (h : (w.step a).bridge.dying = false) : w.bridge.dying = false := by
  rw [Bool.eq_false_iff]
  intro hdying
  rw [dying_step sound a hdying] at h
  cases h

theorem serving_step {w : World} (alive : w.bridge.dying = false) (serving : w.phase = .serving)
    (a : Action) : (w.step a).phase = .serving := by
  cases a with
  | client i =>
      simp only [step]
      split <;> exact serving
  | abandon => simp [step, alive, serving]
  | watcherReturns => simp [step, alive, serving]
  | _ => simp [step, serving]

theorem serving_of_alive (settings : Settings) (mayWatch : Bool) (as : List Action)
    (alive : ((start settings mayWatch).run as).bridge.dying = false) :
    ((start settings mayWatch).run as).phase = .serving := by
  induction as using List.reverseRecOn with
  | nil => rfl
  | append_singleton as a ih =>
      rw [run_append_singleton] at alive ⊢
      have hbefore := alive_of_step (sound_run settings mayWatch as) alive
      exact serving_step hbefore (ih hbefore) a

/-- What a sound bridge has said holds no line about the machine or a reply that
do not fit, since those open in other ways than ordinary lines. -/
theorem Sound.log_line {w : World} (h : w.Sound) {line : Bytes}
    (hline : Event.log line ∈ w.bridge.trace) :
    ¬ "fsm: ignoring event " <+: line ∧ ¬ "fsm: forcing reset " <+: line ∧
      ¬ Fault.undetectableState.message <+: line ∧ ¬ Fault.protocolViolation.message <+: line := by
  have hordinary : Ordinary line := h.coherent.ordinary _ hline
  exact ⟨hordinary.not_lead (by decide), hordinary.not_lead (by decide),
    hordinary.not_lead (by decide), hordinary.not_lead (by decide)⟩

theorem Sound.rest_iff {w : World} (h : w.Sound) (serving : w.phase = .serving) :
    w.bridge.state = .default ↔ w.bridge.running = none := by
  refine ⟨?_, h.rest serving⟩
  intro hrest
  cases hrunning : w.bridge.running with
  | none => rfl
  | some cur =>
      have hbusy := h.coherent.busy cur hrunning
      exact absurd (hbusy.symm.trans hrest) cur.request.kind.state_ne_default

/-- The protocol machine fits the request in flight, in every run. While the
dispatcher serves the bridge, the machine is at rest exactly when nothing is in
flight; while a request is in flight, the machine is in the state of its kind,
which is the one that the tables of kinds and of answers assign to it. So each
event that is submitted is valid: no line of the machine about an ignored event
or a forced reset is logged, no request fails because of the state, and a value
goes to the parser of the request's own kind. -/
theorem machine_fits_flight (settings : Settings) (mayWatch : Bool) (as : List Action) :
    let b := ((start settings mayWatch).run as).bridge
    (((start settings mayWatch).run as).phase = .serving →
      (b.state = .default ↔ b.running = none)) ∧
    (b.state = .default → ∀ k : Request.Kind, (Protocol.submit b.state k.event).accepted) ∧
    (∀ cur, b.running = some cur →
      b.state = cur.request.kind.state ∧
      Request.Kind.ofState? b.state = some cur.request.kind ∧
      Protocol.received? b.state = some cur.request.kind.answer ∧
      (Protocol.submit b.state cur.request.kind.answer).accepted ∧
      (Protocol.submit b.state .errorHappened).accepted ∧
      ∀ e res env, cur.closed = false → res.fault = none →
        Envelope.decode res.output = .ok env → env.complaint? = none →
        (b.popRunning cur).handle e cur res =
          let p := ({ b.popRunning cur with breaker := b.breaker.success }).applyValue e
            cur.request env.value
          ({ p.1 with state := .default }, p.2)) ∧
    (∀ line, Event.log line ∈ b.trace →
      ¬ "fsm: ignoring event " <+: line ∧ ¬ "fsm: forcing reset " <+: line ∧
      ¬ Fault.undetectableState.message <+: line ∧ ¬ Fault.protocolViolation.message <+: line) ∧
    (∀ r fault, Event.finished r (some fault) ∈ b.trace → fault.isIncoherence = false) := by
  have hsound := sound_run settings mayWatch as
  refine ⟨hsound.rest_iff, ?_, ?_, fun line hline => hsound.log_line hline, ?_⟩
  · intro hrest k
    simp [Protocol.submit, hrest, Request.Kind.next?_event]
  · intro cur hcur
    have hstate := hsound.coherent.busy cur hcur
    have hhead := hsound.coherent.head cur hcur
    rw [hstate]
    refine ⟨rfl, Request.Kind.ofState?_state _, Request.Kind.received?_state _, ?_, ?_, ?_⟩
    · simp [Protocol.submit, Request.Kind.next?_answer]
    · simp [Protocol.submit, Request.Kind.next?_errorHappened]
    · intro e res env hopen hreached hreply hvalue
      rw [Bridge.popRunning_of_head _ cur hhead]
      exact Bridge.handle_reply _ e cur res hstate hopen hreached hreply hvalue
  · intro r fault hfinished
    exact hsound.coherent.ordinary _ hfinished fault rfl

end World

end MerlinBridge
