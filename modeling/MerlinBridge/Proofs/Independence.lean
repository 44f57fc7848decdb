import Mathlib.Data.List.Basic
import MerlinBridge.Proofs.Outcome
import MerlinBridge.Proofs.Service

/-!
# Requests do not influence one another

A bridge without a breaker handles every result as a new bridge would that has
never had another request. `Bridge.alone` is that new bridge. Both come down to
the effect of the result, in which nothing of the bridge is left once the breaker
is out of it. The slots of a request are written once, so what it got is what it
has at the end of the run; and the editor is called by the handling of results
alone, so its calls are those effects in a row.
-/

namespace MerlinBridge

namespace Breaker

variable {b : Breaker}

theorem allow_of_disabled (h : b.isEnabled = false) (now : Int) : b.allow now = (b, true) := by
  simp [allow, h]

theorem report_of_disabled (h : b.isEnabled = false) (now : Int) (closed : Bool)
    (fault : Option Tool.Fault) : b.report now closed fault = b := by
  simp [report, success, failure, h]

end Breaker

namespace Bridge

/-! ## The effect without a breaker -/

theorem admission_of_disabled {b : Bridge} (h : b.breaker.isEnabled = false) {r : Request}
    (valid : r.isValid = true) : b.admission r = (b, none) := by
  rw [admission_of_valid b r valid, Breaker.allow_of_disabled h]
  rfl

/-- Once the breaker is out of it, nothing of the bridge is in the effect of a
result but its settings. -/
theorem effectOf_of_disabled {b : Bridge} (h : b.breaker.isEnabled = false) (e : Editor)
    (cur : Running) (res : RunResult) :
    b.effectOf e cur res = .ofResult b.settings false (e.looksAt cur.request) cur res := by
  unfold effectOf
  rw [Breaker.report_of_disabled h]
  simp [Breaker.isOpen, h]

/-- What the end of a run does to the calls of the editor and to the slots of its
request, the start of the next one included. -/
theorem complete_startNext_effect (b : Bridge) (e : Editor) (cur : Running) (res : RunResult)
    (hhead : b.queue.peek? = some cur.request) (hstate : b.state = cur.request.kind.state)
    (empty : b.delivery cur.request.id = {}) (nodup : (b.queue.toList.map Request.id).Nodup) :
    (b.complete e cur res).startNext.hostCalls =
        b.hostCalls ++ (b.effectOf e cur res).calls ∧
      (b.complete e cur res).startNext.delivery cur.request.id =
        (b.effectOf e cur res).slots cur.request := by
  have hcontrol := control_complete b e cur res hhead hstate
  constructor
  · rw [hostCalls_startNext]
    exact congrArg Outside.calls (outside_complete b e cur res hhead hstate)
  · rw [← delivery_complete b e cur res hhead hstate empty]
    obtain ⟨gone, hsettles, hperm⟩ := disposes_startNext (b.complete e cur res)
      (congrArg Bridge.state hcontrol)
    apply hsettles.others
    intro hid
    obtain ⟨r, hr, hsame⟩ := List.mem_map.mp hid
    have hqueue : (b.complete e cur res).queue = b.queue.pop := congrArg Bridge.queue hcontrol
    have hwaits := hperm.mem_iff.mp (List.mem_append_left _ hr)
    rw [hqueue] at hwaits
    rw [Queue.toList_eq_cons_of_peek? b.queue hhead, List.map_cons, List.nodup_cons] at nodup
    exact nodup.1 (hsame ▸ List.mem_map_of_mem hwaits)

/-! ## A bridge of its own -/

/-- A new bridge with one request in its queue, of which the dispatcher has taken
the signal. -/
def asked (settings : Settings) (mayWatch : Bool) (r : Request) : Bridge :=
  { (Bridge.new settings mayWatch).log ("enqueue " ++ r.text) with
    queue := (({} : Queue Request).append r).lower }

theorem isEnabled_new (settings : Settings) (mayWatch : Bool)
    (disabled : settings.breakerThreshold ≤ 0) :
    (Bridge.new settings mayWatch).breaker.isEnabled = false := by
  simpa [Breaker.isEnabled, Bridge.new] using disabled

/-- A new bridge that has been asked for nothing but the request of `cur`, with the
run under way. -/
def busyWith (settings : Settings) (mayWatch : Bool) (cur : Running) : Bridge :=
  { ((Bridge.new settings mayWatch).enqueue cur.request).wake with running := some cur }

def alone (settings : Settings) (mayWatch : Bool) (cur : Running) (e : Editor) (res : RunResult) :
    Bridge :=
  (busyWith settings mayWatch cur).result e res

/-- Without a breaker a request with a document is started at once. -/
theorem busyWith_eq (settings : Settings) (mayWatch : Bool)
    (disabled : settings.breakerThreshold ≤ 0) {cur : Running}
    (valid : cur.request.isValid = true) :
    ∃ line line', busyWith settings mayWatch cur =
      { Bridge.new settings mayWatch with
        queue := (({} : Queue Request).append cur.request).lower
        state := cur.request.kind.state
        running := some cur
        trace := [.log line, .log line', .started cur.request] } := by
  have hwake : ((Bridge.new settings mayWatch).enqueue cur.request).wake =
      (asked settings mayWatch cur.request).startNext := rfl
  have hadmission : (asked settings mayWatch cur.request).admission cur.request =
      (asked settings mayWatch cur.request, none) :=
    admission_of_disabled (b := asked settings mayWatch cur.request)
      (isEnabled_new settings mayWatch disabled) valid
  have hpeek : (asked settings mayWatch cur.request).queue.peek? = some cur.request :=
    Queue.peek?_of_toList_eq_cons _ (Queue.toList_append {} cur.request)
  rw [busyWith, hwake, startNext_of_admission hpeek hadmission, launch_eq _ _ rfl]
  exact ⟨_, _, rfl⟩

theorem alone_effect (settings : Settings) (mayWatch : Bool)
    (disabled : settings.breakerThreshold ≤ 0) (cur : Running)
    (valid : cur.request.isValid = true) (e : Editor) (res : RunResult) :
    (alone settings mayWatch cur e res).hostCalls =
        (Effect.ofResult settings false (e.looksAt cur.request) cur res).calls ∧
      (alone settings mayWatch cur e res).delivery cur.request.id =
        (Effect.ofResult settings false (e.looksAt cur.request) cur res).slots cur.request := by
  obtain ⟨line, line', hbusy⟩ := busyWith_eq settings mayWatch disabled valid
  have hqueue : (busyWith settings mayWatch cur).queue.toList = [cur.request] := by
    rw [hbusy]
    exact Queue.toList_append {} cur.request
  have hdisabled : (busyWith settings mayWatch cur).breaker.isEnabled = false := by
    rw [hbusy]
    exact isEnabled_new settings mayWatch disabled
  have heffect := effectOf_of_disabled hdisabled e cur res
  have hcomplete := complete_startNext_effect (busyWith settings mayWatch cur) e cur res
    (Queue.peek?_of_toList_eq_cons _ hqueue) (by rw [hbusy]) (by rw [hbusy]; rfl) (by simp [hqueue])
  have hsilent : (busyWith settings mayWatch cur).hostCalls = [] := by
    rw [hbusy]
    rfl
  have hsettings : (busyWith settings mayWatch cur).settings = settings := by
    rw [hbusy]
    rfl
  rw [heffect, hsettings, hsilent] at hcomplete
  exact hcomplete

end Bridge

namespace World

/-! ## Results along a run -/

/-- A result with the run that it belongs to and the editor at that time. -/
structure Handled where
  run : Running
  editor : Editor
  result : RunResult

namespace Handled

def request (h : Handled) : Request :=
  h.run.request

def effect (settings : Settings) (h : Handled) : Effect :=
  .ofResult settings false (h.editor.looksAt h.request) h.run h.result

end Handled

/-- A new bridge has the same effect, if it is told the same about the focus. -/
theorem Handled.alone_effect (h : Handled) {settings : Settings} (mayWatch : Bool)
    (disabled : settings.breakerThreshold ≤ 0) (valid : h.request.isValid = true) {e : Editor}
    (looks : e.looksAt h.request = h.editor.looksAt h.request) :
    (Bridge.alone settings mayWatch h.run e h.result).hostCalls = (h.effect settings).calls ∧
      (Bridge.alone settings mayWatch h.run e h.result).delivery h.request.id =
        (h.effect settings).slots h.request := by
  have halone := Bridge.alone_effect settings mayWatch disabled h.run valid e h.result
  rw [show e.looksAt h.run.request = h.editor.looksAt h.request from looks] at halone
  exact halone

def handledAt (w : World) : Action → List Handled
  | .result e res =>
      if w.phase = .serving then w.bridge.running.toList.map (⟨·, e, res⟩) else []
  | _ => []

theorem handledAt_of_idle {w : World} {a : Action} (h : w.Idle a) : handledAt w a = [] := by
  cases a with
  | result e res =>
      rcases h with h | h <;> simp [handledAt, h]
  | _ => rfl

theorem request_handledAt_sublist (w : World) (a : Action) :
    ((handledAt w a).map Handled.request).Sublist ((endedAt w a).map Ended.request) := by
  cases a with
  | result e res =>
      simp only [handledAt, endedAt]
      split
      · simp [Function.comp_def, Handled.request, Ended.request]
      · exact List.Sublist.refl _
  | _ => exact List.nil_sublist _

/-- The settings are what they were, the breaker counts nothing, and what runs has
a document. -/
structure Steady (settings : Settings) (w : World) : Prop where
  settings : w.bridge.settings = settings
  breaker : w.bridge.breaker.isEnabled = false
  valid : ∀ cur, w.bridge.running = some cur → cur.request.isValid = true

namespace Steady

variable {settings : Settings} {w w' : World}

theorem keep (h : Steady settings w) (same : w'.bridge.settings = w.bridge.settings)
    (breaker : w'.bridge.breaker = w.bridge.breaker)
    (inFlight : w'.bridge.inFlight = w.bridge.inFlight) : Steady settings w' := by
  refine ⟨same.trans h.settings, by rw [breaker, h.breaker], ?_⟩
  intro cur hcur
  rw [Bridge.inFlight, Bridge.inFlight, hcur, Option.map_some] at inFlight
  obtain ⟨old, hold, hrequest⟩ := Option.map_eq_some_iff.mp inFlight.symm
  rw [← hrequest]
  exact h.valid old hold

theorem pick {b : Bridge} (settled : b.settings = settings) (breaker : b.breaker.isEnabled = false)
    (running : b.running = none) (rest : b.state = .default) :
    Steady settings { w with bridge := b.startNext } := by
  have hpicks := Bridge.startNext_picks b running rest
  refine ⟨?_, ?_, ?_⟩
  · exact hpicks.frame.settings_eq.trans settled
  · rcases Bridge.startNext_asked b running rest with ⟨-, hsame⟩ | ⟨-, hallow⟩
    · change b.startNext.breaker.isEnabled = false
      rw [hsame, breaker]
    · rw [Breaker.allow_of_disabled breaker] at hallow
      have hsame : b.breaker = b.startNext.breaker := congrArg Prod.fst hallow
      change b.startNext.breaker.isEnabled = false
      rw [← hsame, breaker]
  · intro cur hcur
    rcases hpicks.outcome with ⟨hidle, -, -, -⟩ | ⟨r, hvalid, hrunning, -, -, -⟩
    · cases hidle.symm.trans hcur
    · cases hrunning.symm.trans hcur
      exact hvalid

end Steady

theorem steady_start (settings : Settings) (mayWatch : Bool)
    (disabled : settings.breakerThreshold ≤ 0) : Steady settings (start settings mayWatch) where
  settings := rfl
  breaker := Bridge.isEnabled_new settings mayWatch disabled
  valid := by
    intro cur hcur
    cases hcur

theorem steady_move {settings : Settings} {w w' : World} {a : Action} (hmove : Move w a w')
    (sound : w.Sound) (h : Steady settings w) : Steady settings w' := by
  cases hmove with
  | ask query doc => exact h.keep rfl rfl rfl
  | client i c called =>
      have hcontrol := Bridge.control_clientStep w.bridge c.request c.stage
      have hsettings := congrArg Bridge.settings hcontrol
      have hbreaker := congrArg Bridge.breaker hcontrol
      exact h.keep hsettings hbreaker (Bridge.inFlight_clientStep w.bridge c.request c.stage)
  | wake serving =>
      rcases Bridge.wake_cases w.bridge with hsame | hlower | ⟨hidle, hstart⟩
      · rw [hsame]
        exact h
      · rw [hlower]
        exact h.keep rfl rfl rfl
      · rw [hstart]
        exact Steady.pick h.settings h.breaker hidle (sound.rest serving hidle)
  | result e res cur serving running =>
      have hcontrol := Bridge.control_complete w.bridge e cur res
        (sound.coherent.head cur running) (sound.coherent.busy cur running)
      have hsettings := congrArg Bridge.settings hcontrol
      have hbreaker := congrArg Bridge.breaker hcontrol
      change (w.bridge.complete e cur res).breaker =
        w.bridge.breaker.report w.bridge.now cur.closed res.fault at hbreaker
      rw [Breaker.report_of_disabled h.breaker] at hbreaker
      exact Steady.pick (hsettings.trans h.settings) (by rw [hbreaker, h.breaker])
        (congrArg Bridge.running hcontrol) (congrArg Bridge.state hcontrol)
  | close e doc serving =>
      have hcontrol := Bridge.control_dispatchClose w.bridge e doc
      have hsettings := congrArg Bridge.settings hcontrol
      have hbreaker := congrArg Bridge.breaker hcontrol
      exact h.keep hsettings hbreaker (Bridge.inFlight_dispatchClose w.bridge e doc)
  | abandon serving dying =>
      have hidle := Bridge.running_abandonRun w.bridge
      refine ⟨(Bridge.frame_abandonRun w.bridge).settings_eq.trans h.settings, ?_, ?_⟩
      · change w.bridge.abandonRun.breaker.isEnabled = false
        rw [Bridge.breaker_abandonRun, h.breaker]
      · intro cur hcur
        cases hidle.symm.trans hcur
  | drain ending =>
      have hcontrol := Bridge.control_failQueued w.bridge .shuttingDown
      have hsettings := congrArg Bridge.settings hcontrol
      have hbreaker := congrArg Bridge.breaker hcontrol
      have hrunning := congrArg Bridge.inFlight hcontrol
      exact h.keep hsettings hbreaker hrunning
  | pass _ _ idle passive =>
      obtain ⟨⟨now, tracker, dying, dead, hbridge⟩, -, -, -⟩ := passive
      exact h.keep (by rw [hbridge]) (by rw [hbridge]) (by rw [hbridge]; rfl)

theorem steady_run (settings : Settings) (mayWatch : Bool)
    (disabled : settings.breakerThreshold ≤ 0) (as : List Action) :
    Steady settings ((start settings mayWatch).run as) := by
  refine run_induction (P := fun _ w => Steady settings w) _
    (steady_start settings mayWatch disabled) ?_ as
  intro as a w' hmove h
  exact steady_move hmove (sound_run settings mayWatch as) h

theorem Move.handledAt_cases {w w' : World} {a : Action} (hmove : Move w a w') :
    handledAt w a = [] ∨ ∃ e res cur, w.bridge.running = some cur ∧
      handledAt w a = [⟨cur, e, res⟩] ∧
      w'.bridge = (w.bridge.complete e cur res).startNext := by
  cases hmove with
  | result e res cur serving running =>
      exact Or.inr ⟨e, res, cur, running, by simp [handledAt, serving, running], rfl⟩
  | pass _ _ idle passive => exact Or.inl (handledAt_of_idle idle)
  | _ => exact Or.inl rfl

theorem hostCalls_move {w w' : World} {a : Action} (hmove : Move w a w')
    (h : handledAt w a = []) : w'.bridge.hostCalls = w.bridge.hostCalls := by
  cases hmove with
  | ask query doc => rfl
  | client i c called => exact Bridge.hostCalls_clientStep w.bridge c.request c.stage
  | wake serving => exact Bridge.hostCalls_wake w.bridge
  | result e res cur serving running => simp [handledAt, serving, running] at h
  | close e doc serving => exact Bridge.hostCalls_dispatchClose w.bridge e doc
  | abandon serving dying => exact Bridge.hostCalls_abandonRun w.bridge
  | drain ending => exact Bridge.hostCalls_failQueued w.bridge .shuttingDown
  | pass _ _ idle passive =>
      obtain ⟨⟨now, tracker, dying, dead, hbridge⟩, -, -, -⟩ := passive
      rw [hbridge]
      rfl

theorem delivery_move {appended : List Request} {w w' : World} {a : Action} (hmove : Move w a w')
    (sound : w.Sound) (numbered : Numbered appended w) (served : Served appended w) {id : Nat}
    (full : w.bridge.delivery id ≠ {}) : w'.bridge.delivery id = w.bridge.delivery id := by
  cases hmove with
  | ask query doc => rfl
  | client i c called =>
      obtain ⟨r, stage⟩ := c
      cases stage with
      | called =>
          have hid : id ≠ r.id := by
            rintro rfl
            apply full
            rw [numbered.ids i _ called]
            exact served.empty called rfl
          simp only [Bridge.clientStep]
          split
          · simp [Bridge.finishRequest, Bridge.updateDelivery, hid]
          · rfl
      | signalled =>
          simp only [Bridge.clientStep, Bridge.sweepIfDead]
          split
          · exact (Bridge.disposes_failQueued w.bridge .shuttingDown).delivery_eq served.waiting full
          · rfl
      | _ => rfl
  | wake serving =>
      exact (Bridge.disposes_wake w.bridge (sound.rest serving)).delivery_eq served.waiting full
  | result e res cur serving running =>
      have hhead := sound.coherent.head cur running
      have hbusy := sound.coherent.busy cur running
      have hcontrol := Bridge.control_complete w.bridge e cur res hhead hbusy
      have hdisposes := (Bridge.disposes_complete w.bridge e cur res hhead hbusy).trans
        (Bridge.disposes_startNext _ (congrArg Bridge.state hcontrol))
      exact hdisposes.delivery_eq served.waiting full
  | close e doc serving =>
      exact (Bridge.disposes_dispatchClose w.bridge e doc).delivery_eq served.waiting full
  | abandon serving dying =>
      exact (Bridge.disposes_abandonRun w.bridge sound.coherent.head).delivery_eq served.waiting full
  | drain ending =>
      exact (Bridge.disposes_failQueued w.bridge .shuttingDown).delivery_eq served.waiting full
  | pass _ _ idle passive =>
      obtain ⟨⟨now, tracker, dying, dead, hbridge⟩, -, -, -⟩ := passive
      rw [hbridge]

/-- Each result had its own effect, and there were no others. -/
structure Alike (settings : Settings) (handled : List Handled) (w : World) : Prop where
  calls : w.bridge.hostCalls = handled.flatMap fun h => (h.effect settings).calls
  slots : ∀ h ∈ handled, w.bridge.delivery h.request.id = (h.effect settings).slots h.request
  valid : ∀ h ∈ handled, h.request.isValid = true

namespace Alike

variable {settings : Settings} {handled : List Handled} {w : World}

theorem slots_ne_empty (h : Alike settings handled w) {x : Handled} (hx : x ∈ handled) :
    w.bridge.delivery x.request.id ≠ {} := by
  rw [h.slots x hx]
  exact (Bridge.carries_slots (Effect.proper_ofResult settings false _ x.run x.result)).ne_empty

end Alike

theorem effect_result {settings : Settings} {appended : List Request} {w : World} (sound : w.Sound)
    (numbered : Numbered appended w) (order : w.bridge.queue.toList.Sublist appended)
    (served : Served appended w) (steady : Steady settings w) {cur : Running}
    (running : w.bridge.running = some cur) (e : Editor) (res : RunResult) :
    (w.bridge.complete e cur res).startNext.hostCalls =
        w.bridge.hostCalls ++ (Handled.effect settings ⟨cur, e, res⟩).calls ∧
      (w.bridge.complete e cur res).startNext.delivery cur.request.id =
        (Handled.effect settings ⟨cur, e, res⟩).slots cur.request := by
  have hcomplete := Bridge.complete_startNext_effect w.bridge e cur res
    (sound.coherent.head cur running) (sound.coherent.busy cur running)
    (served.empty_of_running sound running) (numbered.nodup.sublist (order.map Request.id))
  rw [Bridge.effectOf_of_disabled steady.breaker, steady.settings] at hcomplete
  exact hcomplete

theorem alike_start (settings : Settings) (mayWatch : Bool) :
    Alike settings [] (start settings mayWatch) where
  calls := rfl
  slots := by simp
  valid := by simp

theorem alike_move {settings : Settings} {appended : List Request} {handled : List Handled}
    {w w' : World} {a : Action} (hmove : Move w a w') (sound : w.Sound)
    (numbered : Numbered appended w) (order : w.bridge.queue.toList.Sublist appended)
    (served : Served appended w) (steady : Steady settings w) (h : Alike settings handled w) :
    Alike settings (handled ++ handledAt w a) w' := by
  have hkept : ∀ x ∈ handled,
      w'.bridge.delivery x.request.id = (x.effect settings).slots x.request := by
    intro x hx
    rw [delivery_move hmove sound numbered served (h.slots_ne_empty hx), h.slots x hx]
  rcases hmove.handledAt_cases with hnone | ⟨e, res, cur, hrunning, hhandled, hbridge⟩
  · rw [hnone, List.append_nil]
    exact ⟨(hostCalls_move hmove hnone).trans h.calls, hkept, h.valid⟩
  · obtain ⟨hcalls, hslots⟩ := effect_result sound numbered order served steady hrunning e res
    rw [hhandled]
    refine ⟨?_, ?_, ?_⟩
    · rw [hbridge, hcalls, h.calls]
      simp
    · intro x hx
      rcases List.mem_append.mp hx with hx | hx
      · exact hkept x hx
      · rw [List.mem_singleton.mp hx, hbridge]
        exact hslots
    · intro x hx
      rcases List.mem_append.mp hx with hx | hx
      · exact h.valid x hx
      · rw [List.mem_singleton.mp hx]
        exact steady.valid cur hrunning

theorem alike_run (settings : Settings) (mayWatch : Bool)
    (disabled : settings.breakerThreshold ≤ 0) (as : List Action) :
    Alike settings (observe handledAt (start settings mayWatch) as)
      ((start settings mayWatch).run as) := by
  refine run_induction _
    (P := fun as w => Alike settings (observe handledAt (start settings mayWatch) as) w)
    (alike_start settings mayWatch) ?_ as
  intro as a w' hmove h
  rw [observe_append_singleton]
  exact alike_move hmove (sound_run settings mayWatch as) (numbered_run settings mayWatch as)
    (queue_sublist_appended settings mayWatch as) (served_run settings mayWatch as)
    (steady_run settings mayWatch disabled as) h

/-- A request is a snapshot of its document, taken when its client asked. -/
theorem built_run (settings : Settings) (mayWatch : Bool) (as : List Action) :
    ∀ c ∈ ((start settings mayWatch).run as).calls, ∃ query doc,
      Action.ask query doc ∈ as ∧ c.request = Request.build c.request.id query doc := by
  refine run_induction _
    (P := fun as w => ∀ c ∈ w.calls, ∃ query doc,
      Action.ask query doc ∈ as ∧ c.request = Request.build c.request.id query doc)
    (by simp [start]) ?_ as
  intro as a w' hmove h
  have hlater : ∀ c ∈ ((start settings mayWatch).run as).calls, ∃ query doc,
      Action.ask query doc ∈ as ++ [a] ∧ c.request = Request.build c.request.id query doc := by
    intro c hc
    obtain ⟨query, doc, hasked, hbuilt⟩ := h c hc
    exact ⟨query, doc, List.mem_append_left _ hasked, hbuilt⟩
  cases hmove with
  | ask query doc =>
      intro c hc
      rcases List.mem_append.mp hc with hc | hc
      · exact hlater c hc
      · rw [List.mem_singleton.mp hc]
        refine ⟨query, doc, by simp, ?_⟩
        cases doc <;> rfl
  | client i c called =>
      intro d hd
      rcases List.mem_or_eq_of_mem_set hd with hd | rfl
      · exact hlater d hd
      · exact hlater c (List.mem_of_getElem? called)
  | pass _ _ idle passive =>
      rw [passive.calls]
      exact hlater
  | _ => exact hlater

/-- The results are handled in the order in which their requests were started. -/
theorem handled_sublist_starts (settings : Settings) (mayWatch : Bool) (as : List Action) :
    ((observe handledAt (start settings mayWatch) as).map Handled.request).Sublist
      ((start settings mayWatch).run as).bridge.starts := by
  have hended := observe_sublist request_handledAt_sublist (start settings mayWatch) as
  rw [← observe_map, ← observe_map] at hended
  rw [(paired_run settings mayWatch as).starts]
  exact hended.trans (List.sublist_append_left _ _)

/-- Requests do not influence one another: in every run of a bridge without a
breaker, each request whose result is handled ends as it would in a new bridge
that has had no other request, with the same result for the same run. Of the
documents only this matters, that the request is a snapshot taken when its client
asked, and whether the user is looking; the editor of the new bridge may differ in
everything else. The editor has been called for these results alone, in the order
in which their requests were started, and each time as by the new bridge. -/
theorem handled_as_alone (settings : Settings) (mayWatch : Bool) (as : List Action)
    (disabled : settings.breakerThreshold ≤ 0) :
    let w := (start settings mayWatch).run as
    let handled := observe handledAt (start settings mayWatch) as
    (∀ h ∈ handled,
      (∃ query doc, Action.ask query doc ∈ as ∧
        h.request = Request.build h.request.id query doc) ∧
      ∀ e : Editor, e.looksAt h.request = h.editor.looksAt h.request →
        w.bridge.delivery h.request.id =
          (Bridge.alone settings mayWatch h.run e h.result).delivery h.request.id) ∧
    (handled.map Handled.request).Sublist w.bridge.starts ∧
    w.bridge.hostCalls =
      handled.flatMap
        (fun h => (Bridge.alone settings mayWatch h.run h.editor h.result).hostCalls) ∧
    ∀ cur, w.phase = .serving → w.bridge.running = some cur →
      ∀ (e e' : Editor) (res : RunResult), e'.looksAt cur.request = e.looksAt cur.request →
        (w.step (.result e res)).bridge.hostCalls =
          w.bridge.hostCalls ++ (Bridge.alone settings mayWatch cur e' res).hostCalls := by
  have halike := alike_run settings mayWatch disabled as
  have hsteady := steady_run settings mayWatch disabled as
  refine ⟨?_, handled_sublist_starts settings mayWatch as, ?_, ?_⟩
  · intro h hh
    constructor
    · have hstarted := (handled_sublist_starts settings mayWatch as).subset (List.mem_map_of_mem hh)
      have happended := ((paired_run settings mayWatch as).starts_sublist
        (sound_run settings mayWatch as)).subset hstarted
      obtain ⟨c, hc, hrequest, -⟩ := (numbered_run settings mayWatch as).past _ happended
      rw [← hrequest]
      exact built_run settings mayWatch as c (List.mem_of_getElem? hc)
    · intro e looks
      obtain ⟨-, hslots⟩ := h.alone_effect mayWatch disabled (halike.valid h hh) looks
      rw [halike.slots h hh, hslots]
  · rw [halike.calls]
    apply List.flatMap_congr
    intro h hh
    obtain ⟨hcalls, -⟩ := h.alone_effect mayWatch disabled (halike.valid h hh) rfl
    exact hcalls.symm
  · intro cur serving running e e' res looks
    obtain ⟨hcalls, -⟩ := Handled.alone_effect ⟨cur, e, res⟩ mayWatch disabled
      (hsteady.valid cur running) looks
    obtain ⟨hstep, -⟩ := effect_result (sound_run settings mayWatch as)
      (numbered_run settings mayWatch as) (queue_sublist_appended settings mayWatch as)
      (served_run settings mayWatch as) hsteady running e res
    simp only [step, serving, if_true, Bridge.result, running]
    rw [hstep, hcalls]

def patient : Settings :=
  { brittle with breakerThreshold := 0 }

def mixedRun : List Action :=
  check 0 ++ .result desk ⟨[], some .noOutput, 0⟩ :: check 1 ++
    [.result desk ⟨"\x7b\"class\":\"return\",\"value\":[]\x7d", none, 0⟩]

/-- Nothing is left of the failure: the second result is handled as if it were the
first. -/
theorem handled_after_failure :
    (patient.breakerThreshold ≤ 0 ∧
      (observe handledAt (start patient false) mixedRun).length = 2) ∧
      ((start patient false).run mixedRun).bridge.hostCalls.length = 3 ∧
      ((start patient false).run mixedRun).bridge.hostCalls =
        (observe handledAt (start patient false) mixedRun).flatMap
          (fun h => (Bridge.alone patient false h.run h.editor h.result).hostCalls) := by
  refine ⟨⟨by decide, by decide +kernel⟩, by decide +kernel, ?_⟩
  exact (handled_as_alone patient false mixedRun (by decide)).2.2.1

end World

end MerlinBridge
