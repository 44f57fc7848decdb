import MerlinBridge.Proofs.Coherence

/-!
# The trial run of a breaker that is half open

When the cooldown of an open breaker has passed, it lets one trial run through
and rejects everything else until that run reports its outcome. A run whose
document is closed while it is under way reports nothing, and neither does one
that is abandoned. If that happens to the trial run (`Ended.isSilentTrial`), then
the breaker waits for its report for good, and no request is sent any more.
Nothing else keeps the bridge from sending the next request once the cooldown
has passed: with nothing under way, the breaker is half open exactly when there
was a silent trial (`Tried`).
-/

namespace MerlinBridge

namespace Breaker

/-- A breaker that is half open has let its trial run through. -/
def Guarded (b : Breaker) : Prop :=
  b.state = .halfOpen → b.trial = true

theorem allow_eq_self (b : Breaker) (now : Int) (h : (b.allow now).2 = false) :
    (b.allow now).1 = b := by
  unfold allow at h ⊢
  split
  · split
    · rfl
    · split <;> simp_all
    · split <;> simp_all
  · rfl

theorem guarded_allow (b : Breaker) (now : Int) (h : b.Guarded) : (b.allow now).1.Guarded := by
  unfold allow
  split
  · split
    · exact h
    · split
      · exact h
      · exact fun _ => rfl
    · split
      · exact h
      · exact fun _ => rfl
  · exact h

theorem limits_allow (b : Breaker) (now : Int) :
    (b.allow now).1.maxFailures = b.maxFailures ∧ (b.allow now).1.cooldown = b.cooldown := by
  unfold allow
  split
  · split
    · exact ⟨rfl, rfl⟩
    · split <;> exact ⟨rfl, rfl⟩
    · split <;> exact ⟨rfl, rfl⟩
  · exact ⟨rfl, rfl⟩

theorem allow_of_halfOpen (b : Breaker) (now : Int) (enabled : b.isEnabled = true)
    (h : b.Guarded) (half : b.state = .halfOpen) : (b.allow now).2 = false := by
  simp [allow, enabled, half, h half]

theorem allow_of_cooled (b : Breaker) (now : Int) (half : b.state ≠ .halfOpen)
    (cooled : b.state = .opened → b.cooldown.toInt ≤ now - b.openedAt) :
    (b.allow now).2 = true := by
  unfold allow
  split
  · split
    · rfl
    · rename_i hopened
      have hcooled := cooled hopened
      have hmax : b.cooldown.toInt < 0x8000000000000000 := b.cooldown.toInt_lt
      have hsince : ¬ since now b.openedAt < b.cooldown.toInt := by
        unfold since
        omega
      simp [hsince]
    · rename_i hhalf
      exact absurd hhalf half
  · rfl

theorem state_report (b : Breaker) (now : Int) (fault : Option Tool.Fault)
    (enabled : b.isEnabled = true) : (b.report now false fault).state ≠ .halfOpen := by
  unfold report
  simp only [Bool.false_eq_true, if_false]
  split
  · simp [success, enabled]
  · unfold failure
    rw [if_pos enabled]
    dsimp only
    split
    · exact nofun
    · rename_i hstays
      exact fun hhalf => hstays (Or.inl hhalf)

theorem guarded_report (b : Breaker) (now : Int) (closed : Bool) (fault : Option Tool.Fault)
    (enabled : b.isEnabled = true) (h : b.Guarded) : (b.report now closed fault).Guarded := by
  cases closed with
  | true => exact h
  | false =>
      intro hhalf
      exact absurd hhalf (b.state_report now fault enabled)

theorem limits_report (b : Breaker) (now : Int) (closed : Bool) (fault : Option Tool.Fault) :
    (b.report now closed fault).maxFailures = b.maxFailures ∧
      (b.report now closed fault).cooldown = b.cooldown := by
  unfold report
  split
  · exact ⟨rfl, rfl⟩
  · split
    · unfold success
      split <;> exact ⟨rfl, rfl⟩
    · unfold failure
      split
      · dsimp only
        split <;> exact ⟨rfl, rfl⟩
      · exact ⟨rfl, rfl⟩

end Breaker

namespace Bridge

/-- A request that must not be sent leaves the breaker as it is. -/
theorem breaker_of_admission {b : Bridge} {r : Request} {breaker : Breaker} {fault : Fault}
    (h : b.admission r = ({ b with breaker := breaker }, some fault)) : breaker = b.breaker := by
  cases hvalid : r.isValid with
  | false =>
      rw [admission_of_not_valid b r hvalid] at h
      exact (congrArg (fun p => p.1.breaker) h).symm
  | true =>
      rw [admission_of_valid b r hvalid] at h
      have hbreaker : (b.breaker.allow b.now).1 = breaker := congrArg (fun p => p.1.breaker) h
      have hrejected : (b.breaker.allow b.now).2 = false := by
        cases hallowed : (b.breaker.allow b.now).2 with
        | false => rfl
        | true =>
            rw [hallowed] at h
            cases congrArg Prod.snd h
      rw [← hbreaker, b.breaker.allow_eq_self b.now hrejected]

/-- A request that may be sent is let through by the breaker. -/
theorem allow_of_admission {b : Bridge} {r : Request} {breaker : Breaker}
    (h : b.admission r = ({ b with breaker := breaker }, none)) :
    b.breaker.allow b.now = (breaker, true) := by
  rw [admission_of_valid b r (isValid_of_admission h)] at h
  have hbreaker : (b.breaker.allow b.now).1 = breaker := congrArg (fun p => p.1.breaker) h
  have hallowed : (b.breaker.allow b.now).2 = true := by
    cases hrejected : (b.breaker.allow b.now).2 with
    | false =>
        rw [hrejected] at h
        cases congrArg Prod.snd h
    | true => rfl
  exact Prod.ext hbreaker hallowed

/-- The breaker of `b` was asked for a run, and either let none through and is as
it was, or it let one through. -/
def Asked (b b' : Bridge) : Prop :=
  (b'.running = none ∧ b'.breaker = b.breaker) ∨
    (b'.running.isSome = true ∧ b.breaker.allow b.now = (b'.breaker, true))

theorem startNext_asked (b : Bridge) (hrunning : b.running = none) (hstate : b.state = .default) :
    Asked b b.startNext := by
  apply startNext_rule
    (P := fun c => c.running = none ∧ c.state = .default ∧ c.breaker = b.breaker ∧ c.now = b.now)
  case h => exact ⟨hrunning, hstate, rfl, rfl⟩
  case stop =>
    rintro c ⟨hc, -, hbreaker, -⟩ -
    exact Or.inl ⟨hc, hbreaker⟩
  case drop =>
    rintro c r breaker fault ⟨hc, hs, hbreaker, hnow⟩ - hadmission
    exact ⟨hc, hs, (breaker_of_admission hadmission).trans hbreaker, hnow⟩
  case start =>
    rintro c r breaker ⟨hc, hs, hbreaker, hnow⟩ - hadmission
    have hcontrol := control_launch { c with breaker := breaker } r hs
    have hrun : (({ c with breaker := breaker }).launch r).running.isSome = true :=
      congrArg (fun d : Bridge => d.running.isSome) hcontrol
    have hlaunched : (({ c with breaker := breaker }).launch r).breaker = breaker :=
      congrArg Bridge.breaker hcontrol
    refine Or.inr ⟨hrun, ?_⟩
    rw [hlaunched, ← hbreaker, ← hnow]
    exact allow_of_admission hadmission

end Bridge

namespace World

/-- A trial run that ended without a word to the breaker: its document was
closed, or it was abandoned. -/
def Ended.isSilentTrial (x : Ended) : Bool :=
  x.breaker.state = .halfOpen && (x.run.closed || x.result.isNone)

structure Tried (settings : Settings) (ended : List Ended) (w : World) : Prop where
  maxFailures : w.bridge.breaker.maxFailures = settings.breakerThreshold
  cooldown : w.bridge.breaker.cooldown = settings.breakerCooldown
  guarded : w.bridge.breaker.Guarded
  idle : w.bridge.running = none →
    (w.bridge.breaker.state = .halfOpen ↔ ended.any Ended.isSilentTrial = true)
  busy : w.bridge.running.isSome = true → ended.any Ended.isSilentTrial = false

namespace Tried

variable {settings : Settings} {ended : List Ended} {w w' : World}

theorem isEnabled (h : Tried settings ended w) (threshold : 0 < settings.breakerThreshold) :
    w.bridge.breaker.isEnabled = true := by
  simp [Breaker.isEnabled, h.maxFailures, threshold]

theorem keep (h : Tried settings ended w) (breaker : w'.bridge.breaker = w.bridge.breaker)
    (running : w'.bridge.running.isSome = w.bridge.running.isSome) :
    Tried settings ended w' := by
  obtain ⟨hmax, hcooldown, hguarded, hidle, hbusy⟩ := h
  refine ⟨?_, ?_, ?_, ?_, ?_⟩
  · rw [breaker, hmax]
  · rw [breaker, hcooldown]
  · rw [breaker]
    exact hguarded
  · intro hnone
    rw [breaker]
    apply hidle
    rw [hnone] at running
    simpa using running.symm
  · rw [running]
    exact hbusy

/-- The next request is started, or none is. A breaker that waits for the report
of a silent trial lets nothing through. -/
theorem ask {b : Bridge} (threshold : 0 < settings.breakerThreshold)
    (h : Tried settings ended { w with bridge := b }) (running : b.running = none)
    (asked : b.Asked w'.bridge) : Tried settings ended w' := by
  rcases asked with ⟨hidle, hbreaker⟩ | ⟨hrunning, hallow⟩
  · exact h.keep hbreaker (by simp [hidle, running])
  · have hnew : w'.bridge.breaker = (b.breaker.allow b.now).1 := by rw [hallow]
    obtain ⟨hmax, hcooldown⟩ := b.breaker.limits_allow b.now
    refine ⟨?_, ?_, ?_, ?_, ?_⟩
    · rw [hnew, hmax, h.maxFailures]
    · rw [hnew, hcooldown, h.cooldown]
    · rw [hnew]
      exact b.breaker.guarded_allow b.now h.guarded
    · intro hnone
      rw [hnone] at hrunning
      cases hrunning
    · intro _
      rw [Bool.eq_false_iff]
      intro hsilent
      have hhalf := (h.idle running).mpr hsilent
      have hrejected := b.breaker.allow_of_halfOpen b.now (h.isEnabled threshold) h.guarded hhalf
      rw [hallow] at hrejected
      cases hrejected

end Tried

theorem tried_start (settings : Settings) (mayWatch : Bool) :
    Tried settings [] (start settings mayWatch) where
  maxFailures := rfl
  cooldown := rfl
  guarded := nofun
  idle := fun _ => by simp [start, Bridge.new]
  busy := fun _ => rfl

/-- The run under way ends with a result. Only the trial run of a breaker that is
half open can be silent, and then the breaker stays half open. -/
theorem tried_complete {settings : Settings} {ended : List Ended} {w : World} {cur : Running}
    (h : Tried settings ended w) (sound : w.Sound) (threshold : 0 < settings.breakerThreshold)
    (running : w.bridge.running = some cur) (e : Editor) (res : RunResult) :
    Tried settings (ended ++ [⟨cur, w.bridge.breaker, some res⟩])
      { w with bridge := w.bridge.complete e cur res } := by
  have hcontrol := Bridge.control_complete w.bridge e cur res (sound.coherent.head cur running)
    (sound.coherent.busy cur running)
  have hbreaker : (w.bridge.complete e cur res).breaker =
      w.bridge.breaker.report w.bridge.now cur.closed res.fault :=
    congrArg Bridge.breaker hcontrol
  have hidle : (w.bridge.complete e cur res).running = none := congrArg Bridge.running hcontrol
  have hclean := h.busy (by rw [running]; rfl)
  obtain ⟨hmax, hcooldown⟩ := w.bridge.breaker.limits_report w.bridge.now cur.closed res.fault
  refine ⟨?_, ?_, ?_, ?_, ?_⟩
  · rw [hbreaker, hmax, h.maxFailures]
  · rw [hbreaker, hcooldown, h.cooldown]
  · rw [hbreaker]
    exact w.bridge.breaker.guarded_report _ _ _ (h.isEnabled threshold) h.guarded
  · intro _
    rw [hbreaker, List.any_append, hclean]
    -- A closed run leaves the breaker as it was, so the breaker is half open if this was its trial.
    cases hclosed : cur.closed with
    | true => simp [Breaker.report, Ended.isSilentTrial, hclosed]
    | false =>
        have hreported := w.bridge.breaker.state_report w.bridge.now res.fault
          (h.isEnabled threshold)
        simp [hreported, Ended.isSilentTrial, hclosed]
  · intro hsome
    rw [hidle] at hsome
    cases hsome

theorem tried_move {settings : Settings} {ended : List Ended} {w w' : World} {a : Action}
    (hmove : Move w a w') (sound : w.Sound) (threshold : 0 < settings.breakerThreshold)
    (h : Tried settings ended w) : Tried settings (ended ++ endedAt w a) w' := by
  cases hmove with
  | ask query doc =>
      simp only [endedAt, List.append_nil]
      exact h.keep rfl rfl
  | client i c called =>
      simp only [endedAt, List.append_nil]
      have hcontrol := Bridge.control_clientStep w.bridge c.request c.stage
      have hbreaker := congrArg Bridge.breaker hcontrol
      have hrunning := congrArg (fun b : Bridge => b.running.isSome) hcontrol
      exact h.keep hbreaker hrunning
  | wake serving =>
      simp only [endedAt, List.append_nil]
      rcases Bridge.wake_cases w.bridge with hsame | hlower | ⟨hidle, hstart⟩
      · rw [hsame]
        exact h
      · rw [hlower]
        exact h.keep rfl rfl
      · rw [hstart]
        have hlowered : Tried settings ended
            { w with bridge := { w.bridge with queue := w.bridge.queue.lower } } := h.keep rfl rfl
        exact hlowered.ask threshold hidle
          (Bridge.startNext_asked _ hidle (sound.rest serving hidle))
  | result e res cur serving running =>
      have hended : endedAt w (.result e res) = [⟨cur, w.bridge.breaker, some res⟩] := by
        simp [endedAt, serving, running]
      have hcontrol := Bridge.control_complete w.bridge e cur res
        (sound.coherent.head cur running) (sound.coherent.busy cur running)
      have hidle := congrArg Bridge.running hcontrol
      have hrest := congrArg Bridge.state hcontrol
      rw [hended]
      exact (tried_complete h sound threshold running e res).ask threshold hidle
        (Bridge.startNext_asked _ hidle hrest)
  | close e doc serving =>
      simp only [endedAt, List.append_nil]
      have hcontrol := Bridge.control_dispatchClose w.bridge e doc
      have hbreaker := congrArg Bridge.breaker hcontrol
      have hrunning := congrArg (fun b : Bridge => b.running.isSome) hcontrol
      exact h.keep hbreaker (hrunning.trans Option.isSome_map)
  | abandon serving dying =>
      simp only [endedAt, serving, dying, and_self, if_true]
      cases hrunning : w.bridge.running with
      | none =>
          rw [Bridge.abandonRun_of_idle w.bridge hrunning, Option.toList_none, List.map_nil,
            List.append_nil]
          exact h.keep rfl rfl
      | some cur =>
          have hclean := h.busy (by rw [hrunning]; rfl)
          rw [Bridge.abandonRun_of_running w.bridge hrunning]
          refine ⟨h.maxFailures, h.cooldown, h.guarded, ?_, ?_⟩
          · intro _
            rw [List.any_append, hclean]
            simp [Ended.isSilentTrial, Bridge.finishRequest, Bridge.updateDelivery, Bridge.emit]
          · intro hbusy
            cases hbusy
  | drain ending =>
      simp only [endedAt, List.append_nil]
      have hcontrol := Bridge.control_failQueued w.bridge .shuttingDown
      have hbreaker := congrArg Bridge.breaker hcontrol
      have hrunning := congrArg (fun b : Bridge => b.running.isSome) hcontrol
      exact h.keep hbreaker hrunning
  | pass _ _ idle passive =>
      obtain ⟨⟨now, tracker, dying, dead, hbridge⟩, -, -, -⟩ := passive
      rw [endedAt_of_idle idle, List.append_nil]
      exact h.keep (by rw [hbridge]) (by rw [hbridge])

theorem tried_run (settings : Settings) (mayWatch : Bool) (as : List Action)
    (threshold : 0 < settings.breakerThreshold) :
    Tried settings (observe endedAt (start settings mayWatch) as)
      ((start settings mayWatch).run as) := by
  refine run_induction _
    (P := fun as w => Tried settings (observe endedAt (start settings mayWatch) as) w)
    (tried_start settings mayWatch) ?_ as
  intro as a w' hmove h
  rw [observe_append_singleton]
  exact tried_move hmove (sound_run settings mayWatch as) threshold h

/-- When nothing is under way and the cooldown has passed since the breaker last
opened, the next request that has a document is sent, unless some trial run of a
breaker that was half open came to its end without a report; from then on every
such request fails. -/
theorem admission_after_cooldown (settings : Settings) (mayWatch : Bool) (as : List Action)
    (r : Request) (threshold : 0 < settings.breakerThreshold)
    (idle : ((start settings mayWatch).run as).bridge.running = none)
    (cooled : ((start settings mayWatch).run as).bridge.breaker.state = .opened →
      settings.breakerCooldown.toInt ≤ ((start settings mayWatch).run as).bridge.now -
        ((start settings mayWatch).run as).bridge.breaker.openedAt)
    (valid : r.isValid = true) :
    (((start settings mayWatch).run as).bridge.admission r).2 =
      if (observe endedAt (start settings mayWatch) as).any Ended.isSilentTrial then
        some .unavailable
      else none := by
  have htried := tried_run settings mayWatch as threshold
  rw [Bridge.admission_of_valid _ r valid]
  by_cases hsilent : (observe endedAt (start settings mayWatch) as).any Ended.isSilentTrial = true
  · have hhalf := (htried.idle idle).mpr hsilent
    have hrejected := Breaker.allow_of_halfOpen _ ((start settings mayWatch).run as).bridge.now
      (htried.isEnabled threshold) htried.guarded hhalf
    simp [hrejected, hsilent]
  · have hhalf := mt (htried.idle idle).mp hsilent
    have hallowed := Breaker.allow_of_cooled _ ((start settings mayWatch).run as).bridge.now hhalf
      (by rw [htried.cooldown]; exact cooled)
    simp [hallowed, hsilent]

def failingRun : List Action :=
  check 0 ++ [.result desk ⟨[], some .noOutput, 0⟩, .elapse 2000000000]

theorem admission_after_failure :
    ((start brittle false).run failingRun).bridge.breaker.state = .opened ∧
      (((start brittle false).run failingRun).bridge.admission
        (Request.build 1 .errors (some page))).2 = none := by
  refine ⟨by decide, ?_⟩
  have hadmission := admission_after_cooldown brittle false failingRun
    (Request.build 1 .errors (some page)) (by decide) (by decide) (by decide) (by decide)
  rw [hadmission]
  decide

/-- The document is closed while the trial run is under way, and twice the
cooldown passes. -/
def wedgingRun : List Action :=
  failingRun ++ check 1 ++
    [.close desk page, .result desk ⟨[], some (.timeout .cancelled), 0⟩, .elapse 2000000000]

/-- A trial run whose document is closed wedges the bridge: nothing is under way
and the cooldown has passed since the breaker opened, but a request that has a
document is not sent. -/
theorem unavailable_after_silent_trial :
    0 < brittle.breakerThreshold ∧
      ((start brittle false).run wedgingRun).phase = .serving ∧
      ((start brittle false).run wedgingRun).bridge.running = none ∧
      brittle.breakerCooldown.toInt ≤ ((start brittle false).run wedgingRun).bridge.now -
        ((start brittle false).run wedgingRun).bridge.breaker.openedAt ∧
      (Request.build 2 .errors (some page)).isValid = true ∧
      (((start brittle false).run wedgingRun).bridge.admission
        (Request.build 2 .errors (some page))).2 = some .unavailable := by
  decide +kernel

end World

end MerlinBridge
