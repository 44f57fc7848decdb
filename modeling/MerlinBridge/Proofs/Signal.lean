import MerlinBridge.Proofs.Pairing

/-!
# The dispatcher is always woken

Signals that nobody has taken yet are one signal, and a signal that comes while
something runs is dropped. That no request is left behind rests on two things:
the client raises the signal after it has appended its request, never before,
and the dispatcher does not stop looking at the queue until it has started a
request or the queue is empty (`Picks`). `Awake` is what both together keep: with
nothing in flight and a request in the queue, the signal is up or about to be
raised.
-/

namespace MerlinBridge

namespace Bridge

def isStalled (b : Bridge) : Bool :=
  b.running.isNone && !b.queue.toList.isEmpty

theorem isStalled_eq_true_iff (b : Bridge) :
    b.isStalled = true ↔ b.running = none ∧ b.queue.toList ≠ [] := by
  simp [isStalled]

theorem Picks.isStalled_eq_false {b b' : Bridge} (h : b.Picks b') : b'.isStalled = false := by
  rcases h.outcome with ⟨-, hempty, -, -⟩ | ⟨r, -, hrunning, -, -, -⟩
  · simp [isStalled, hempty]
  · simp [isStalled, hrunning]

/-- A step that ends no run and adds nothing to the queue stalls nothing. -/
theorem isStalled_of_sublist {b b' : Bridge} (running : b'.inFlight = b.inFlight)
    (waiting : b'.queue.toList.Sublist b.queue.toList) (h : b'.isStalled = true) :
    b.isStalled = true := by
  rw [isStalled_eq_true_iff] at h ⊢
  obtain ⟨hidle, hwaits⟩ := h
  constructor
  · rw [inFlight, inFlight, hidle, Option.map_none] at running
    exact Option.map_eq_none_iff.mp running.symm
  · intro hempty
    rw [hempty] at waiting
    exact hwaits (List.sublist_nil.mp waiting)

theorem isStalled_wake (b : Bridge) (rest : b.running = none → b.state = .default)
    (signal : b.queue.signal = true) : b.wake.isStalled = false := by
  unfold wake
  rw [if_pos signal]
  cases hrunning : b.running with
  | none =>
      have hpicks := startNext_picks { b with queue := b.queue.lower } hrunning (rest hrunning)
      simpa [hrunning] using hpicks.isStalled_eq_false
  | some cur => simp [isStalled]

theorem signal_dispatchClose (b : Bridge) (e : Editor) (doc : Document) :
    (b.dispatchClose e doc).queue.signal = b.queue.signal := by
  have hsignal := congrArg (fun c : Bridge => c.queue.signal) (control_dispatchClose b e doc)
  exact hsignal

end Bridge

namespace World

def IsSignalling (w : World) : Prop :=
  ∃ c ∈ w.calls, c.stage = .appended

/-- While the dispatcher serves the bridge, a request that waits with nothing in
flight has a signal, or one is on its way. -/
def Awake (w : World) : Prop :=
  w.phase = .serving → w.bridge.isStalled = true →
    w.bridge.queue.signal = true ∨ w.IsSignalling

namespace Awake

variable {w w' : World}

theorem of_not_stalled (h : w.bridge.isStalled = false) : w.Awake := by
  intro _ hstalled
  rw [h] at hstalled
  cases hstalled

theorem of_signal (h : w.bridge.queue.signal = true) : w.Awake :=
  fun _ _ => Or.inl h

theorem of_ended (h : w.phase ≠ .serving) : w.Awake :=
  fun hserving => absurd hserving h

/-- A step that stalls nothing, and takes back neither the signal nor a client
that is about to raise it. -/
theorem keep (h : w.Awake) (phase : w'.phase = .serving → w.phase = .serving)
    (stalled : w'.bridge.isStalled = true → w.bridge.isStalled = true)
    (signal : w'.bridge.queue.signal = w.bridge.queue.signal)
    (signalling : w.IsSignalling → w'.IsSignalling) : w'.Awake := by
  intro hserving hstalled
  rw [signal]
  exact (h (phase hserving) (stalled hstalled)).imp_right signalling

end Awake

/-- A client that has not just appended its request takes a step. -/
theorem IsSignalling.advance {w : World} (h : w.IsSignalling) {i : Nat} {c c' : Call}
    (called : w.calls[i]? = some c) (stage : c.stage ≠ .appended) {b : Bridge} :
    ({ w with bridge := b, calls := w.calls.set i c' } : World).IsSignalling := by
  obtain ⟨d, hd, happended⟩ := h
  obtain ⟨j, hj⟩ := List.mem_iff_getElem?.mp hd
  refine ⟨d, List.mem_iff_getElem?.mpr ⟨j, ?_⟩, happended⟩
  refine (getElem?_set_iff called).mpr (Or.inr ⟨?_, hj⟩)
  rintro rfl
  rw [called] at hj
  cases hj
  exact stage happended

theorem awake_client {w : World} (h : w.Awake) (sound : w.Sound) {i : Nat} {c : Call}
    (called : w.calls[i]? = some c) :
    ({ w with
      bridge := (w.bridge.clientStep c.request c.stage).2
      calls := w.calls.set i ⟨c.request, (w.bridge.clientStep c.request c.stage).1⟩ } :
      World).Awake := by
  have hstalled : c.stage ≠ .accepted →
      (w.bridge.clientStep c.request c.stage).2.isStalled = true → w.bridge.isStalled = true :=
    fun hstage => Bridge.isStalled_of_sublist
      (Bridge.inFlight_clientStep w.bridge c.request c.stage)
      (Bridge.toList_clientStep_sublist w.bridge c.request c.stage hstage)
  obtain ⟨r, stage⟩ := c
  cases stage with
  | called =>
      refine h.keep id (hstalled (by simp)) ?_ fun hs => hs.advance called (by simp)
      simp only [Bridge.clientStep]
      split <;> rfl
  | accepted =>
      intro _ _
      refine Or.inr ⟨⟨r, .appended⟩, ?_, rfl⟩
      exact List.mem_iff_getElem?.mpr ⟨i, (getElem?_set_iff called).mpr (Or.inl ⟨rfl, rfl⟩)⟩
  | appended => exact Awake.of_signal rfl
  | signalled =>
      -- A dispatcher that serves the bridge has not let it die, so there is nothing to sweep.
      intro hserving
      have halive : w.bridge.dead = false := by
        rw [Bool.eq_false_iff]
        intro hdead
        have hreturned := sound.dead hdead
        simp [show w.phase = .serving from hserving] at hreturned
      have hsame : (w.bridge.clientStep r .signalled).2 = w.bridge := by
        simp [Bridge.clientStep, Bridge.sweepIfDead, halive]
      refine h.keep id (hstalled (by simp)) ?_ (fun hs => hs.advance called (by simp)) hserving
      simp only [hsame]
  | returned => exact h.keep id (hstalled (by simp)) rfl fun hs => hs.advance called (by simp)

theorem awake_move {w w' : World} {a : Action} (hmove : Move w a w') (sound : w.Sound)
    (h : w.Awake) : w'.Awake := by
  cases hmove with
  | ask query doc =>
      refine h.keep id id rfl ?_
      rintro ⟨c, hc, happended⟩
      exact ⟨c, List.mem_append_left _ hc, happended⟩
  | client i c called => exact awake_client h sound called
  | wake serving =>
      by_cases hsignal : w.bridge.queue.signal = true
      · exact Awake.of_not_stalled (Bridge.isStalled_wake w.bridge (sound.rest serving) hsignal)
      · have hsame : w.bridge.wake = w.bridge := by simp [Bridge.wake, hsignal]
        rw [hsame]
        exact h
  | result e res cur serving running =>
      have hcontrol := Bridge.control_complete w.bridge e cur res
        (sound.coherent.head cur running) (sound.coherent.busy cur running)
      have hpicks := Bridge.startNext_picks (w.bridge.complete e cur res)
        (congrArg Bridge.running hcontrol) (congrArg Bridge.state hcontrol)
      exact Awake.of_not_stalled hpicks.isStalled_eq_false
  | close e doc serving =>
      exact h.keep id
        (Bridge.isStalled_of_sublist (Bridge.inFlight_dispatchClose w.bridge e doc)
          (Bridge.toList_dispatchClose_sublist w.bridge e doc))
        (Bridge.signal_dispatchClose w.bridge e doc) id
  | abandon serving dying => exact Awake.of_ended (by simp)
  | drain ending => exact Awake.of_ended (by simp)
  | pass _ _ idle passive =>
      obtain ⟨⟨now, tracker, dying, dead, hbridge⟩, hcalls, hphase, -⟩ := passive
      refine h.keep ?_ ?_ (by rw [hbridge]) ?_
      · intro hserving
        rcases hphase with hsame | ⟨-, hreturned⟩
        · rw [← hsame, hserving]
        · rw [hreturned] at hserving
          cases hserving
      · rw [hbridge]
        exact id
      · unfold IsSignalling
        rw [hcalls]
        exact id

theorem awake_run (settings : Settings) (mayWatch : Bool) (as : List Action) :
    ((start settings mayWatch).run as).Awake :=
  run_induction (P := fun _ w => w.Awake) _ (Awake.of_not_stalled rfl)
    (fun as _ _ hmove h => awake_move hmove (sound_run settings mayWatch as) h) as

/-- No wake-up is lost, in every run. As long as the dispatcher serves the bridge,
which it does until the bridge is told to stop, a request in the queue with nothing
in flight has a signal that is up, or a client that has appended its request and not
raised the signal yet. And a signal that is up is worth something: once it is taken,
something is in flight or the queue is empty. -/
theorem signal_pending_or_coming (settings : Settings) (mayWatch : Bool) (as : List Action) :
    let w := (start settings mayWatch).run as
    (w.bridge.dying = false → w.phase = .serving) ∧
    (w.phase = .serving → w.bridge.running = none → w.bridge.queue.toList ≠ [] →
      w.bridge.queue.signal = true ∨ ∃ c ∈ w.calls, c.stage = .appended) ∧
    (w.phase = .serving → w.bridge.queue.signal = true →
      (w.step .wake).bridge.running.isSome = true ∨ (w.step .wake).bridge.queue.toList = []) := by
  have hsound := sound_run settings mayWatch as
  refine ⟨serving_of_alive settings mayWatch as, ?_, ?_⟩
  · intro hserving hidle hwaits
    apply awake_run settings mayWatch as hserving
    exact (Bridge.isStalled_eq_true_iff _).mpr ⟨hidle, hwaits⟩
  · intro hserving hsignal
    have hmoves := Bridge.isStalled_wake _ (hsound.rest hserving) hsignal
    simp only [step, hserving, if_true]
    rw [Bridge.isStalled, Bool.and_eq_false_iff] at hmoves
    simpa using hmoves

end World

end MerlinBridge
