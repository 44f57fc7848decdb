import MerlinBridge.Proofs.Service

/-!
# What becomes of requests when the bridge ends

As long as the dispatcher serves the bridge, a request that was appended waits in
the queue or has been answered, and when the dispatcher ends it answers all that
wait. A client may still append its request afterwards, if it had looked before
the bridge was told to stop. Once the bridge is dead such a client takes care of
the queue itself, but between the end of the dispatcher and that moment nobody
does: a request that comes late (`lateAt`) stays in the queue, unless some client
takes its last step on the dead bridge and sweeps the queue (`sweptAt`).
-/

namespace MerlinBridge

namespace World

/-- The request that is appended after the dispatcher is done with the queue and
before the bridge is dead. -/
def lateAt (w : World) (a : Action) : List Request :=
  if w.phase.isDrained && !w.bridge.dead then appendedAt w a else []

def sweptAt (w : World) : Action → List Request
  | .client i =>
      match w.calls[i]? with
      | some ⟨r, .signalled⟩ => if w.bridge.dead then [r] else []
      | _ => []
  | _ => []

theorem lateAt_eq_nil {w : World} {a : Action} (h : appendedAt w a = []) : lateAt w a = [] := by
  unfold lateAt
  rw [h, ite_self]

theorem sweptAt_of_idle {w : World} {a : Action} (h : w.Idle a) : sweptAt w a = [] := by
  cases a with
  | client i =>
      have hnone : w.calls[i]? = none := h
      simp only [sweptAt, hnone]
  | _ => rfl

theorem sweptAt_client (w : World) (i : Nat) {c : Call} (h : w.calls[i]? = some c) :
    sweptAt w (.client i) =
      if c.stage = .signalled ∧ w.bridge.dead = true then [c.request] else [] := by
  obtain ⟨r, s⟩ := c
  cases s <;> simp [sweptAt, h]

def closing : List Action :=
  [.kill, .abandon, .drain, .leave, .die]

theorem bridge_run_closing (w : World) (serving : w.phase = .serving) (watchers : w.watchers = 0)
    (alive : w.bridge.dead = false) : (w.run closing).bridge = w.bridge.shutdown := by
  have habandoned := (Bridge.frame_abandonRun w.bridge.kill).dead_eq
  have hdrained := congrArg Bridge.dead
    (Bridge.control_failQueued w.bridge.kill.abandonRun .shuttingDown)
  have hdead : (w.bridge.kill.abandonRun.failQueued .shuttingDown).dead = false :=
    (hdrained.trans habandoned).trans alive
  have hdying : w.bridge.kill.dying = true := rfl
  simp [closing, run_cons, step, serving, watchers, hdying, hdead, Bridge.shutdown,
    Bridge.windDown, alive]

/-! ## What is left in a queue that was drained -/

/-- What is in the queue after the dispatcher is done with it came late and was
not swept, or its client has not taken its last step on the dead bridge. What
came late stays in the queue until a client sweeps it. -/
structure Leftover (late swept : List Request) (w : World) : Prop where
  punctual : w.phase.isDrained = false → late = []
  alive : w.bridge.dead = false → swept = []
  found : w.phase.isDrained = true → ∀ r ∈ w.bridge.queue.toList,
    (r ∈ late ∧ swept = []) ∨
      (w.bridge.dead = true ∧ ∃ (i : Nat) (s : Stage),
        w.calls[i]? = some ⟨r, s⟩ ∧ (s = .appended ∨ s = .signalled))
  stuck : swept = [] → ∀ r ∈ late, r ∈ w.bridge.queue.toList

namespace Leftover

variable {late swept : List Request} {w w' : World}

theorem of_not_drained (h : w.phase.isDrained = false) : Leftover [] [] w := by
  refine ⟨fun _ => rfl, fun _ => rfl, ?_, nofun⟩
  intro hdrained
  rw [h] at hdrained
  cases hdrained

theorem of_empty (h : w.bridge.queue.toList = []) : Leftover [] [] w := by
  refine ⟨fun _ => rfl, fun _ => rfl, ?_, nofun⟩
  intro _ r hr
  rw [h] at hr
  cases hr

/-- As long as the dispatcher serves the bridge or has not drained its queue,
nothing is late and nobody has swept. -/
theorem eq_nil (h : Leftover late swept w) (sound : w.Sound) (drained : w.phase.isDrained = false) :
    late = [] ∧ swept = [] := by
  refine ⟨h.punctual drained, h.alive ?_⟩
  rw [Bool.eq_false_iff]
  intro hdead
  rw [sound.dead hdead] at drained
  cases drained

/-- A client takes a step other than the append and the sweep. -/
theorem advance (h : Leftover late swept w) {i : Nat} {c : Call} (called : w.calls[i]? = some c)
    {s : Stage} (appended : c.stage = .appended → s = .signalled)
    (signalled : c.stage = .signalled → w.bridge.dead = false) {b : Bridge}
    (dead : b.dead = w.bridge.dead) (queue : b.queue.toList = w.bridge.queue.toList) :
    Leftover late swept { w with bridge := b, calls := w.calls.set i ⟨c.request, s⟩ } := by
  refine ⟨h.punctual, ?_, ?_, ?_⟩
  · intro hdead
    exact h.alive (dead ▸ hdead)
  · intro hdrained r hr
    change r ∈ b.queue.toList at hr
    change (r ∈ late ∧ swept = []) ∨ (b.dead = true ∧ _)
    rw [queue] at hr
    rw [dead]
    rcases h.found hdrained r hr with hlate | ⟨hdead, j, t, hj, ht⟩
    · exact Or.inl hlate
    · refine Or.inr ⟨hdead, ?_⟩
      by_cases hij : i = j
      · subst hij
        rw [called] at hj
        cases hj
        rcases ht with ht | ht
        · exact ⟨i, s, (getElem?_set_iff called).mpr (Or.inl ⟨rfl, rfl⟩), Or.inr (appended ht)⟩
        · rw [signalled ht] at hdead
          cases hdead
      · exact ⟨j, t, (getElem?_set_iff called).mpr (Or.inr ⟨hij, hj⟩), ht⟩
  · intro hswept r hr
    change r ∈ b.queue.toList
    rw [queue]
    exact h.stuck hswept r hr

/-- A client appends its request. It is late if the dispatcher is done with the
queue, unless the bridge is dead, in which case the client is going to sweep. -/
theorem push (h : Leftover late swept w) {i : Nat} {c : Call} (called : w.calls[i]? = some c)
    (stage : c.stage = .accepted) {b : Bridge} (dead : b.dead = w.bridge.dead)
    (queue : b.queue.toList = w.bridge.queue.toList ++ [c.request]) :
    Leftover (late ++ lateAt w (.client i)) swept
      { w with bridge := b, calls := w.calls.set i ⟨c.request, .appended⟩ } := by
  have hlate : lateAt w (.client i) =
      if w.phase.isDrained && !w.bridge.dead then [c.request] else [] := by
    unfold lateAt
    rw [appendedAt_client w i called, if_pos stage]
  refine ⟨?_, ?_, ?_, ?_⟩
  · intro hdrained
    change w.phase.isDrained = false at hdrained
    rw [h.punctual hdrained, hlate, hdrained]
    rfl
  · intro hdead
    exact h.alive (dead ▸ hdead)
  · intro hdrained r hr
    change w.phase.isDrained = true at hdrained
    change r ∈ b.queue.toList at hr
    change (_ ∧ swept = []) ∨ (b.dead = true ∧ _)
    rw [queue] at hr
    rw [dead]
    rcases List.mem_append.mp hr with hr | hr
    · rcases h.found hdrained r hr with ⟨hin, hswept⟩ | ⟨hdead, j, t, hj, ht⟩
      · exact Or.inl ⟨List.mem_append_left _ hin, hswept⟩
      · refine Or.inr ⟨hdead, j, t, (getElem?_set_iff called).mpr (Or.inr ⟨?_, hj⟩), ht⟩
        rintro rfl
        rw [called] at hj
        cases hj
        cases stage
        simp at ht
    · rw [List.mem_singleton.mp hr]
      cases hdead : w.bridge.dead with
      | false =>
          refine Or.inl ⟨List.mem_append_right _ ?_, h.alive hdead⟩
          simp [hlate, hdrained, hdead]
      | true =>
          exact Or.inr ⟨rfl, i, .appended, (getElem?_set_iff called).mpr (Or.inl ⟨rfl, rfl⟩),
            Or.inl rfl⟩
  · intro hswept r hr
    change r ∈ b.queue.toList
    rw [queue]
    rcases List.mem_append.mp hr with hr | hr
    · exact List.mem_append_left _ (h.stuck hswept r hr)
    · rw [hlate] at hr
      split at hr
      · exact List.mem_append_right _ hr
      · cases hr

end Leftover

theorem leftover_client {late swept : List Request} {w : World} (h : Leftover late swept w)
    {i : Nat} {c : Call} (called : w.calls[i]? = some c) :
    Leftover (late ++ lateAt w (.client i)) (swept ++ sweptAt w (.client i))
      { w with
        bridge := (w.bridge.clientStep c.request c.stage).2
        calls := w.calls.set i ⟨c.request, (w.bridge.clientStep c.request c.stage).1⟩ } := by
  have happended := appendedAt_client w i called
  rw [sweptAt_client w i called]
  obtain ⟨r, stage⟩ := c
  cases stage with
  | called =>
      rw [lateAt_eq_nil (by simpa using happended)]
      simp only [reduceCtorEq, false_and, if_false, List.append_nil, Bridge.clientStep]
      split
      · exact h.advance called (by simp) (by simp) rfl rfl
      · exact h.advance called (by simp) (by simp) rfl rfl
  | accepted =>
      simp only [reduceCtorEq, false_and, if_false, List.append_nil]
      exact h.push called rfl rfl (Queue.toList_append _ _)
  | appended =>
      rw [lateAt_eq_nil (by simpa using happended)]
      simp only [reduceCtorEq, false_and, if_false, List.append_nil]
      exact h.advance called (fun _ => rfl) (by simp) rfl rfl
  | signalled =>
      rw [lateAt_eq_nil (by simpa using happended)]
      simp only [true_and, List.append_nil, Bridge.clientStep, Bridge.sweepIfDead]
      by_cases hdead : w.bridge.dead = true
      · rw [if_pos hdead, if_pos hdead]
        have hfailed := congrArg Bridge.dead (Bridge.control_failQueued w.bridge .shuttingDown)
        change (w.bridge.failQueued .shuttingDown).dead = w.bridge.dead at hfailed
        refine ⟨h.punctual, ?_, ?_, ?_⟩
        · intro halive
          change (w.bridge.failQueued .shuttingDown).dead = false at halive
          rw [hfailed, hdead] at halive
          cases halive
        · intro _ s hs
          rw [Bridge.toList_failQueued] at hs
          cases hs
        · intro hswept
          simp at hswept
      · rw [if_neg hdead, if_neg hdead, List.append_nil]
        exact h.advance called (by simp) (fun _ => Bool.eq_false_iff.mpr hdead) rfl rfl
  | returned =>
      rw [lateAt_eq_nil (by simpa using happended)]
      simp only [reduceCtorEq, false_and, if_false, List.append_nil]
      exact h.advance called (by simp) (by simp) rfl rfl

theorem leftover_move {late swept : List Request} {w w' : World} {a : Action}
    (hmove : Move w a w') (sound : w.Sound) (h : Leftover late swept w) :
    Leftover (late ++ lateAt w a) (swept ++ sweptAt w a) w' := by
  cases hmove with
  | ask query doc =>
      rw [lateAt_eq_nil rfl, List.append_nil, sweptAt, List.append_nil]
      · refine ⟨h.punctual, h.alive, ?_, h.stuck⟩
        intro hdrained r hr
        refine (h.found hdrained r hr).imp_right ?_
        rintro ⟨hdead, i, s, hi, hs⟩
        have hlt := (List.getElem?_eq_some_iff.mp hi).1
        exact ⟨hdead, i, s, by rw [List.getElem?_append_left hlt, hi], hs⟩
      · exact nofun
  | client i c called => exact leftover_client h called
  | wake serving =>
      obtain ⟨rfl, rfl⟩ := h.eq_nil sound (by rw [serving]; rfl)
      rw [lateAt_eq_nil rfl]
      exact Leftover.of_not_drained (by rw [serving]; rfl)
  | result e res cur serving running =>
      obtain ⟨rfl, rfl⟩ := h.eq_nil sound (by rw [serving]; rfl)
      rw [lateAt_eq_nil rfl]
      exact Leftover.of_not_drained (by rw [serving]; rfl)
  | close e doc serving =>
      obtain ⟨rfl, rfl⟩ := h.eq_nil sound (by rw [serving]; rfl)
      rw [lateAt_eq_nil rfl]
      exact Leftover.of_not_drained (by rw [serving]; rfl)
  | abandon serving dying =>
      obtain ⟨rfl, rfl⟩ := h.eq_nil sound (by rw [serving]; rfl)
      rw [lateAt_eq_nil rfl]
      exact Leftover.of_not_drained rfl
  | drain ending =>
      obtain ⟨rfl, rfl⟩ := h.eq_nil sound (by rw [ending]; rfl)
      rw [lateAt_eq_nil rfl]
      exact Leftover.of_empty (Bridge.toList_failQueued w.bridge .shuttingDown)
  | pass _ _ idle passive =>
      obtain ⟨⟨now, tracker, dying, dead, hbridge⟩, hcalls, hphase, hdead⟩ := passive
      have hqueue : w'.bridge.queue.toList = w.bridge.queue.toList := by rw [hbridge]
      have hdrained : w'.phase.isDrained = w.phase.isDrained := by
        rcases hphase with hsame | ⟨hdrained, hreturned⟩
        · rw [hsame]
        · rw [hdrained, hreturned]
          rfl
      have hdies : w.bridge.dead = true → w'.bridge.dead = true := by
        intro hw
        rcases hdead with hsame | ⟨hdead, -⟩
        · rw [hsame, hw]
        · exact hdead
      rw [lateAt_eq_nil (appendedAt_of_idle idle), sweptAt_of_idle idle, List.append_nil,
        List.append_nil]
      refine ⟨?_, ?_, ?_, ?_⟩
      · rw [hdrained]
        exact h.punctual
      · intro halive
        apply h.alive
        rw [Bool.eq_false_iff]
        intro hw
        rw [hdies hw] at halive
        cases halive
      · rw [hdrained, hqueue, hcalls]
        intro hd r hr
        exact (h.found hd r hr).imp_right fun hcall => ⟨hdies hcall.1, hcall.2⟩
      · rw [hqueue]
        exact h.stuck

theorem leftover_run (settings : Settings) (mayWatch : Bool) (as : List Action) :
    Leftover (observe lateAt (start settings mayWatch) as)
      (observe sweptAt (start settings mayWatch) as) ((start settings mayWatch).run as) := by
  refine run_induction _ (P := fun as w => Leftover (observe lateAt (start settings mayWatch) as)
    (observe sweptAt (start settings mayWatch) as) w) (Leftover.of_not_drained rfl) ?_ as
  intro as a w' hmove h
  rw [observe_append_singleton, observe_append_singleton]
  exact leftover_move hmove (sound_run settings mayWatch as) h

/-! ## Who is answered in the end -/

theorem lateAt_sublist (w : World) (a : Action) : (lateAt w a).Sublist (appendedAt w a) := by
  unfold lateAt
  split
  · exact List.Sublist.refl _
  · exact List.nil_sublist _

/-- On a dead bridge, once all clients are done, the requests in the queue are
those that came late and were not swept. -/
theorem Leftover.mem_queue_iff {late swept : List Request} {w : World}
    (h : Leftover late swept w) (sound : w.Sound) (dead : w.bridge.dead = true)
    (done : ∀ c ∈ w.calls, c.stage = .returned) (r : Request) :
    r ∈ w.bridge.queue.toList ↔ r ∈ late ∧ swept = [] := by
  refine ⟨?_, fun hlate => h.stuck hlate.2 r hlate.1⟩
  intro hr
  have hdrained : w.phase.isDrained = true := by
    rw [sound.dead dead]
    rfl
  rcases h.found hdrained r hr with hlate | ⟨-, i, s, hi, hs⟩
  · exact hlate
  · have hreturned : s = .returned := done ⟨r, s⟩ (List.mem_of_getElem? hi)
    rw [hreturned] at hs
    simp at hs

/-- Once all clients are done, a request is answered unless it is in the
queue. -/
theorem Served.delivered_iff {appended : List Request} {w : World} (h : Served appended w)
    (done : ∀ c ∈ w.calls, c.stage = .returned) {c : Call} (hc : c ∈ w.calls) :
    w.bridge.Delivered c.request ↔ c.request ∉ w.bridge.queue.toList := by
  refine ⟨fun hdelivered hwaits => hdelivered.ne_empty (h.waiting _ hwaits), ?_⟩
  intro hleft
  obtain ⟨i, hi⟩ := List.mem_iff_getElem?.mp hc
  have hpast : c.stage.isPast = true := by
    rw [done c hc]
    rfl
  rcases h.handed i c hi hpast with happended | hdelivered
  · exact (h.answered _ happended).resolve_left hleft
  · exact hdelivered

theorem exists_call_of_late (settings : Settings) (mayWatch : Bool) (as : List Action)
    {r : Request} (h : r ∈ observe lateAt (start settings mayWatch) as) :
    ∃ c ∈ ((start settings mayWatch).run as).calls, c.request = r := by
  have happended := (observe_sublist lateAt_sublist (start settings mayWatch) as).subset h
  obtain ⟨c, hc, hrequest, -⟩ := (numbered_run settings mayWatch as).past r happended
  exact ⟨c, List.mem_of_getElem? hc, hrequest⟩

/-- When the bridge is dead and all clients are done, a request has been answered
unless it came late and no client swept the queue. So all requests have been
answered exactly if none was late or some client took its last step on the dead
bridge. -/
theorem delivered_iff_not_late (settings : Settings) (mayWatch : Bool) (as : List Action)
    (dead : ((start settings mayWatch).run as).bridge.dead = true)
    (done : ∀ c ∈ ((start settings mayWatch).run as).calls, c.stage = .returned) :
    (∀ c ∈ ((start settings mayWatch).run as).calls,
      ((start settings mayWatch).run as).bridge.Delivered c.request ↔
        c.request ∉ observe lateAt (start settings mayWatch) as ∨
          observe sweptAt (start settings mayWatch) as ≠ []) ∧
    ((∀ c ∈ ((start settings mayWatch).run as).calls,
        ((start settings mayWatch).run as).bridge.Delivered c.request) ↔
      observe lateAt (start settings mayWatch) as = [] ∨
        observe sweptAt (start settings mayWatch) as ≠ []) := by
  have hserved := served_run settings mayWatch as
  have hleft := (leftover_run settings mayWatch as).mem_queue_iff
    (sound_run settings mayWatch as) dead done
  have heach : ∀ c ∈ ((start settings mayWatch).run as).calls,
      ((start settings mayWatch).run as).bridge.Delivered c.request ↔
        c.request ∉ observe lateAt (start settings mayWatch) as ∨
          observe sweptAt (start settings mayWatch) as ≠ [] := by
    intro c hc
    rw [hserved.delivered_iff done hc, hleft, not_and_or]
  refine ⟨heach, ?_, ?_⟩
  · intro hall
    by_cases hswept : observe sweptAt (start settings mayWatch) as = []
    · left
      rw [List.eq_nil_iff_forall_not_mem]
      intro r hr
      obtain ⟨c, hc, rfl⟩ := exists_call_of_late settings mayWatch as hr
      exact ((heach c hc).mp (hall c hc)).elim (fun hin => hin hr) (fun hne => hne hswept)
    · exact Or.inr hswept
  · rintro (hnil | hswept) c hc
    · exact (heach c hc).mpr (Or.inl (by simp [hnil]))
    · exact (heach c hc).mpr (Or.inr hswept)

/-- A client looks, the bridge is told to stop and the dispatcher ends. Then the
client appends its request and raises the signal. -/
def lateRun : List Action :=
  [.ask .errors (some page), .client 0, .kill, .abandon, .drain, .leave, .client 0, .client 0]

/-- If the bridge is dead before the client takes its last step, the client sweeps
the queue and its request is answered. -/
theorem delivered_of_last_step :
    ((start brittle false).run (lateRun ++ [.die, .client 0])).bridge.dead = true ∧
      observe lateAt (start brittle false) (lateRun ++ [.die, .client 0]) =
        [Request.build 0 .errors (some page)] ∧
      ∀ c ∈ ((start brittle false).run (lateRun ++ [.die, .client 0])).calls,
        ((start brittle false).run (lateRun ++ [.die, .client 0])).bridge.Delivered c.request := by
  refine ⟨by decide +kernel, by decide +kernel, ?_⟩
  have hiff := delivered_iff_not_late brittle false (lateRun ++ [.die, .client 0])
    (by decide +kernel) (by decide +kernel)
  exact hiff.2.mpr (Or.inr (by decide +kernel))

/-- If the client takes its last step first, its request stays in the queue of the
dead bridge, and is never answered. -/
theorem undelivered_of_late :
    ((start brittle false).run (lateRun ++ [.client 0, .die])).bridge.dead = true ∧
      (∀ c ∈ ((start brittle false).run (lateRun ++ [.client 0, .die])).calls,
        c.stage = .returned) ∧
      ∃ c ∈ ((start brittle false).run (lateRun ++ [.client 0, .die])).calls,
        ¬ ((start brittle false).run (lateRun ++ [.client 0, .die])).bridge.Delivered
          c.request := by
  refine ⟨by decide +kernel, by decide +kernel,
    ⟨Request.build 0 .errors (some page), .returned⟩, by decide +kernel, ?_⟩
  intro hdelivered
  exact hdelivered.ne_empty (by decide +kernel)

end World

end MerlinBridge
