import MerlinBridge.Proofs.Delivery
import MerlinBridge.Proofs.Pairing

/-!
# Every request waits or is answered

A request that was handed over is in one of three places in every state of every
run. Before its client appends it nobody has touched its slots; while it is in
the queue, be it in flight or not, its slots are empty; and once it has left the
queue they are full. A request that was refused has full slots as well. The
identity of a request is the number of its call, so what is done to the slots of
one request does not touch those of another.
-/

namespace MerlinBridge

namespace World

/-- The slots of a request are empty until it is appended and as long as it
waits. A request that has left the queue is answered, and so is one that was
never appended because the bridge was ending. -/
structure Served (appended : List Request) (w : World) : Prop where
  fresh : ∀ i, (∀ c : Call, w.calls[i]? = some c → c.stage.isPast = false) →
    w.bridge.delivery i = {}
  waiting : ∀ r ∈ w.bridge.queue.toList, w.bridge.delivery r.id = {}
  answered : ∀ r ∈ appended, r ∈ w.bridge.queue.toList ∨ w.bridge.Delivered r
  handed : ∀ (i : Nat) (c : Call), w.calls[i]? = some c → c.stage.isPast = true →
    c.request ∈ appended ∨ w.bridge.Delivered c.request

namespace Served

variable {appended : List Request} {w w' : World}

theorem dispose (h : Served appended w) (numbered : Numbered appended w)
    (order : w.bridge.queue.toList.Sublist appended) {b : Bridge}
    (disposes : w.bridge.Disposes b) : Served appended { w with bridge := b } := by
  obtain ⟨gone, hsettles, hperm⟩ := disposes
  have hleft : ∀ r ∈ gone, r ∈ w.bridge.queue.toList :=
    fun r hr => hperm.mem_iff.mp (List.mem_append_left _ hr)
  have hstay : ∀ r ∈ b.queue.toList, r ∈ w.bridge.queue.toList :=
    fun r hr => hperm.mem_iff.mp (List.mem_append_right _ hr)
  have hempty : ∀ r ∈ gone, w.bridge.delivery r.id = {} := fun r hr => h.waiting r (hleft r hr)
  -- No request is appended twice, so those that leave and those that stay have different slots.
  have hnodup : ((gone ++ b.queue.toList).map Request.id).Nodup :=
    (hperm.map Request.id).nodup_iff.mpr (numbered.nodup.sublist (order.map Request.id))
  rw [List.map_append, List.nodup_append] at hnodup
  obtain ⟨hgone, -, hdisjoint⟩ := hnodup
  refine ⟨?_, ?_, ?_, ?_⟩
  · intro i hi
    refine (hsettles.others i ?_).trans (h.fresh i hi)
    intro hid
    obtain ⟨r, hr, rfl⟩ := List.mem_map.mp hid
    obtain ⟨c, hc, -, hpast⟩ := numbered.past r (order.subset (hleft r hr))
    rw [hi c hc] at hpast
    cases hpast
  · intro r hr
    refine (hsettles.others r.id ?_).trans (h.waiting r (hstay r hr))
    intro hid
    exact hdisjoint _ hid _ (List.mem_map_of_mem hr) rfl
  · intro r hr
    rcases h.answered r hr with hwaits | hdelivered
    · rcases List.mem_append.mp (hperm.mem_iff.mpr hwaits) with hr | hr
      · exact Or.inr (hsettles.delivered hgone r hr (hempty r hr))
      · exact Or.inl hr
    · exact Or.inr (hsettles.keep hempty hdelivered)
  · intro i c hc hpast
    exact (h.handed i c hc hpast).imp_right (hsettles.keep hempty)

/-- A client takes a step on this side or on that side of the append. -/
theorem advance (h : Served appended w) {i : Nat} {c : Call} (called : w.calls[i]? = some c)
    {s : Stage} (stage : s.isPast = c.stage.isPast) :
    Served appended { w with calls := w.calls.set i ⟨c.request, s⟩ } := by
  refine ⟨?_, h.waiting, h.answered, ?_⟩
  · intro j hj
    apply h.fresh j
    intro d hd
    by_cases hij : i = j
    · subst hij
      rw [called] at hd
      cases hd
      rw [← stage]
      exact hj _ ((getElem?_set_iff called).mpr (Or.inl ⟨rfl, rfl⟩))
    · exact hj d ((getElem?_set_iff called).mpr (Or.inr ⟨hij, hd⟩))
  · intro j d hd hpast
    rcases (getElem?_set_iff called).mp hd with ⟨rfl, rfl⟩ | ⟨-, hd⟩
    · exact h.handed i c called (stage ▸ hpast)
    · exact h.handed j d hd hpast

/-- The slots of a client that has not come to the append are empty. -/
theorem empty (h : Served appended w) {i : Nat} {c : Call} (called : w.calls[i]? = some c)
    (stage : c.stage.isPast = false) : w.bridge.delivery i = {} := by
  apply h.fresh i
  intro d hd
  rw [called] at hd
  cases hd
  exact stage

theorem empty_of_running (h : Served appended w) (sound : w.Sound) {cur : Running}
    (running : w.bridge.running = some cur) : w.bridge.delivery cur.request.id = {} := by
  apply h.waiting
  rw [Queue.toList_eq_cons_of_peek? w.bridge.queue (sound.coherent.head cur running)]
  exact List.mem_cons_self

/-- Where a client went past the append, another one that did not is elsewhere. -/
theorem fresh_set (h : Served appended w) {i : Nat} {c : Call} (called : w.calls[i]? = some c)
    {s : Stage} (stage : s.isPast = true) {j : Nat}
    (hj : ∀ d : Call, (w.calls.set i ⟨c.request, s⟩)[j]? = some d → d.stage.isPast = false) :
    i ≠ j ∧ w.bridge.delivery j = {} := by
  have hij : i ≠ j := by
    rintro rfl
    have hpast := hj _ ((getElem?_set_iff called).mpr (Or.inl ⟨rfl, rfl⟩))
    rw [stage] at hpast
    cases hpast
  refine ⟨hij, h.fresh j ?_⟩
  intro d hd
  exact hj d ((getElem?_set_iff called).mpr (Or.inr ⟨hij, hd⟩))

theorem refuse (h : Served appended w) (numbered : Numbered appended w)
    (order : w.bridge.queue.toList.Sublist appended) {i : Nat} {c : Call}
    (called : w.calls[i]? = some c) (stage : c.stage.isPast = false) (fault : Option Fault) :
    Served appended
      { w with
        bridge := w.bridge.finishRequest c.request fault
        calls := w.calls.set i ⟨c.request, .returned⟩ } := by
  have hid := numbered.ids i c called
  have hempty : w.bridge.delivery c.request.id = {} := by
    rw [hid]
    exact h.empty called stage
  have hsettles : Bridge.Settles [c.request] w.bridge (w.bridge.finishRequest c.request fault) :=
    Bridge.Settles.finishRequest (Bridge.Touches.of_eq c.request rfl) fault
  have hothers : ∀ j, i ≠ j →
      (w.bridge.finishRequest c.request fault).delivery j = w.bridge.delivery j := by
    intro j hij
    apply hsettles.others
    simp only [List.map_singleton, List.mem_singleton, hid]
    exact fun hji => hij hji.symm
  have hkeep : ∀ r, w.bridge.Delivered r →
      (w.bridge.finishRequest c.request fault).Delivered r := by
    intro r
    apply hsettles.keep
    intro s hs
    rw [List.mem_singleton.mp hs]
    exact hempty
  refine ⟨?_, ?_, ?_, ?_⟩
  · intro j hj
    obtain ⟨hij, hfresh⟩ := h.fresh_set called rfl hj
    exact (hothers j hij).trans hfresh
  · intro r hr
    refine (hothers r.id ?_).trans (h.waiting r hr)
    rintro rfl
    exact numbered.notMem called stage (List.mem_map_of_mem (order.subset hr))
  · intro r hr
    exact (h.answered r hr).imp_right (hkeep r)
  · intro j d hd hpast
    rcases (getElem?_set_iff called).mp hd with ⟨rfl, rfl⟩ | ⟨-, hd⟩
    · exact Or.inr (hsettles.delivered (by simp) _ List.mem_cons_self hempty)
    · exact (h.handed j d hd hpast).imp_right (hkeep _)

theorem push (h : Served appended w) (numbered : Numbered appended w) {i : Nat} {c : Call}
    (called : w.calls[i]? = some c) (stage : c.stage.isPast = false) {b : Bridge}
    (delivery : b.delivery = w.bridge.delivery)
    (queue : b.queue.toList = w.bridge.queue.toList ++ [c.request]) :
    Served (appended ++ [c.request])
      { w with bridge := b, calls := w.calls.set i ⟨c.request, .appended⟩ } := by
  have hid := numbered.ids i c called
  have hdelivered : ∀ r, w.bridge.Delivered r → b.Delivered r :=
    fun r hr => hr.congr (by rw [delivery])
  refine ⟨?_, ?_, ?_, ?_⟩
  · intro j hj
    change b.delivery j = {}
    rw [delivery]
    exact (h.fresh_set called rfl hj).2
  · intro r hr
    change r ∈ b.queue.toList at hr
    change b.delivery r.id = {}
    rw [queue] at hr
    rw [delivery]
    rcases List.mem_append.mp hr with hr | hr
    · exact h.waiting r hr
    · rw [List.mem_singleton.mp hr, hid]
      exact h.empty called stage
  · intro r hr
    change r ∈ b.queue.toList ∨ b.Delivered r
    rw [queue]
    rcases List.mem_append.mp hr with hr | hr
    · exact (h.answered r hr).imp (List.mem_append_left _) (hdelivered r)
    · exact Or.inl (List.mem_append_right _ hr)
  · intro j d hd hpast
    rcases (getElem?_set_iff called).mp hd with ⟨rfl, rfl⟩ | ⟨-, hd⟩
    · exact Or.inl (List.mem_append_right _ List.mem_cons_self)
    · exact (h.handed j d hd hpast).imp (List.mem_append_left _) (hdelivered _)

end Served

theorem served_start (settings : Settings) (mayWatch : Bool) :
    Served [] (start settings mayWatch) where
  fresh := fun _ _ => rfl
  waiting := by simp [start, Bridge.new, Queue.toList]
  answered := nofun
  handed := by simp [start]

theorem served_client {appended : List Request} {w : World} (h : Served appended w)
    (numbered : Numbered appended w) (order : w.bridge.queue.toList.Sublist appended) {i : Nat}
    {c : Call} (called : w.calls[i]? = some c) :
    Served (appended ++ appendedAt w (.client i))
      { w with
        bridge := (w.bridge.clientStep c.request c.stage).2
        calls := w.calls.set i ⟨c.request, (w.bridge.clientStep c.request c.stage).1⟩ } := by
  obtain ⟨r, stage⟩ := c
  rw [appendedAt_client w i called]
  cases stage with
  | called =>
      simp only [reduceCtorEq, if_false, List.append_nil, Bridge.clientStep]
      split
      · exact h.refuse numbered order called rfl (some .shuttingDown)
      · exact h.advance called rfl
  | accepted =>
      simp only [if_true]
      exact h.push numbered called rfl rfl (Queue.toList_append _ _)
  | appended =>
      simp only [reduceCtorEq, if_false, List.append_nil]
      have hsignal := h.dispose numbered order
        (b := w.bridge.raiseSignal) (Bridge.Disposes.of_eq rfl rfl)
      exact hsignal.advance called rfl
  | signalled =>
      simp only [reduceCtorEq, if_false, List.append_nil]
      have hsweep : w.bridge.Disposes w.bridge.sweepIfDead := by
        unfold Bridge.sweepIfDead
        split
        · exact Bridge.disposes_failQueued w.bridge .shuttingDown
        · exact Bridge.Disposes.refl w.bridge
      exact (h.dispose numbered order hsweep).advance called rfl
  | returned =>
      simp only [reduceCtorEq, if_false, List.append_nil]
      exact h.advance called rfl

theorem served_move {appended : List Request} {w w' : World} {a : Action} (hmove : Move w a w')
    (sound : w.Sound) (numbered : Numbered appended w)
    (order : w.bridge.queue.toList.Sublist appended) (h : Served appended w) :
    Served (appended ++ appendedAt w a) w' := by
  cases hmove with
  | ask query doc =>
      simp only [appendedAt, List.append_nil]
      refine ⟨?_, h.waiting, h.answered, ?_⟩
      · intro i hi
        apply h.fresh i
        intro c hc
        have hlt := (List.getElem?_eq_some_iff.mp hc).1
        exact hi c (by rw [List.getElem?_append_left hlt, hc])
      · intro i c hc hpast
        rw [List.getElem?_append] at hc
        split at hc
        · exact h.handed i c hc hpast
        · obtain ⟨hi, rfl⟩ := List.getElem?_eq_some_iff.mp hc
          rw [List.getElem_singleton] at hpast
          cases hpast
  | client i c called => exact served_client h numbered order called
  | wake serving =>
      simp only [appendedAt, List.append_nil]
      exact h.dispose numbered order (Bridge.disposes_wake w.bridge (sound.rest serving))
  | result e res cur serving running =>
      simp only [appendedAt, List.append_nil]
      have hhead := sound.coherent.head cur running
      have hbusy := sound.coherent.busy cur running
      have hcontrol := Bridge.control_complete w.bridge e cur res hhead hbusy
      have hcomplete := Bridge.disposes_complete w.bridge e cur res hhead hbusy
      exact h.dispose numbered order
        (hcomplete.trans (Bridge.disposes_startNext _ (congrArg Bridge.state hcontrol)))
  | close e doc serving =>
      simp only [appendedAt, List.append_nil]
      exact h.dispose numbered order (Bridge.disposes_dispatchClose w.bridge e doc)
  | abandon serving dying =>
      simp only [appendedAt, List.append_nil]
      have hserved := h.dispose numbered order
        (Bridge.disposes_abandonRun w.bridge sound.coherent.head)
      exact ⟨hserved.fresh, hserved.waiting, hserved.answered, hserved.handed⟩
  | drain ending =>
      simp only [appendedAt, List.append_nil]
      have hserved := h.dispose numbered order
        (Bridge.disposes_failQueued w.bridge .shuttingDown)
      exact ⟨hserved.fresh, hserved.waiting, hserved.answered, hserved.handed⟩
  | pass _ _ idle passive =>
      obtain ⟨⟨now, tracker, dying, dead, hbridge⟩, hcalls, -, -⟩ := passive
      rw [appendedAt_of_idle idle, List.append_nil]
      have hserved := h.dispose numbered order (b := w'.bridge)
        (by rw [hbridge]; exact Bridge.Disposes.of_eq rfl rfl)
      refine ⟨?_, hserved.waiting, hserved.answered, ?_⟩
      · rw [hcalls]
        exact hserved.fresh
      · rw [hcalls]
        exact hserved.handed

theorem served_run (settings : Settings) (mayWatch : Bool) (as : List Action) :
    Served (observe appendedAt (start settings mayWatch) as)
      ((start settings mayWatch).run as) := by
  refine run_induction _
    (P := fun as w => Served (observe appendedAt (start settings mayWatch) as) w)
    (served_start settings mayWatch) ?_ as
  intro as a w' hmove h
  rw [observe_append_singleton]
  exact served_move hmove (sound_run settings mayWatch as) (numbered_run settings mayWatch as)
    (queue_sublist_appended settings mayWatch as) h

end World

end MerlinBridge
