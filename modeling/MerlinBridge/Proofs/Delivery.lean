import MerlinBridge.Proofs.Turn

/-!
# What becomes of the slots of a request

A request that leaves the queue is finished in the same action, so it is in the
queue with empty slots or out of it with full ones. `Settles rs b b'` says that
the requests `rs` were finished between `b` and `b'` and that no other slot was
touched. `Disposes b b'` adds that `rs` are exactly those that left the queue;
it is what every action of the dispatcher does.
-/

namespace MerlinBridge

namespace OneShot

variable {α : Type}

/-- The one value has been delivered and is there to be taken. -/
def Held (o : OneShot α) : Prop :=
  ∃ a, o = ⟨true, .full a⟩

theorem not_held_empty : ¬ ({} : OneShot α).Held := by
  rintro ⟨a, h⟩
  cases h

theorem held_fire_empty (a : α) : (({} : OneShot α).fire a).1.Held :=
  ⟨a, rfl⟩

theorem fire_of_held {o : OneShot α} (h : o.Held) (a : α) : (o.fire a).1 = o := by
  obtain ⟨b, rfl⟩ := h
  rfl

theorem held_fire {o : OneShot α} (h : o = {} ∨ o.Held) (a : α) : (o.fire a).1.Held := by
  rcases h with rfl | h
  · exact held_fire_empty a
  · rw [fire_of_held h]
    exact h

end OneShot

namespace Delivery

variable {ε : Type}

/-- The outcome is delivered, and the result too if there is to be one. -/
structure Holds (d : Delivery ε) (completionStart : Option Int64) : Prop where
  done : d.done.Held
  result : completionStart.isSome = true → d.result.Held

/-- To finish a request fills its slots, also if its result is there already. -/
theorem holds_finish {d : Delivery ε} (done : d.done = {}) (result : d.result = {} ∨ d.result.Held)
    (completionStart : Option Int64) (error : Option ε) :
    (d.finish completionStart error).Holds completionStart := by
  have hopen : d.done.fired = false := by rw [done]
  unfold finish
  rw [hopen, if_neg (by decide)]
  cases completionStart with
  | none =>
      refine ⟨?_, nofun⟩
      simp only [done]
      exact OneShot.held_fire_empty error
  | some start =>
      refine ⟨?_, fun _ => OneShot.held_fire result _⟩
      simp only [deliver, done]
      exact OneShot.held_fire_empty error

end Delivery

namespace Bridge

def Delivered (b : Bridge) (r : Request) : Prop :=
  (b.delivery r.id).Holds r.query.completionStart?

theorem Delivered.ne_empty {b : Bridge} {r : Request} (h : b.Delivered r) :
    b.delivery r.id ≠ {} := by
  intro hempty
  have hdone := h.done
  rw [hempty] at hdone
  exact OneShot.not_held_empty hdone

theorem Delivered.congr {b b' : Bridge} {r : Request} (h : b.Delivered r)
    (same : b'.delivery r.id = b.delivery r.id) : b'.Delivered r := by
  unfold Delivered
  rw [same]
  exact h

/-! ## Handling a result -/

@[simp] theorem delivery_emit (b : Bridge) (e : Event) : (b.emit e).delivery = b.delivery := rfl

@[simp] theorem delivery_log (b : Bridge) (line : Bytes) :
    (b.log line).delivery = b.delivery := rfl

@[simp] theorem delivery_tell (b : Bridge) (call : HostCall) :
    (b.tell call).delivery = b.delivery := rfl

@[simp] theorem delivery_logAll (b : Bridge) (lines : List Bytes) :
    (b.logAll lines).delivery = b.delivery := by
  rw [logAll_eq]

@[simp] theorem delivery_follow (b : Bridge) (s : Protocol.Step) :
    (b.follow s).delivery = b.delivery :=
  delivery_logAll _ _

@[simp] theorem delivery_submit (b : Bridge) (e : Protocol.Event) :
    (b.submit e).delivery = b.delivery :=
  delivery_follow _ _

@[simp] theorem delivery_logSkipped (b : Bridge) (r : Request) (skipped : List Payload.Skip) :
    (b.logSkipped r skipped).delivery = b.delivery :=
  delivery_logAll _ _

@[simp] theorem delivery_showErrors (b : Bridge) (r : Request) (doc : Nat) (p : Payload.Errors) :
    (b.showErrors r doc p).delivery = b.delivery := by
  simp [showErrors]

/-- No slot is touched but that for the result of `r`, which is empty or full
afterwards if it was empty before. -/
structure Touches (r : Request) (b b' : Bridge) : Prop where
  others : ∀ id, id ≠ r.id → b'.delivery id = b.delivery id
  done : (b'.delivery r.id).done = (b.delivery r.id).done
  result : (b.delivery r.id).result = {} →
    (b'.delivery r.id).result = {} ∨ (b'.delivery r.id).result.Held

theorem Touches.of_eq (r : Request) {b b' : Bridge} (h : b'.delivery = b.delivery) :
    Touches r b b' := by
  refine ⟨fun id _ => by rw [h], by rw [h], ?_⟩
  intro hempty
  rw [h]
  exact Or.inl hempty

theorem Touches.congr {r : Request} {a b c d : Bridge} (h : Touches r b c)
    (before : b.delivery = a.delivery) (after : d.delivery = c.delivery) : Touches r a d := by
  obtain ⟨hothers, hdone, hresult⟩ := h
  rw [before] at hothers hdone hresult
  refine ⟨?_, ?_, ?_⟩
  · rw [after]
    exact hothers
  · rw [after]
    exact hdone
  · rw [after]
    exact hresult

theorem delivery_applyErrors (b : Bridge) (e : Editor) (r : Request) (v : Option Json) :
    (b.applyErrors e r v).1.delivery = b.delivery := by
  unfold applyErrors
  split
  · rfl
  · dsimp only
    split
    · simp
    · split <;> simp

theorem delivery_applyDefinition (b : Bridge) (r : Request) (v : Option Json) :
    (b.applyDefinition r v).1.delivery = b.delivery := by
  unfold applyDefinition
  split
  · rfl
  · rfl
  · split <;> rfl

theorem delivery_applyUsages (b : Bridge) (r : Request) (v : Option Json) :
    (b.applyUsages r v).1.delivery = b.delivery := by
  unfold applyUsages
  split
  · rfl
  · simp

theorem touches_applyCompletion (b : Bridge) (r : Request) (startOffset : Int64)
    (v : Option Json) : Touches r b (b.applyCompletion r startOffset v).1 := by
  unfold applyCompletion
  split
  · exact Touches.of_eq r rfl
  · rename_i p hp
    dsimp only
    generalize hitems : p.entries.map (fun c => (⟨c.name, c.desc⟩ : CompletionItem)) = items
    have hdeliver : Touches r b
        ((b.logSkipped r p.skipped).updateDelivery r.id
          fun d => (d.deliver startOffset items none).1) := by
      refine ⟨fun id hid => ?_, ?_, fun hempty => Or.inr ?_⟩
      · simp [updateDelivery, hid]
      · simp [updateDelivery, Delivery.deliver]
      · simp only [updateDelivery, delivery_logSkipped, if_true, Delivery.deliver, hempty]
        exact OneShot.held_fire_empty _
    split
    · exact hdeliver
    · exact hdeliver.congr rfl rfl

theorem touches_applyValue (b : Bridge) (e : Editor) (r : Request) (v : Option Json) :
    Touches r b (b.applyValue e r v).1 := by
  unfold applyValue
  split
  · exact Touches.of_eq r (delivery_applyErrors b e r v)
  · exact touches_applyCompletion b r _ v
  · exact Touches.of_eq r (delivery_applyDefinition b r v)
  · exact Touches.of_eq r (delivery_applyUsages b r v)

theorem touches_handleValue (b : Bridge) (e : Editor) (r : Request) (v : Option Json) :
    Touches r b (b.handleValue e r v).1 := by
  unfold handleValue
  dsimp only
  split
  · exact Touches.of_eq r (by simp)
  · split
    · exact Touches.of_eq r (by simp)
    · split
      · exact Touches.of_eq r (by simp)
      · have hvalue := touches_applyValue b e r v
        split
        · rename_i b' fault happlied
          rw [happlied] at hvalue
          exact hvalue.congr rfl (delivery_submit _ _)
        · rename_i b' happlied
          rw [happlied] at hvalue
          exact hvalue.congr rfl (delivery_submit _ _)

theorem delivery_handleComplaint (b : Bridge) (r : Request) (c : Complaint) :
    (b.handleComplaint r c).1.delivery = b.delivery := by
  unfold handleComplaint
  dsimp only
  split <;> simp

theorem delivery_handleFault (b : Bridge) (output : Bytes) (f : Tool.Fault) :
    (b.handleFault output f).1.delivery = b.delivery := by
  unfold handleFault
  dsimp only
  split
  · simp
  · split <;> simp

theorem touches_handleOutput (b : Bridge) (e : Editor) (r : Request) (out : Bytes) :
    Touches r b (b.handleOutput e r out).1 := by
  unfold handleOutput
  split
  · exact Touches.of_eq r (by simp)
  · split
    · exact Touches.of_eq r (delivery_handleComplaint b r _)
    · exact touches_handleValue b e r _

/-- Handling a result touches no slot but that for the result of the request. -/
theorem touches_handle (b : Bridge) (e : Editor) (cur : Running) (res : RunResult) :
    Touches cur.request b (b.handle e cur res).1 := by
  unfold handle
  split
  · exact Touches.of_eq _ (delivery_submit _ _)
  · split
    · exact Touches.of_eq _ (delivery_handleFault b _ _)
    · have houtput := touches_handleOutput { b with breaker := b.breaker.success } e cur.request
        res.output
      exact houtput.congr rfl rfl

/-! ## Finishing requests -/

/-- The requests `rs` were finished, and no slot of another request was
touched. -/
structure Settles (rs : List Request) (b b' : Bridge) : Prop where
  delivered : (rs.map Request.id).Nodup → ∀ r ∈ rs, b.delivery r.id = {} → b'.Delivered r
  others : ∀ id, id ∉ rs.map Request.id → b'.delivery id = b.delivery id

namespace Settles

theorem of_eq {b b' : Bridge} (h : b'.delivery = b.delivery) : Settles [] b b' :=
  ⟨nofun, fun id _ => by rw [h]⟩

theorem trans {rs rs' : List Request} {a b c : Bridge} (h : Settles rs a b)
    (h' : Settles rs' b c) : Settles (rs ++ rs') a c := by
  refine ⟨?_, ?_⟩
  · intro hnodup r hr hempty
    rw [List.map_append, List.nodup_append] at hnodup
    obtain ⟨hrs, hrs', hdisjoint⟩ := hnodup
    rcases List.mem_append.mp hr with hr | hr
    · have hout : r.id ∉ rs'.map Request.id :=
        fun hid => hdisjoint _ (List.mem_map_of_mem hr) _ hid rfl
      exact (h.delivered hrs r hr hempty).congr (h'.others _ hout)
    · have hout : r.id ∉ rs.map Request.id :=
        fun hid => hdisjoint _ hid _ (List.mem_map_of_mem hr) rfl
      exact h'.delivered hrs' r hr ((h.others _ hout).trans hempty)
  · intro id hid
    rw [List.map_append, List.mem_append, not_or] at hid
    rw [h'.others id hid.2, h.others id hid.1]

theorem congr {rs : List Request} {a b c d : Bridge} (h : Settles rs b c)
    (before : b.delivery = a.delivery) (after : d.delivery = c.delivery) : Settles rs a d := by
  have hbefore : Settles [] a b := of_eq before
  have hafter : Settles [] c d := of_eq after
  simpa using (hbefore.trans h).trans hafter

theorem finishRequest {b b' : Bridge} {r : Request} (h : Touches r b b') (fault : Option Fault) :
    Settles [r] b (b'.finishRequest r fault) := by
  refine ⟨?_, ?_⟩
  · intro _ s hs hempty
    rw [List.mem_singleton.mp hs] at hempty ⊢
    have hdone : (b'.delivery r.id).done = {} := by rw [h.done, hempty]
    have hresult := h.result (by rw [hempty])
    have hfinish := Delivery.holds_finish hdone hresult r.query.completionStart? fault
    unfold Delivered Bridge.finishRequest updateDelivery
    simpa using hfinish
  · intro id hid
    rw [List.map_singleton, List.mem_singleton] at hid
    unfold Bridge.finishRequest updateDelivery
    simp only [delivery_emit, hid, if_false]
    exact h.others id hid

theorem foldl (f : Bridge → Request → Bridge) (hf : ∀ b r, Settles [r] b (f b r)) (b : Bridge)
    (rs : List Request) : Settles rs b (rs.foldl f b) := by
  induction rs generalizing b with
  | nil => exact of_eq rfl
  | cons r rs ih => exact (hf b r).trans (ih (f b r))

/-- A request that has been answered stays so, as only requests with empty slots
are finished. -/
theorem keep {rs : List Request} {b b' : Bridge} (h : Settles rs b b')
    (empty : ∀ r ∈ rs, b.delivery r.id = {}) {r : Request} (delivered : b.Delivered r) :
    b'.Delivered r := by
  refine delivered.congr (h.others _ ?_)
  intro hid
  obtain ⟨s, hs, hsame⟩ := List.mem_map.mp hid
  exact delivered.ne_empty (hsame ▸ empty s hs)

end Settles

/-- The requests that left the queue were finished, and no slot of another
request was touched. -/
def Disposes (b b' : Bridge) : Prop :=
  ∃ gone, Settles gone b b' ∧ (gone ++ b'.queue.toList).Perm b.queue.toList

namespace Disposes

theorem of_eq {b b' : Bridge} (delivery : b'.delivery = b.delivery)
    (queue : b'.queue.toList = b.queue.toList) : Disposes b b' :=
  ⟨[], Settles.of_eq delivery, by rw [queue, List.nil_append]⟩

theorem refl (b : Bridge) : Disposes b b :=
  of_eq rfl rfl

theorem trans {a b c : Bridge} (h : Disposes a b) (h' : Disposes b c) : Disposes a c := by
  obtain ⟨gone, hsettles, hperm⟩ := h
  obtain ⟨gone', hsettles', hperm'⟩ := h'
  refine ⟨gone ++ gone', hsettles.trans hsettles', ?_⟩
  rw [List.append_assoc]
  exact (hperm'.append_left gone).trans hperm

theorem head {b b' : Bridge} {r : Request} (peek : b.queue.peek? = some r)
    (settles : Settles [r] b b') (queue : b'.queue = b.queue.pop) : Disposes b b' := by
  refine ⟨[r], settles, ?_⟩
  rw [queue, Queue.toList_eq_cons_of_peek? b.queue peek]
  exact List.Perm.refl _

theorem delivery_eq {b b' : Bridge} (h : Disposes b b')
    (waiting : ∀ r ∈ b.queue.toList, b.delivery r.id = {}) {id : Nat} (full : b.delivery id ≠ {}) :
    b'.delivery id = b.delivery id := by
  obtain ⟨gone, hsettles, hperm⟩ := h
  apply hsettles.others
  intro hid
  obtain ⟨r, hr, rfl⟩ := List.mem_map.mp hid
  exact full (waiting r (hperm.mem_iff.mp (List.mem_append_left _ hr)))

end Disposes

theorem disposes_failQueued (b : Bridge) (fault : Fault) : Disposes b (b.failQueued fault) := by
  have hqueue := congrArg Bridge.queue (control_failQueued b fault)
  change (b.failQueued fault).queue = (b.queue.remove false fun _ => true).1 at hqueue
  refine ⟨b.queue.toList, ?_, ?_⟩
  · unfold failQueued
    dsimp only
    rw [Queue.remove_all_snd]
    have hfold := Settles.foldl (fun b request => b.finishRequest request (some fault))
      (fun b r => Settles.finishRequest (Touches.of_eq r rfl) (some fault))
      { b with queue := (b.queue.remove false fun _ => true).1 } b.queue.toList
    exact hfold.congr rfl rfl
  · rw [hqueue, Queue.toList_remove_all, List.append_nil]

theorem settles_dropClosed (b : Bridge) (r : Request) : Settles [r] b (b.dropClosed r) :=
  (Settles.finishRequest (Touches.of_eq (b := b.log _) r rfl) _).congr rfl rfl

theorem disposes_dispatchClose (b : Bridge) (e : Editor) (doc : Document) :
    Disposes b (b.dispatchClose e doc) := by
  refine ⟨(b.queue.remove b.running.isSome (concerns e doc)).2, ?_, ?_⟩
  · have hfold := Settles.foldl dropClosed settles_dropClosed
      { b with queue := (b.queue.remove b.running.isSome (concerns e doc)).1 }
      (b.queue.remove b.running.isSome (concerns e doc)).2
    exact hfold.congr rfl rfl
  · rw [queue_dispatchClose]
    exact Queue.remove_perm b.queue _ _

theorem disposes_dropHead (b : Bridge) (r : Request) (fault : Fault)
    (h : b.queue.peek? = some r) : Disposes b (b.dropHead r fault) := by
  refine Disposes.head h ?_ rfl
  refine Settles.finishRequest ?_ (some fault)
  exact Touches.of_eq r rfl

theorem delivery_launch (b : Bridge) (r : Request) : (b.launch r).delivery = b.delivery := by
  unfold launch
  dsimp only
  split <;> simp

theorem disposes_startNext (b : Bridge) (hstate : b.state = .default) :
    Disposes b b.startNext := by
  apply startNext_rule (P := fun c => c.state = .default ∧ Disposes b c)
  case h => exact ⟨hstate, Disposes.refl b⟩
  case stop => exact fun c hc _ => hc.2
  case drop =>
    rintro c r breaker fault ⟨hs, hc⟩ hpeek -
    have hbreaker : Disposes c { c with breaker := breaker } := Disposes.of_eq rfl rfl
    refine ⟨hs, (hc.trans hbreaker).trans ?_⟩
    exact disposes_dropHead { c with breaker := breaker } r fault hpeek
  case start =>
    rintro c r breaker ⟨hs, hc⟩ - -
    have hqueue := congrArg Bridge.queue (control_launch { c with breaker := breaker } r hs)
    change (({ c with breaker := breaker }).launch r).queue = c.queue at hqueue
    exact hc.trans (Disposes.of_eq (delivery_launch _ r) (by rw [hqueue]))

theorem disposes_wake (b : Bridge) (rest : b.running = none → b.state = .default) :
    Disposes b b.wake := by
  rcases wake_cases b with hsame | hlower | ⟨hidle, hstart⟩
  · rw [hsame]
    exact Disposes.refl b
  · rw [hlower]
    exact Disposes.of_eq rfl rfl
  · rw [hstart]
    have hlowered : Disposes b { b with queue := b.queue.lower } := Disposes.of_eq rfl rfl
    exact hlowered.trans (disposes_startNext _ (rest hidle))

theorem settles_complete (b : Bridge) (e : Editor) (cur : Running) (res : RunResult) :
    Settles [cur.request] b (b.complete e cur res) := by
  have hpop : (b.popRunning cur).delivery = b.delivery := by
    unfold popRunning
    dsimp only
    split <;> rfl
  have hhandle := (touches_handle (b.popRunning cur) e cur res).congr hpop rfl
  unfold complete
  dsimp only
  refine Settles.finishRequest (hhandle.congr rfl ?_) _
  split <;> split <;> simp

theorem disposes_complete (b : Bridge) (e : Editor) (cur : Running) (res : RunResult)
    (hhead : b.queue.peek? = some cur.request) (hstate : b.state = cur.request.kind.state) :
    Disposes b (b.complete e cur res) := by
  have hqueue := congrArg Bridge.queue (control_complete b e cur res hhead hstate)
  exact Disposes.head hhead (settles_complete b e cur res) hqueue

theorem disposes_abandonRun (b : Bridge)
    (hhead : ∀ cur, b.running = some cur → b.queue.peek? = some cur.request) :
    Disposes b b.abandonRun := by
  cases hrunning : b.running with
  | none =>
      rw [abandonRun_of_idle b hrunning]
      exact Disposes.refl b
  | some cur =>
      rw [abandonRun_of_running b hrunning]
      refine Disposes.head (hhead cur hrunning) ?_ rfl
      refine Settles.finishRequest ?_ _
      exact Touches.of_eq cur.request rfl

end Bridge

end MerlinBridge
