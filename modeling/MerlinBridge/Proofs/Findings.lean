import MerlinBridge.Proofs.Outcome

/-!
# The findings are those of the last check

What is known about the documents under a key is what their last check has found,
unless one of them was closed since then. There are two occasions on which it can
change, the end of a run whose result is handled and the closing of a document,
and an `Occasion` records one of them as it is seen from outside. Everything
else that the bridge does leaves the findings alone, and no other request is
finished without a fault (`Bridge.standing`).

`Occasion.bearsOn` says which occasions count for a key: of the runs only
those of checks that end without a fault. What is held under a key is read off the
last occasion that counts, and nothing is left of those before it.
-/

namespace MerlinBridge

def Findings.ofReply (r : Request) (out : Bytes) : Option Findings :=
  match Envelope.decode out with
  | .error _ => none
  | .ok env =>
      match Payload.Errors.ofJson env.value with
      | .error _ => none
      | .ok p =>
          some ⟨p.errors.filterMap (Bridge.diagnosticOf? r),
            p.quickFixes.filterMap (Bridge.fixOf? r)⟩

/-! ## What an effect finds -/

namespace Effect

/-- A check that succeeds finds what the output says, and the user is looking then.
Nothing else finds anything. -/
structure Finds (r : Request) (focused : Bool) (out : Bytes) (x : Effect) : Prop where
  check : r.query = .errors → x.fault = none →
    focused = true ∧ x.findings.isSome = true ∧ x.findings = Findings.ofReply r out
  other : r.query ≠ .errors ∨ x.fault ≠ none → x.findings = none

theorem finds_failure (r : Request) (focused : Bool) (out : Bytes) (fault : Fault)
    (messages : List Bytes) : (failure fault messages).Finds r focused out :=
  ⟨fun _ => nofun, fun _ => rfl⟩

theorem finds_of_ne {r : Request} (focused : Bool) (out : Bytes) {x : Effect}
    (kind : r.query ≠ .errors) (findings : x.findings = none) : x.Finds r focused out :=
  ⟨fun check => absurd check kind, fun _ => findings⟩

theorem findings_ofCompletion (startOffset : Int64) (v : Option Json) :
    (ofCompletion startOffset v).findings = none := by
  unfold ofCompletion
  cases Payload.Completions.ofJson v <;> rfl

theorem findings_ofDefinition (v : Option Json) : (ofDefinition v).findings = none := by
  unfold ofDefinition
  split <;> rfl

theorem findings_ofUsages (r : Request) (v : Option Json) : (ofUsages r v).findings = none := by
  unfold ofUsages
  cases Payload.Occurrences.ofJson v <;> rfl

theorem finds_ofErrors {r : Request} (focused : Bool) {out : Bytes} {env : Envelope}
    (errors : r.query = .errors) (reply : Envelope.decode out = .ok env) :
    (ofErrors r focused env.value).Finds r focused out := by
  unfold ofErrors
  cases hpayload : Payload.Errors.ofJson env.value with
  | error err => exact finds_failure r focused out _ _
  | ok p =>
      cases focused with
      | false => exact finds_failure r false out _ _
      | true =>
          refine ⟨fun _ _ => ⟨rfl, rfl, ?_⟩, ?_⟩
          · simp [Findings.ofReply, reply, hpayload]
          · rintro (hkind | hfault)
            · exact absurd errors hkind
            · exact absurd rfl hfault

theorem finds_ofValue (r : Request) (focused : Bool) {out : Bytes} {env : Envelope}
    (reply : Envelope.decode out = .ok env) :
    (ofValue r focused env.value).Finds r focused out := by
  unfold ofValue
  cases hquery : r.query with
  | errors => exact finds_ofErrors focused hquery reply
  | completion word startOffset line col =>
      exact finds_of_ne focused out (by simp [hquery]) (findings_ofCompletion startOffset _)
  | definition line col =>
      exact finds_of_ne focused out (by simp [hquery]) (findings_ofDefinition _)
  | usages line col => exact finds_of_ne focused out (by simp [hquery]) (findings_ofUsages r _)

theorem finds_ofOutput (r : Request) (focused : Bool) (out : Bytes) :
    (ofOutput r focused out).Finds r focused out := by
  unfold ofOutput
  cases hreply : Envelope.decode out with
  | error err => exact finds_failure r focused out _ _
  | ok env =>
      cases hcomplaint : env.complaint? with
      | none => simpa [hcomplaint] using finds_ofValue r focused hreply
      | some c =>
          simp only [hcomplaint, ofComplaint]
          split <;> exact finds_failure r focused out _ _

theorem finds_ofResult (settings : Settings) (opened focused : Bool) (cur : Running)
    (res : RunResult) :
    (ofResult settings opened focused cur res).Finds cur.request focused res.output := by
  unfold ofResult
  split
  · exact finds_failure _ focused _ _ _
  · cases res.fault with
    | none => exact finds_ofOutput cur.request focused res.output
    | some f =>
        simp only [ofFault]
        split <;> exact finds_failure _ focused _ _ _

end Effect

/-! ## What the bridge leaves alone -/

namespace Bridge

def successes (b : Bridge) : List Request :=
  (b.outcomes.filter fun x => x.2.isNone).map Prod.fst

/-- What results have led to: the findings, and the requests that have succeeded. -/
def standing (b : Bridge) : Store × List Request :=
  (b.store, b.successes)

theorem standing_congr {b b' : Bridge} (store : b'.store = b.store)
    (outcomes : b'.outcomes = b.outcomes) : b'.standing = b.standing := by
  rw [standing, successes, store, outcomes, standing, successes]

@[simp] theorem standing_log (b : Bridge) (line : Bytes) : (b.log line).standing = b.standing :=
  standing_congr rfl (outcomes_log b line)

theorem successes_finishRequest (b : Bridge) (r : Request) (fault : Option Fault) :
    (b.finishRequest r fault).successes = b.successes ++ if fault = none then [r] else [] := by
  cases fault <;> simp [successes]

@[simp] theorem standing_fail (b : Bridge) (r : Request) (fault : Fault) :
    (b.finishRequest r (some fault)).standing = b.standing := by
  rw [standing, successes_finishRequest]
  simp [standing, finishRequest, updateDelivery, emit]

theorem store_launch (b : Bridge) (r : Request) : (b.launch r).store = b.store := by
  unfold launch submit follow log emit
  simp only [logAll_eq]
  split <;> rfl

theorem standing_startNext (b : Bridge) : b.startNext.standing = b.standing := by
  apply startNext_rule (P := fun c => c.standing = b.standing)
    (Q := fun c => c.standing = b.standing)
  case h => rfl
  case stop => exact fun c hc _ => hc
  case drop =>
    intro c r breaker fault hc _ _
    unfold dropHead
    rw [standing_fail, standing_log]
    exact hc
  case start =>
    intro c r breaker hc _ _
    exact (standing_congr (store_launch _ r) (outcomes_launch _ r)).trans hc

theorem standing_wake (b : Bridge) : b.wake.standing = b.standing := by
  rcases wake_cases b with hsame | hlower | ⟨-, hstart⟩
  · rw [hsame]
  · rw [hlower]
    rfl
  · rw [hstart, standing_startNext]
    rfl

theorem standing_failQueued (b : Bridge) (fault : Fault) :
    (b.failQueued fault).standing = b.standing :=
  foldl_keeps standing (fun b r => standing_fail b r fault) { b with queue := _ } _

theorem standing_clientStep (b : Bridge) (r : Request) (s : Stage) :
    (b.clientStep r s).2.standing = b.standing := by
  cases s with
  | called =>
      simp only [clientStep]
      split <;> simp
  | accepted => exact standing_log b _
  | signalled =>
      simp only [clientStep, sweepIfDead]
      split
      · exact standing_failQueued b .shuttingDown
      · rfl
  | _ => rfl

theorem standing_abandonRun (b : Bridge) : b.abandonRun.standing = b.standing := by
  cases hrunning : b.running with
  | none => rw [abandonRun_of_idle b hrunning]
  | some cur =>
      rw [abandonRun_of_running b hrunning, standing_fail]
      rfl

theorem standing_dispatchClose (b : Bridge) (e : Editor) (doc : Document) :
    (b.dispatchClose e doc).standing = (b.store.forget (Store.key doc.path), b.successes) := by
  have hfold := foldl_keeps (f := dropClosed) standing (by simp [dropClosed])
    { b with queue := (b.queue.remove b.running.isSome (concerns e doc)).1 }
    (b.queue.remove b.running.isSome (concerns e doc)).2
  have hstore := congrArg Prod.fst hfold
  have hsuccesses := congrArg Prod.snd hfold
  exact Prod.ext (congrArg (·.forget (Store.key doc.path)) hstore) hsuccesses

theorem standing_complete (b : Bridge) (e : Editor) (cur : Running) (res : RunResult)
    (hhead : b.queue.peek? = some cur.request) (hstate : b.state = cur.request.kind.state) :
    (b.complete e cur res).standing =
      (((b.effectOf e cur res).act cur.request b.outside).store,
        b.successes ++ if (b.effectOf e cur res).fault = none then [cur.request] else []) := by
  have houtside := outside_complete b e cur res hhead hstate
  have houtcomes := outcomes_complete b e cur res hhead hstate
  refine Prod.ext (congrArg Outside.store houtside) ?_
  change (b.complete e cur res).successes = _
  rw [successes, houtcomes, List.filter_append, List.map_append]
  cases (b.effectOf e cur res).fault <;> simp [successes]

theorem finds_effectOf (b : Bridge) (e : Editor) (cur : Running) (res : RunResult) :
    (b.effectOf e cur res).Finds cur.request (e.looksAt cur.request) res.output :=
  Effect.finds_ofResult _ _ _ _ _

/-- The fault that a request is finished with is that of the effect. -/
theorem fault_handle (b : Bridge) (e : Editor) (cur : Running) (res : RunResult)
    (hhead : b.queue.peek? = some cur.request) (hstate : b.state = cur.request.kind.state) :
    ((b.popRunning cur).handle e cur res).2 = (b.effectOf e cur res).fault := by
  rw [popRunning_of_head b cur hhead]
  exact (handle_performs { b with queue := b.queue.pop, running := none } e cur res hstate).fault

end Bridge

/-! ## Occasions -/

inductive Occasion where
  | ended (request : Request) (output : Bytes) (fault : Option Fault)
  | closed (doc : Document)

namespace Occasion

def bearsOn (k : Bytes) : Occasion → Bool
  | ended r _ fault => r.query = .errors && fault.isNone && Store.key r.path = k
  | closed doc => Store.key doc.path = k

def findings? : Occasion → Option Findings
  | ended r out _ => Findings.ofReply r out
  | closed _ => none

def success? : Occasion → Option Request
  | ended r _ none => some r
  | _ => none

def last? (k : Bytes) (occasions : List Occasion) : Option Occasion :=
  (occasions.filter (bearsOn k)).getLast?

theorem last?_append (k : Bytes) (xs ys : List Occasion) :
    last? k (xs ++ ys) = (last? k ys).or (last? k xs) := by
  rw [last?, List.filter_append, List.getLast?_append, last?, last?]

theorem last?_singleton (k : Bytes) (o : Occasion) :
    last? k [o] = if o.bearsOn k then some o else none := by
  by_cases h : o.bearsOn k = true
  · simp [last?, h]
  · simp [last?, h]

theorem last?_eq_none {k : Bytes} {occasions : List Occasion}
    (h : ∀ o ∈ occasions, o.bearsOn k = false) : last? k occasions = none := by
  have hnone : occasions.filter (bearsOn k) = [] := by simpa using h
  rw [last?, hnone, List.getLast?_nil]

end Occasion

theorem Effect.Finds.get?_act {r : Request} {focused : Bool} {out : Bytes} {x : Effect}
    (h : x.Finds r focused out) (o : Outside) (k : Bytes) :
    (x.act r o).store.get? k =
      if (Occasion.ended r out x.fault).bearsOn k then Findings.ofReply r out
      else o.store.get? k := by
  by_cases hcheck : r.query = .errors ∧ x.fault = none
  · obtain ⟨hquery, hfault⟩ := hcheck
    obtain ⟨-, hsome, hfindings⟩ := h.check hquery hfault
    obtain ⟨f, hf⟩ := Option.isSome_iff_exists.mp hsome
    rw [← hfindings, hf]
    by_cases hkey : Store.key r.path = k
    · subst hkey
      simp [Effect.act, Occasion.bearsOn, hf, hquery, hfault, Store.get?_set_self]
    · simp [Effect.act, Occasion.bearsOn, hf, hkey, Store.get?_set_of_ne _ f (Ne.symm hkey)]
  · have hnone : x.findings = none := by
      apply h.other
      by_cases hquery : r.query = .errors
      · exact Or.inr fun hfault => hcheck ⟨hquery, hfault⟩
      · exact Or.inl hquery
    have hout : (Occasion.ended r out x.fault).bearsOn k = false := by
      rw [Bool.eq_false_iff]
      intro hbears
      simp only [Occasion.bearsOn, Bool.and_eq_true, decide_eq_true_eq,
        Option.isNone_iff_eq_none] at hbears
      exact hcheck hbears.1
    simp [Effect.act, hnone, hout]

namespace World

def occasionsAt (w : World) : Action → List Occasion
  | .result e res =>
      if w.phase = .serving then
        w.bridge.running.toList.map fun cur =>
          .ended cur.request res.output ((w.bridge.popRunning cur).handle e cur res).2
      else []
  | .close _ doc => if w.phase = .serving then [.closed doc] else []
  | _ => []

theorem occasionsAt_of_idle {w : World} {a : Action} (h : w.Idle a) : occasionsAt w a = [] := by
  cases a with
  | result e res =>
      rcases h with h | h <;> simp [occasionsAt, h]
  | close e doc => exact if_neg h
  | _ => rfl

theorem occasionsAt_eq_singleton {w : World} {a : Action} {o : Occasion}
    (h : o ∈ occasionsAt w a) : occasionsAt w a = [o] := by
  have hlength : (occasionsAt w a).length ≤ 1 := by
    cases a with
    | result e res =>
        simp only [occasionsAt]
        split
        · cases w.bridge.running <;> simp
        · simp
    | close e doc =>
        simp only [occasionsAt]
        split <;> simp
    | _ => exact Nat.zero_le 1
  obtain ⟨x, hx⟩ := List.length_eq_one_iff.mp
    (Nat.le_antisymm hlength (List.length_pos_of_mem h))
  rw [hx, List.mem_singleton] at h
  rw [hx, h]

theorem occasionsAt_result {w : World} (sound : w.Sound) (serving : w.phase = .serving)
    {cur : Running} (running : w.bridge.running = some cur) (e : Editor) (res : RunResult) :
    occasionsAt w (.result e res) =
      [.ended cur.request res.output (w.bridge.effectOf e cur res).fault] := by
  have hfault := Bridge.fault_handle w.bridge e cur res (sound.coherent.head cur running)
    (sound.coherent.busy cur running)
  simp [occasionsAt, serving, running, hfault]

/-- What is under a key once a run has come to its end. -/
theorem get?_result {w : World} (sound : w.Sound) (serving : w.phase = .serving) {cur : Running}
    (running : w.bridge.running = some cur) (e : Editor) (res : RunResult) (k : Bytes) :
    (w.bridge.complete e cur res).store.get? k =
      ((Occasion.last? k (occasionsAt w (.result e res))).map Occasion.findings?).getD
        (w.bridge.store.get? k) := by
  have hstore : (w.bridge.complete e cur res).store =
      ((w.bridge.effectOf e cur res).act cur.request w.bridge.outside).store :=
    congrArg Prod.fst (Bridge.standing_complete w.bridge e cur res
      (sound.coherent.head cur running) (sound.coherent.busy cur running))
  have hfinds := Bridge.finds_effectOf w.bridge e cur res
  rw [hstore, hfinds.get?_act, occasionsAt_result sound serving running,
    Occasion.last?_singleton]
  split <;> rfl

/-- A step replaces what is under a key as a whole, if it is an occasion that bears
on the key, and leaves it alone otherwise. -/
theorem get?_move {w w' : World} {a : Action} (hmove : Move w a w') (sound : w.Sound)
    (k : Bytes) :
    w'.bridge.store.get? k =
      ((Occasion.last? k (occasionsAt w a)).map Occasion.findings?).getD
        (w.bridge.store.get? k) := by
  have hsame : occasionsAt w a = [] → w'.bridge.standing = w.bridge.standing →
      w'.bridge.store.get? k =
        ((Occasion.last? k (occasionsAt w a)).map Occasion.findings?).getD
          (w.bridge.store.get? k) := by
    intro hnone hstanding
    rw [show w'.bridge.store = w.bridge.store from congrArg Prod.fst hstanding, hnone]
    rfl
  cases hmove with
  | ask query doc => exact hsame rfl rfl
  | client i c called => exact hsame rfl (Bridge.standing_clientStep w.bridge c.request c.stage)
  | wake serving => exact hsame rfl (Bridge.standing_wake w.bridge)
  | result e res cur serving running =>
      have hstart := congrArg Prod.fst (Bridge.standing_startNext (w.bridge.complete e cur res))
      exact (congrArg (·.get? k) hstart).trans (get?_result sound serving running e res k)
  | close e doc serving =>
      have hstore : (w.bridge.dispatchClose e doc).store =
          w.bridge.store.forget (Store.key doc.path) :=
        congrArg Prod.fst (Bridge.standing_dispatchClose w.bridge e doc)
      have hoccasion : occasionsAt w (.close e doc) = [.closed doc] := if_pos serving
      rw [hoccasion, Occasion.last?_singleton]
      change (w.bridge.dispatchClose e doc).store.get? k = _
      rw [hstore]
      by_cases hkey : Store.key doc.path = k
      · subst hkey
        simp [Occasion.bearsOn, Occasion.findings?, Store.get?_forget_self]
      · simp [Occasion.bearsOn, hkey, Store.get?_forget_of_ne _ (Ne.symm hkey)]
  | abandon serving dying => exact hsame rfl (Bridge.standing_abandonRun w.bridge)
  | drain ending => exact hsame rfl (Bridge.standing_failQueued w.bridge .shuttingDown)
  | pass _ _ idle passive =>
      obtain ⟨⟨now, tracker, dying, dead, hbridge⟩, -, -, -⟩ := passive
      refine hsame (occasionsAt_of_idle idle) ?_
      rw [hbridge]
      rfl

/-- A step finishes a request without a fault only as the occasion that it is. -/
theorem successes_move {w w' : World} {a : Action} (hmove : Move w a w') (sound : w.Sound) :
    w'.bridge.successes =
      w.bridge.successes ++ (occasionsAt w a).filterMap Occasion.success? := by
  have hsame : (occasionsAt w a).filterMap Occasion.success? = [] →
      w'.bridge.successes = w.bridge.successes → w'.bridge.successes =
        w.bridge.successes ++ (occasionsAt w a).filterMap Occasion.success? := by
    intro hnone hsuccesses
    rw [hnone, hsuccesses, List.append_nil]
  cases hmove with
  | ask query doc => exact hsame rfl rfl
  | client i c called =>
      exact hsame rfl
        (congrArg Prod.snd (Bridge.standing_clientStep w.bridge c.request c.stage))
  | wake serving => exact hsame rfl (congrArg Prod.snd (Bridge.standing_wake w.bridge))
  | result e res cur serving running =>
      have hcomplete := congrArg Prod.snd (Bridge.standing_complete w.bridge e cur res
        (sound.coherent.head cur running) (sound.coherent.busy cur running))
      have hstart := congrArg Prod.snd
        (Bridge.standing_startNext (w.bridge.complete e cur res))
      rw [occasionsAt_result sound serving running]
      refine (hstart.trans hcomplete).trans ?_
      cases (w.bridge.effectOf e cur res).fault <;> rfl
  | close e doc serving =>
      refine hsame ?_ (congrArg Prod.snd (Bridge.standing_dispatchClose w.bridge e doc))
      rw [show occasionsAt w (.close e doc) = [.closed doc] from if_pos serving]
      rfl
  | abandon serving dying =>
      exact hsame rfl (congrArg Prod.snd (Bridge.standing_abandonRun w.bridge))
  | drain ending =>
      exact hsame rfl (congrArg Prod.snd (Bridge.standing_failQueued w.bridge .shuttingDown))
  | pass _ _ idle passive =>
      obtain ⟨⟨now, tracker, dying, dead, hbridge⟩, -, -, -⟩ := passive
      refine hsame (by rw [occasionsAt_of_idle idle]; rfl) ?_
      rw [hbridge]
      rfl

/-- The occasion of a run that ends is that of the run under way. -/
theorem exists_running_of_ended {w w' : World} {a : Action} (hmove : Move w a w') (sound : w.Sound)
    {r : Request} {out : Bytes} {fault : Option Fault}
    (h : Occasion.ended r out fault ∈ occasionsAt w a) :
    ∃ e res cur, w.bridge.running = some cur ∧ cur.request = r ∧ res.output = out ∧
      (w.bridge.effectOf e cur res).fault = fault := by
  cases hmove with
  | result e res cur serving running =>
      rw [occasionsAt_result sound serving running, List.mem_singleton] at h
      injection h with hrequest hout hfault
      exact ⟨e, res, cur, running, hrequest.symm, hout.symm, hfault.symm⟩
  | close e doc serving => simp [occasionsAt, serving] at h
  | pass _ _ idle passive =>
      rw [occasionsAt_of_idle idle] at h
      cases h
  | _ => cases h

/-- A check that succeeds has a document, and its output can be read. -/
theorem check_of_mem_occasionsAt {w w' : World} {a : Action} (hmove : Move w a w')
    (sound : w.Sound) {r : Request} {out : Bytes}
    (h : Occasion.ended r out none ∈ occasionsAt w a) (errors : r.query = .errors) :
    r.isValid = true ∧ (Findings.ofReply r out).isSome = true := by
  obtain ⟨e, res, cur, -, rfl, rfl, hfault⟩ := exists_running_of_ended hmove sound h
  obtain ⟨hlooks, hsome, hfindings⟩ :=
    (Bridge.finds_effectOf w.bridge e cur res).check errors hfault
  refine ⟨?_, hfindings ▸ hsome⟩
  cases hdoc : cur.request.doc with
  | none => simp [Editor.looksAt, Editor.resolve, hdoc] at hlooks
  | some id => simp [Request.isValid, hdoc]

/-! ## Runs -/

/-- The occasions so far account for the findings under all keys and for the
requests that have succeeded. -/
structure Recorded (occasions : List Occasion) (w : World) : Prop where
  findings : ∀ k, w.bridge.store.get? k = (Occasion.last? k occasions).bind Occasion.findings?
  successes : w.bridge.successes = occasions.filterMap Occasion.success?
  checks : ∀ r out, Occasion.ended r out none ∈ occasions → r.query = .errors →
    r.isValid = true ∧ (Findings.ofReply r out).isSome = true

theorem recorded_start (settings : Settings) (mayWatch : Bool) :
    Recorded [] (start settings mayWatch) where
  findings := fun _ => rfl
  successes := rfl
  checks := by simp

theorem recorded_move {occasions : List Occasion} {w w' : World} {a : Action}
    (hmove : Move w a w') (sound : w.Sound) (h : Recorded occasions w) :
    Recorded (occasions ++ occasionsAt w a) w' := by
  refine ⟨?_, ?_, ?_⟩
  · intro k
    rw [get?_move hmove sound k, Occasion.last?_append, h.findings k]
    cases Occasion.last? k (occasionsAt w a) <;> rfl
  · rw [successes_move hmove sound, h.successes, List.filterMap_append]
  · intro r out hmem errors
    rcases List.mem_append.mp hmem with hmem | hmem
    · exact h.checks r out hmem errors
    · exact check_of_mem_occasionsAt hmove sound hmem errors

theorem recorded_run (settings : Settings) (mayWatch : Bool) (as : List Action) :
    Recorded (observe occasionsAt (start settings mayWatch) as)
      ((start settings mayWatch).run as) := by
  refine run_induction _
    (P := fun as w => Recorded (observe occasionsAt (start settings mayWatch) as) w)
    (recorded_start settings mayWatch) ?_ as
  intro as a w' hmove h
  rw [observe_append_singleton]
  exact recorded_move hmove (sound_run settings mayWatch as) h

/-- The findings are those of the last check, in every run and under every key. The
occasions of the run that bear on the key are the ends of checks with that key
that succeed, and the closings of documents with that key. What is held under the
key is what the output of the last of them says about the text of its request, and
nothing if it was a closing or if there was none. The requests that have succeeded
are those of the occasions, in order, and the output of a check that has succeeded
always says something.

So a step leaves what is held under the key alone unless it is such an occasion:
a reply of another kind, a check that fails, is stale or was closed, and a request
with another key do not touch it. If it is, nothing is left of what was there. -/
theorem findings_of_last_check (settings : Settings) (mayWatch : Bool) (as : List Action)
    (k : Bytes) :
    let w := (start settings mayWatch).run as
    let occasions := observe occasionsAt (start settings mayWatch) as
    w.bridge.store.get? k = (Occasion.last? k occasions).bind Occasion.findings? ∧
    w.bridge.successes = occasions.filterMap Occasion.success? ∧
    (∀ r out, Occasion.ended r out none ∈ occasions → r.query = .errors →
      (Findings.ofReply r out).isSome = true) ∧
    (∀ a, (∀ o ∈ occasionsAt w a, o.bearsOn k = false) →
      (w.step a).bridge.store.get? k = w.bridge.store.get? k) ∧
    (∀ a o, o ∈ occasionsAt w a → o.bearsOn k = true →
      (w.step a).bridge.store.get? k = o.findings?) := by
  have hrecorded := recorded_run settings mayWatch as
  have hsound := sound_run settings mayWatch as
  refine ⟨hrecorded.findings k, hrecorded.successes, ?_, ?_, ?_⟩
  · intro r out hmem errors
    exact (hrecorded.checks r out hmem errors).2
  · intro a hother
    rw [get?_move (move_step _ a) hsound k, Occasion.last?_eq_none hother]
    rfl
  · intro a o hmem hbears
    have hone : occasionsAt ((start settings mayWatch).run as) a = [o] :=
      occasionsAt_eq_singleton hmem
    rw [get?_move (move_step _ a) hsound k, hone, Occasion.last?_singleton, if_pos hbears]
    rfl

end World

end MerlinBridge
