import MerlinBridge.Proofs.Notes

/-!
# What handling a result does

While a request is in flight the protocol machine is in the state of its kind.
In that state a result of any shape, be it a reply, a broken reply or a failed
run, is handled in one way: the parser of the request's own kind is applied, if
any is, the machine goes back to rest, and the breaker is told the outcome. The
three tables that have to agree for this are those of the events that start a
request, of the states they lead to and of the events that answer them.

`handle_answers` is the one statement about `Bridge.handle` that the theory of
runs uses. It says nothing about the texts of the notes but that they are
ordinary.
-/

namespace MerlinBridge

namespace Request.Kind

def answer : Kind → Protocol.Event
  | errors => .diagnosticsReceived
  | completion => .completionsReceived
  | definition => .definitionsReceived
  | usages => .occurrencesReceived

theorem received?_state (k : Kind) : Protocol.received? k.state = some k.answer := by
  cases k <;> rfl

theorem next?_answer (k : Kind) : Protocol.next? k.state k.answer = some .default := by
  cases k <;> rfl

theorem next?_errorHappened (k : Kind) :
    Protocol.next? k.state .errorHappened = some .default := by
  cases k <;> rfl

theorem state_ne_default (k : Kind) : k.state ≠ .default := by
  cases k <;> decide

end Request.Kind

namespace Breaker

/-- The breaker once the end of a run has been handled. A run whose document was
closed reports nothing; one whose output broke off has reached the tool. -/
def report (b : Breaker) (now : Int) (closed : Bool) (fault : Option Tool.Fault) : Breaker :=
  if closed then b
  else if fault.all fun f => f = .incomplete then b.success
  else b.failure now

end Breaker

namespace Bridge

theorem submit_of_next (b : Bridge) {e : Protocol.Event} {t : Protocol.State}
    (h : Protocol.next? b.state e = some t) : b.submit e = { b with state := t } := by
  simp [submit, follow, Protocol.submit, h, logAll]

/-- Applying a value to a request only talks, and never finds the machine in
the wrong state. -/
structure Applies (b : Bridge) (p : Bridge × Option Fault) : Prop where
  notes : Notes b p.1
  fault : ∀ f, p.2 = some f → f.isIncoherence = false

theorem Applies.malformed {b b' : Bridge} (h : Notes b b') (m : Malformation) :
    Applies b (b', some (.malformed m)) := by
  refine ⟨h, ?_⟩
  rintro f ⟨⟩
  rfl

theorem Applies.done {b b' : Bridge} (h : Notes b b') : Applies b (b', none) :=
  ⟨h, by simp⟩

theorem notes_logSkipped (b : Bridge) (r : Request) (skipped : List Payload.Skip) :
    Notes b (b.logSkipped r skipped) := by
  apply Notes.logAll
  intro line hline
  obtain ⟨s, -, rfl⟩ := List.mem_map.mp hline
  exact Ordinary.about r _

theorem ordinary_diagnosticNote (r : Request) (entry : Payload.ErrorEntry) {line : Bytes}
    (h : diagnosticNote? r entry = some line) : Ordinary line := by
  unfold diagnosticNote? at h
  split at h
  · cases h
  · cases h
    exact Ordinary.about r _

theorem ordinary_fixNote (r : Request) (entry : Payload.QuickFixEntry) {line : Bytes}
    (h : fixNote? r entry = some line) : Ordinary line := by
  unfold fixNote? at h
  split at h
  · cases h
    exact Ordinary.about r _
  · split at h
    · cases h
    · cases h
      exact Ordinary.about r _

theorem ordinary_usageNotes (r : Request) (s : Span) {line : Bytes}
    (h : line ∈ usageNotes r s) : Ordinary line := by
  unfold usageNotes at h
  rcases List.mem_append.mp h with h | h
  · split at h
    · cases h
    · rw [List.mem_singleton.mp h]
      exact Ordinary.about r _
  · split at h
    · cases h
    · rw [List.mem_singleton.mp h]
      exact Ordinary.about r _

theorem notes_showErrors (b : Bridge) (r : Request) (doc : Nat) (p : Payload.Errors) :
    Notes b (b.showErrors r doc p) := by
  have hdiagnostics := Notes.logAll b (p.errors.filterMap (diagnosticNote? r)) (by
    intro line hline
    obtain ⟨entry, -, h⟩ := List.mem_filterMap.mp hline
    exact ordinary_diagnosticNote r entry h)
  have hfixes := Notes.logAll (b.logAll (p.errors.filterMap (diagnosticNote? r)))
    (p.quickFixes.filterMap (fixNote? r)) (by
      intro line hline
      obtain ⟨entry, -, h⟩ := List.mem_filterMap.mp hline
      exact ordinary_fixNote r entry h)
  unfold showErrors
  refine ((hdiagnostics.trans hfixes).trans ?_).trans (Notes.tell _ _)
  exact (Notes.store _ _).trans (Notes.tell _ _)

theorem applyErrors_applies (b : Bridge) (e : Editor) (r : Request) (v : Option Json) :
    Applies b (b.applyErrors e r v) := by
  unfold applyErrors
  split
  · refine Applies.malformed (Notes.log b ?_) _
    exact (((show Ordinary "CRITICAL: failed to parse errors of " by decide).append _).append
      _).append _
  · rename_i p hp
    have hskipped := notes_logSkipped b r p.skipped
    split
    · refine ⟨hskipped.trans (Notes.log _ (Ordinary.about r _)), ?_⟩
      rintro f ⟨⟩
      rfl
    · rename_i d hd
      refine Applies.done (hskipped.trans ?_)
      split
      · exact notes_showErrors _ r d.id p
      · exact (Notes.log _ (Ordinary.about r _)).trans (notes_showErrors _ r d.id p)

theorem applyCompletion_applies (b : Bridge) (r : Request) (startOffset : Int64)
    (v : Option Json) : Applies b (b.applyCompletion r startOffset v) := by
  unfold applyCompletion
  split
  · refine Applies.malformed (Notes.log b ?_) _
    exact (((show Ordinary "CRITICAL: failed to parse completions of " by decide).append
      _).append _).append _
  · rename_i p hp
    refine Applies.done ((notes_logSkipped b r p.skipped).trans ?_)
    split
    · exact Notes.updateDelivery _ _ _
    · exact (Notes.updateDelivery _ _ _).trans (Notes.log _ (Ordinary.about r _))

theorem applyDefinition_applies (b : Bridge) (r : Request) (v : Option Json) :
    Applies b (b.applyDefinition r v) := by
  unfold applyDefinition
  split
  · refine ⟨Notes.tell b _, ?_⟩
    rintro f ⟨⟩
    rfl
  · refine Applies.malformed (Notes.log b ?_) _
    exact (((show Ordinary "CRITICAL: failed to parse locate reply to " by decide).append
      _).append _).append _
  · split
    · exact Applies.done (Notes.tell b _)
    · exact Applies.done (Notes.tell b _)

theorem applyUsages_applies (b : Bridge) (r : Request) (v : Option Json) :
    Applies b (b.applyUsages r v) := by
  unfold applyUsages
  split
  · refine Applies.malformed (Notes.log b ?_) _
    exact (((show Ordinary "CRITICAL: failed to parse occurrences of " by decide).append
      _).append _).append _
  · rename_i p hp
    have hnotes := Notes.logAll (b.logSkipped r p.skipped) (p.spans.flatMap (usageNotes r)) (by
      intro line hline
      obtain ⟨s, -, h⟩ := List.mem_flatMap.mp hline
      exact ordinary_usageNotes r s h)
    exact Applies.done (((notes_logSkipped b r p.skipped).trans hnotes).trans (Notes.tell _ _))

theorem applyValue_applies (b : Bridge) (e : Editor) (r : Request) (v : Option Json) :
    Applies b (b.applyValue e r v) := by
  unfold applyValue
  split
  · exact applyErrors_applies b e r v
  · exact applyCompletion_applies b r _ v
  · exact applyDefinition_applies b r v
  · exact applyUsages_applies b r v

/-- In the state of the request's own kind, the parser of that kind is applied,
and the machine goes back to rest whether the value could be applied or not. -/
theorem handleValue_eq (b : Bridge) (e : Editor) (r : Request) (v : Option Json)
    (h : b.state = r.kind.state) :
    b.handleValue e r v =
      ({ (b.applyValue e r v).1 with state := .default }, (b.applyValue e r v).2) := by
  have hstate : (b.applyValue e r v).1.state = r.kind.state := by
    have hcontrol := congrArg Bridge.state (applyValue_applies b e r v).notes.control
    exact hcontrol.trans h
  unfold handleValue
  simp only [h, Request.Kind.ofState?_state, Request.Kind.received?_state, ne_eq,
    not_true_eq_false, if_false]
  split
  · rename_i b' fault hvalue
    rw [hvalue] at hstate ⊢
    have hnext : Protocol.next? b'.state .errorHappened = some .default := by
      rw [hstate]
      exact r.kind.next?_errorHappened
    rw [submit_of_next b' hnext]
  · rename_i b' hvalue
    rw [hvalue] at hstate ⊢
    have hnext : Protocol.next? b'.state r.kind.answer = some .default := by
      rw [hstate]
      exact r.kind.next?_answer
    rw [submit_of_next b' hnext]

/-- `p` is the outcome of handling a result in the state of the request's kind:
the machine is at rest, the breaker is `breaker`, and for the rest only notes
were added. -/
structure Answers (b : Bridge) (breaker : Breaker) (p : Bridge × Option Fault) : Prop where
  control : p.1.control = { b.control with state := .default, breaker := breaker }
  trace : ∃ notes, p.1.trace = b.trace ++ notes ∧ ∀ e ∈ notes, e.IsNote
  fault : ∀ f, p.2 = some f → f.isIncoherence = false

/-- What only talks after the machine has come to rest and the breaker was told
is an answer. -/
theorem Answers.of_notes {b b' : Bridge} {breaker : Breaker} {fault : Option Fault}
    (h : Notes { b with state := .default, breaker := breaker } b')
    (hfault : ∀ f, fault = some f → f.isIncoherence = false) :
    Answers b breaker (b', fault) :=
  ⟨h.control, h.trace, hfault⟩

theorem submit_errorHappened (b : Bridge) (k : Request.Kind) (h : b.state = k.state) :
    b.submit .errorHappened = { b with state := .default } := by
  apply submit_of_next
  rw [h]
  exact k.next?_errorHappened

theorem handleComplaint_answers (b : Bridge) (r : Request) (c : Complaint)
    (h : b.state = r.kind.state) : Answers b b.breaker (b.handleComplaint r c) := by
  unfold handleComplaint
  rw [submit_errorHappened b r.kind h]
  split
  · refine Answers.of_notes (Notes.tell _ _) ?_
    rintro f ⟨⟩
    rfl
  · refine Answers.of_notes (Notes.log _ ?_) ?_
    · exact ((show Ordinary "CRITICAL: reply to " by decide).append _).append _
    · rintro f ⟨⟩
      rfl

theorem handleOutput_answers (b : Bridge) (e : Editor) (r : Request) (out : Bytes)
    (h : b.state = r.kind.state) : Answers b b.breaker (b.handleOutput e r out) := by
  unfold handleOutput
  cases Envelope.decode out with
  | error err =>
      simp only [submit_errorHappened b r.kind h]
      refine Answers.of_notes (Notes.log _ ?_) ?_
      · exact (((((show Ordinary "CRITICAL: failed to parse reply to " by decide).append
          _).append _).append _).append _).append _
      · rintro f ⟨⟩
        rfl
  | ok env =>
      cases hcomplaint : env.complaint? with
      | some c =>
          simp only [hcomplaint]
          exact handleComplaint_answers b r c h
      | none =>
          have happlies := applyValue_applies b e r env.value
          simp only [hcomplaint, handleValue_eq b e r env.value h]
          refine ⟨?_, happlies.notes.trace, happlies.fault⟩
          change { (b.applyValue e r env.value).1.control with state := .default } = _
          rw [happlies.notes.control]
          rfl

theorem handleFault_answers (b : Bridge) (k : Request.Kind) (output : Bytes) (f : Tool.Fault)
    (h : b.state = k.state) :
    Answers b (b.breaker.report b.now false (some f)) (b.handleFault output f) := by
  unfold handleFault
  rw [submit_errorHappened b k h]
  by_cases hf : f = .incomplete
  · simp only [hf, if_true, Breaker.report]
    refine Answers.of_notes (Notes.log _ ?_) ?_
    · exact (((show Ordinary "CRITICAL: failed to parse reply: " by decide).append _).append
        _).append _
    · rintro f ⟨⟩
      rfl
  · have hreport : b.breaker.report b.now false (some f) = b.breaker.failure b.now := by
      simp [Breaker.report, hf]
    rw [hreport]
    simp only [hf, if_false]
    have hfault : ∀ g, some (Fault.transport f) = some g → g.isIncoherence = false := by
      rintro g ⟨⟩
      rfl
    -- The message is sent before the breaker is told, which makes no difference to the result.
    have hmessage : Notes { b with state := .default, breaker := b.breaker.failure b.now }
        { ({ b with state := .default }).tell (.message ("Merlin: " ++ f.message)) with
          breaker := b.breaker.failure b.now } := Notes.tell _ _
    split
    · exact Answers.of_notes (hmessage.trans (Notes.tell _ _)) hfault
    · exact Answers.of_notes hmessage hfault

theorem handle_answers (b : Bridge) (e : Editor) (cur : Running) (res : RunResult)
    (h : b.state = cur.request.kind.state) :
    Answers b (b.breaker.report b.now cur.closed res.fault) (b.handle e cur res) := by
  unfold handle
  by_cases hclosed : cur.closed = true
  · rw [if_pos hclosed, submit_errorHappened b cur.request.kind h]
    have hreport : b.breaker.report b.now cur.closed res.fault = b.breaker := by
      simp [Breaker.report, hclosed]
    rw [hreport]
    refine Answers.of_notes (Notes.refl _) ?_
    rintro f ⟨⟩
    rfl
  · rw [if_neg hclosed]
    have hopen : cur.closed = false := by simpa using hclosed
    rw [hopen]
    cases hfault : res.fault with
    | some f => exact handleFault_answers b cur.request.kind res.output f h
    | none =>
        obtain ⟨hcontrol, htrace, hfault⟩ :=
          handleOutput_answers { b with breaker := b.breaker.success } e cur.request res.output h
        exact ⟨hcontrol, htrace, hfault⟩

/-- A reply with a value, handled in the state of the request's kind, goes to
the parser of that kind. -/
theorem handle_reply (b : Bridge) (e : Editor) (cur : Running) (res : RunResult) {env : Envelope}
    (hstate : b.state = cur.request.kind.state) (hopen : cur.closed = false)
    (hreached : res.fault = none) (hreply : Envelope.decode res.output = .ok env)
    (hvalue : env.complaint? = none) :
    b.handle e cur res =
      let p := ({ b with breaker := b.breaker.success }).applyValue e cur.request env.value
      ({ p.1 with state := .default }, p.2) := by
  unfold handle handleOutput
  simp only [hopen, Bool.false_eq_true, if_false, hreached, hreply, hvalue]
  exact handleValue_eq _ e cur.request env.value hstate

end Bridge

end MerlinBridge
