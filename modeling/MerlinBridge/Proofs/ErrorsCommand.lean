import MerlinBridge.Proofs.AppliedErrors
import MerlinBridge.Proofs.Failure

/-!
# What the errors command prints

The errors command asks about all of its files at once, and the bridge runs the
tool for one after the other. `Attends` describes the bridge between two runs:
which requests have been served, which wait, and what has been printed for those
that were served. A run takes the first request that waits and prints what its
reply says, in the tool's own numbers: the column that is shown is one less than
that of the range, which is one more than that of the reply.
-/

namespace MerlinBridge

open Json Payload

/-- The result of a run is a reply that holds the diagnostics `es`. -/
def RunResult.Brings (res : RunResult) (es : List Json) : Prop :=
  res.fault = none ∧ ∃ env v, Envelope.decode res.output = .ok env ∧ env.complaint? = none ∧
    env.value = some v ∧ HoldsErrors v es

namespace Effect

variable {settings : Settings} {opened : Bool} {r : Request} {res : RunResult}

theorem ofResult_of_brings (settings : Settings) (opened : Bool) (check : r.query = .errors)
    {es : List Json} (h : res.Brings es) :
    ∃ entries, errorShape.Sifted es entries.errors entries.skipped ∧ (∀ v ∈ es, Legal v) ∧
      ofResult settings opened true { request := r } res = ofPayload r entries := by
  obtain ⟨hfault, env, v, hdecode, hcomplaint, hvalue, hholds⟩ := h
  have hlegal := Envelope.legal_value hdecode hvalue
  obtain ⟨p, hp⟩ := (Errors.accepted_iff hlegal).mpr ⟨es, hholds⟩
  refine ⟨p, errorShape_isolates.sifted hlegal hholds (resultsOf_eq_some_iff.mpr ⟨p, hp, rfl⟩),
    hholds.legal hlegal, ?_⟩
  simp only [ofResult, Bool.false_eq_true, if_false, hfault, ofOutput, hdecode, hcomplaint, ofValue,
    check, hvalue]
  exact ofErrors_of_payload hp

theorem brings_of_success (check : r.query = .errors)
    (h : (ofResult settings opened true { request := r } res).fault = none) :
    ∃ es, res.Brings es := by
  simp only [ofResult, Bool.false_eq_true, if_false] at h
  cases hfault : res.fault with
  | some f =>
      simp only [hfault, ofFault] at h
      split at h <;> cases h
  | none =>
      simp only [hfault, ofOutput] at h
      cases hdecode : Envelope.decode res.output with
      | error err =>
          simp only [hdecode] at h
          cases h
      | ok env =>
          simp only [hdecode] at h
          cases hcomplaint : env.complaint? with
          | some c =>
              simp only [hcomplaint, ofComplaint] at h
              split at h <;> cases h
          | none =>
              simp only [hcomplaint, ofValue, check, ofErrors] at h
              cases hp : Errors.ofJson env.value with
              | error err =>
                  simp only [hp] at h
                  cases h
              | ok p =>
                  cases hvalue : env.value with
                  | none =>
                      rw [hvalue] at hp
                      cases hp
                  | some v =>
                      rw [hvalue] at hp
                      obtain ⟨es, hes⟩ :=
                        Errors.holds_of_ofJson (Envelope.legal_value hdecode hvalue) hp
                      exact ⟨es, hfault, env, v, hdecode, hcomplaint, hvalue, hes⟩

end Effect

theorem Breaker.allow_success (b : Breaker) (now : Int) :
    b.success.allow now = (b.success, true) := by
  cases henabled : b.isEnabled with
  | true =>
      apply allow_of_closed
      simp only [success, henabled, if_true]
  | false => simp [success, allow, henabled]

namespace Console

/-! ## Lines -/

/-- A path, a line and a column, how serious it is, and what is said. -/
def entryText (path : Bytes) (line col : Int) (word message : Bytes) : Bytes :=
  path ++ ":" ++ Decimal.ofInt line ++ ":" ++ Decimal.ofInt col ++ ": " ++
    (Severity.ofWord word).name.map Bytes.toLower ++ ": " ++ message ++ "\n"

/-- The line of an entry, with the words that are passed on for its start. -/
def EntryLine (path : Bytes) (v : Json) (line : Bytes) : Prop :=
  ∃ pos word message, HasPos v "start" pos ∧ ReadsAs v "type" word ∧
    ReadsAs v "message" message ∧
    line = entryText path pos.line.toInt pos.col.toInt word message

/-- The line of an entry, with the numbers that the tool gives for its start. -/
def OwnLine (path : Bytes) (v : Json) (line : Bytes) : Prop :=
  ∃ (l c : Int) (word message : Bytes), PlacedAt Denotes v "start" l c ∧ ReadsAs v "type" word ∧
    ReadsAs v "message" message ∧ line = entryText path l c word message

/-- No number has a colon in it, so the numbers of a line can be told. -/
theorem entryText_inj {path word word' message message' : Bytes} {l l' c c' : Int}
    (h : entryText path l c word message = entryText path l' c' word' message') :
    l = l' ∧ c = c' := by
  have hcut : ∀ (z : Int) (s : Bytes), Bytes.cut? (Bytes.byte ':')
      (Decimal.ofInt z ++ Bytes.byte ':' :: s) = some (Decimal.ofInt z, s) := fun z s =>
    Bytes.cut?_eq_some_iff.mpr ⟨rfl, Decimal.colon_notMem_of_int? (Decimal.int?_ofInt z)⟩
  have hnumber : ∀ {z w : Int} {s t : Bytes}, Decimal.ofInt z ++ Bytes.byte ':' :: s =
      Decimal.ofInt w ++ Bytes.byte ':' :: t → z = w ∧ s = t := by
    intro z w s t h
    have hsame := hcut z s
    rw [h, hcut w t] at hsame
    obtain ⟨hnumber, hrest⟩ := Prod.mk.inj (Option.some.inj hsame)
    exact ⟨Decimal.ofInt_injective hnumber.symm, hrest.symm⟩
  simp only [entryText, List.append_assoc, List.append_cancel_left_eq] at h
  obtain ⟨hl, hrest⟩ := hnumber h
  exact ⟨hl, (hnumber hrest).1⟩

theorem entryLine_of_shows {r : Request} {v : Json} {d : Diagnostic} (h : d.Shows r v)
    (path : Bytes) : EntryLine path v (diagnosticLine path d) := by
  obtain ⟨s, hs, hrange⟩ := h.range
  obtain ⟨word, hword, hseverity⟩ := h.severity
  obtain ⟨start, stop, -, -, hshift⟩ := Range.ofSpan_eq_ok_iff.mp hrange
  refine ⟨s.start, word, d.message, hs.1, hword, h.message, ?_⟩
  simp only [diagnosticLine, place, hshift, hseverity, Int64.add_sub_cancel]
  rfl

/-- A line has the numbers of the tool exactly if these can be kept. -/
theorem EntryLine.ownLine_iff {path line : Bytes} {v : Json} (h : EntryLine path v line) :
    OwnLine path v line ↔ ∃ l c, PlacedAt Keeps v "start" l c := by
  obtain ⟨pos, word, message, hpos, hword, hmessage, rfl⟩ := h
  rw [← hpos.denotes_iff]
  constructor
  · rintro ⟨l, c, word', message', hplaced, -, -, htext⟩
    obtain ⟨rfl, rfl⟩ := entryText_inj htext
    exact hplaced
  · intro hplaced
    exact ⟨_, _, word, message, hplaced, hword, hmessage, rfl⟩

open Classical in
/-- What is printed for a request whose run has a result: a line for each entry of a reply that lies
in the text, in order, and nothing if there is no such reply. A line has the numbers of the tool
exactly if these can be kept. -/
structure Prints (r : Request) (res : RunResult) (out : Bytes) : Prop where
  entries : ∀ es, res.Brings es → ∃ lines,
    List.Forall₂ (fun v line => EntryLine r.path v line ∧
        (OwnLine r.path v line ↔ ∃ l c, PlacedAt Keeps v "start" l c))
      (es.filter fun v => v.LiesIn r.snapshot) lines ∧ out = lines.flatten
  nothing : (∀ es, ¬ res.Brings es) → out = []

/-- The editor knows the document of a request under its path, and looks at it. -/
structure Watches (e : Editor) (r : Request) : Prop where
  looks : e.looksAt r = true
  path : (e.document? (r.doc.getD 0)).map Document.path = some r.path

theorem prints_ofResult {settings : Settings} {opened : Bool} {e : Editor} {r : Request}
    (check : r.query = .errors) (watches : Watches e r) (res : RunResult) :
    Prints r res ((Effect.ofResult settings opened true { request := r } res).calls.flatMap
      (resultLines e true)) := by
  constructor
  · intro es hes
    obtain ⟨p, hsifted, hlegal, hresult⟩ := Effect.ofResult_of_brings settings opened check hes
    have hshows := Bridge.forall₂_shows (r := r) hlegal hsifted
    refine ⟨(p.errors.filterMap (Bridge.diagnosticOf? r)).map (diagnosticLine r.path), ?_, ?_⟩
    · rw [List.forall₂_map_right_iff]
      refine hshows.imp fun v d hd => ?_
      have hline := entryLine_of_shows hd r.path
      exact ⟨hline, hline.ownLine_iff⟩
    · rw [hresult, ← List.flatMap_def]
      simp [Effect.ofPayload, Effect.found, resultLines, watches.path]
  · intro hnone
    cases hfault : (Effect.ofResult settings opened true { request := r } res).fault with
    | none =>
        obtain ⟨es, hes⟩ := Effect.brings_of_success check hfault
        exact absurd hes (hnone es)
    | some fault =>
        obtain ⟨messages, hmessages, -⟩ :=
          (Effect.proper_ofResult settings opened true { request := r } res).fault fault hfault
        rw [hmessages]
        simp [Effect.failure, resultLines]

/-! ## One run after the other -/

def Toolbox.result (t : Toolbox) (settings : Settings) (r : Request) : RunResult :=
  { output := (t.outcome settings r).output, fault := (t.outcome settings r).fault }

/-- The bridge has served the requests `served`, for which `out` was printed. The first of those
that wait is under way. -/
structure Attends (t : Toolbox) (settings : Settings) (e : Editor) (served waiting : List Request)
    (out : List Bytes) (b : Bridge) : Prop where
  same : b.settings = settings
  queue : b.queue.toList = waiting
  running : b.running = waiting.head?.map fun r => { request := r }
  state : ∀ r ∈ waiting.head?, b.state = r.kind.state
  starts : b.starts = served ++ waiting.head?.toList
  lines : b.hostCalls.flatMap (resultLines e true) = out.flatten
  prints : List.Forall₂ (fun r o => Prints r (t.result settings r) o) served out

/-- A bridge at rest goes on with the next request. If the breaker lets it through, none is left
out. -/
theorem attends_startNext {t : Toolbox} {settings : Settings} {e : Editor} {served : List Request}
    {out : List Bytes} {b : Bridge} (idle : b.running = none) (rest : b.state = .default)
    (same : b.settings = settings) (starts : b.starts = served)
    (lines : b.hostCalls.flatMap (resultLines e true) = out.flatten)
    (prints : List.Forall₂ (fun r o => Prints r (t.result settings r) o) served out) :
    ∃ waiting, waiting <:+ b.queue.toList ∧
      ((b.breaker.allow b.now = (b.breaker, true) ∧ ∀ r ∈ b.queue.toList, r.isValid = true) →
        waiting = b.queue.toList) ∧
      Attends t settings e served waiting out b.startNext := by
  have hpicks := Bridge.startNext_picks b idle rest
  have hlines : b.startNext.hostCalls.flatMap (resultLines e true) = out.flatten := by
    rw [Bridge.hostCalls_startNext, lines]
  have hsettings : b.startNext.settings = settings := hpicks.frame.settings_eq.trans same
  refine ⟨b.startNext.queue.toList, hpicks.waiting, ?_, ?_⟩
  · rintro ⟨hallow, hvalid⟩
    cases hqueue : b.queue.toList with
    | nil => rw [Bridge.startNext_of_empty hqueue, hqueue]
    | cons r later =>
        have hr : r.isValid = true := hvalid r (by simp [hqueue])
        have hadmission : b.admission r = (b, none) := by
          rw [Bridge.admission_of_valid b r hr, hallow]
          rfl
        rw [Bridge.startNext_of_admission (Queue.peek?_of_toList_eq_cons b.queue hqueue) hadmission,
          Bridge.queue_launch, hqueue]
  · rcases hpicks.outcome with
      ⟨hidle, hempty, -, hstarts⟩ | ⟨r, -, hrunning, hpeek, hstate, hstarts⟩
    · rw [hempty]
      exact ⟨hsettings, hempty, hidle, nofun, by simp [hstarts, starts], hlines, prints⟩
    · rw [Queue.peek?_eq_head?] at hpeek
      refine ⟨hsettings, rfl, ?_, ?_, ?_, hlines, prints⟩
      · rw [hpeek, hrunning]
        rfl
      · rw [hpeek]
        rintro _ ⟨⟩
        exact hstate
      · rw [hpeek, hstarts, starts]
        rfl

namespace Attends

variable {t : Toolbox} {settings : Settings} {e : Editor} {served waiting : List Request}
  {out : List Bytes} {b : Bridge}

theorem logAll (h : Attends t settings e served waiting out b) (lines : List Bytes) :
    Attends t settings e served waiting out (b.logAll lines) := by
  have hcalls : (b.logAll lines).hostCalls = b.hostCalls :=
    congrArg Outside.calls (Bridge.outside_logAll b lines)
  have hstarts : (b.logAll lines).starts = b.starts := by
    simp [Bridge.starts, Bridge.logAll_eq, List.filterMap_map, Function.comp_def, Event.started?]
  rw [Bridge.logAll_eq] at hcalls hstarts ⊢
  exact ⟨h.same, h.queue, h.running, h.state, hstarts.trans h.starts, by rw [hcalls, h.lines],
    h.prints⟩

/-- The end of a run: what its result says is printed, and the bridge goes on. -/
theorem result {r : Request} (h : Attends t settings e served (r :: waiting) out b)
    (check : r.query = .errors) (watches : Watches e r) :
    ∃ later piece, later <:+ waiting ∧
      ((t.outcome settings r).fault = none → (∀ r ∈ waiting, r.isValid = true) → later = waiting) ∧
      Attends t settings e (served ++ [r]) later (out ++ [piece])
        (b.result e (t.result settings r)) := by
  let cur : Running := { request := r }
  let res := t.result settings r
  have hrunning : b.running = some cur := h.running
  have hpeek : b.queue.peek? = some r := Queue.peek?_of_toList_eq_cons b.queue h.queue
  have hstate : b.state = r.kind.state := h.state r rfl
  have hcontrol := Bridge.control_complete b e cur res hpeek hstate
  have hqueue : (b.complete e cur res).queue.toList = waiting := by
    rw [show (b.complete e cur res).queue = b.queue.pop from congrArg Bridge.queue hcontrol,
      Queue.toList_pop, h.queue, List.tail_cons]
  let x := Effect.ofResult settings (b.breaker.report b.now false res.fault).isOpen true cur res
  have hcalls : (b.complete e cur res).hostCalls = b.hostCalls ++ x.calls := by
    have heffect : b.effectOf e cur res = x := by
      rw [Bridge.effectOf, watches.looks, h.same]
    rw [← heffect]
    exact congrArg Outside.calls (Bridge.outside_complete b e cur res hpeek hstate)
  let piece := x.calls.flatMap (resultLines e true)
  have hprints : Prints r res piece := prints_ofResult check watches res
  have hsettings : (b.complete e cur res).settings = settings :=
    (congrArg Bridge.settings hcontrol).trans h.same
  have hstarts : (b.complete e cur res).starts = served ++ [r] :=
    (Bridge.quiet_complete b e cur res hpeek hstate).starts_eq.trans h.starts
  have hlines : (b.complete e cur res).hostCalls.flatMap (resultLines e true) =
      (out ++ [piece]).flatten := by
    rw [hcalls, List.flatMap_append, h.lines, List.flatten_append, List.flatten_singleton]
  obtain ⟨later, hlater, hall, hattends⟩ := attends_startNext (b := b.complete e cur res)
    (congrArg Bridge.running hcontrol) (congrArg Bridge.state hcontrol) hsettings hstarts hlines
    (List.rel_append h.prints (.cons hprints .nil))
  rw [hqueue] at hlater hall
  refine ⟨later, piece, hlater, ?_, ?_⟩
  · intro hreplied hvalid
    refine hall ⟨?_, hvalid⟩
    have hbreaker : (b.complete e cur res).breaker = b.breaker.success := by
      rw [show (b.complete e cur res).breaker = b.breaker.report b.now false res.fault from
        congrArg Bridge.breaker hcontrol, show res.fault = none from hreplied]
      rfl
    rw [hbreaker, Breaker.allow_success]
  · rw [Bridge.result, hrunning]
    exact hattends

end Attends

theorem attends_drive {t : Toolbox} {settings : Settings} {e : Editor}
    {served waiting : List Request} {out : List Bytes} (fuel : Nat) (enough : waiting.length ≤ fuel)
    (checks : ∀ r ∈ waiting, r.query = .errors ∧ r.isValid = true ∧ Watches e r) {j : Job}
    (editor : j.editor = e) (h : Attends t settings e served waiting out j.bridge) :
    ∃ served' out' b, (j.drive t fuel).1 = { j with bridge := b } ∧
      Attends t settings e served' [] out' b ∧ served'.Sublist (served ++ waiting) ∧
      ((∀ r ∈ waiting, (t.outcome settings r).fault = none) → served' = served ++ waiting) := by
  -- A run takes its request off the queue whatever its result, so that what waits gets shorter
  -- with every unit of fuel.
  induction fuel generalizing j served waiting out with
  | zero =>
      obtain rfl := List.length_eq_zero_iff.mp (Nat.le_zero.mp enough)
      exact ⟨served, out, j.bridge, rfl, h, by simp, by simp⟩
  | succ fuel ih =>
      cases waiting with
      | nil =>
          have hidle : j.pending? = none := by
            rw [Job.pending?, h.running]
            rfl
          refine ⟨served, out, j.bridge, ?_, h, by simp, by simp⟩
          simp only [Job.drive, hidle]
      | cons r waiting =>
          have hpending : j.pending? = some r := by
            rw [Job.pending?, h.running]
            rfl
          obtain ⟨⟨hcheck, -, hwatches⟩, hchecks⟩ := List.forall_mem_cons.mp checks
          obtain ⟨later, piece, hlater, hall, hattends⟩ :=
            (h.logAll (t.outcome settings r).log).result hcheck hwatches
          have hresume : (j.resume (t.outcome j.bridge.settings r)).bridge =
              (j.bridge.logAll (t.outcome settings r).log).result e (t.result settings r) := by
            rw [h.same, ← editor]
            rfl
          have hdrive : (j.drive t (fuel + 1)).1 =
              ((j.resume (t.outcome j.bridge.settings r)).drive t fuel).1 := by
            rw [Job.drive, hpending]
            rfl
          obtain ⟨served', out', b, hdone, hends, hsublist, hserved⟩ :=
            ih (hlater.length_le.trans (Nat.le_of_succ_le_succ enough))
              (fun q hq => hchecks q (hlater.subset hq))
              (j := j.resume (t.outcome j.bridge.settings r)) editor
              (by rw [hresume]; exact hattends)
          refine ⟨served', out', b, ?_, hends, ?_, ?_⟩
          · rw [hdrive, hdone]
            rfl
          · refine hsublist.trans ?_
            rw [List.append_assoc]
            exact (List.Sublist.refl served).append (hlater.sublist.cons_cons r)
          · intro hreplied
            obtain ⟨hr, hreplied⟩ := List.forall_mem_cons.mp hreplied
            obtain rfl := hall hr fun q hq => (hchecks q hq).2.1
            rw [hserved hreplied, List.append_assoc]
            rfl

/-! ## From the arguments to the first run -/

def checkOf (d : Document) : Request :=
  .build d.id .errors (some d)

/-- A bridge at rest, with a request for each document in its queue and the signal raised. -/
structure Waits (settings : Settings) (docs : List Document) (b : Bridge) : Prop where
  same : b.settings = settings
  breaker : b.breaker.state = .closed
  queue : b.queue.toList = docs.map checkOf
  signal : docs ≠ [] → b.queue.signal = true
  running : b.running = none
  state : b.state = .default
  alive : b.dying = false ∧ b.dead = false
  nextId : b.nextId = docs.length
  starts : b.starts = []
  calls : b.hostCalls = []

/-- To watch a document is to keep a record of it, and to say so at most. -/
theorem watchDocument_eq (b : Bridge) (present : Bytes → Bool) (d : Document) :
    ∃ (tracker : _) (lines : List Bytes), b.watchDocument present d =
      { b with tracker := tracker, trace := b.trace ++ lines.map .log } := by
  unfold Bridge.watchDocument
  split
  · exact ⟨b.tracker, [], by simp⟩
  · split
    · exact ⟨b.tracker, [], by simp⟩
    · dsimp only
      split
      · exact ⟨_, [_], rfl⟩
      · exact ⟨_, [_], rfl⟩
      · exact ⟨_, [], by simp; rfl⟩

theorem enqueue_of_alive {b : Bridge} (alive : b.dying = false ∧ b.dead = false) (r : Request) :
    ∃ line, b.enqueue r =
      { b with queue := (b.queue.append r).raise, trace := b.trace ++ [.log line] } := by
  have hdead : (((b.log ("enqueue " ++ r.text)).appendRequest r).raiseSignal).dead = false :=
    alive.2
  refine ⟨("enqueue " ++ r.text).dropEnd "\n", ?_⟩
  unfold Bridge.enqueue
  rw [if_neg (show ¬ b.refuses = true from ne_true_of_eq_false alive.1)]
  exact if_neg (ne_true_of_eq_false hdead)

theorem askErrors_eq {b : Bridge} (alive : b.dying = false ∧ b.dead = false)
    (present : Bytes → Bool) (d : Document) :
    ∃ (tracker : _) (lines : List Bytes), (b.askErrors present (some d)).2 =
      { b with
        nextId := b.nextId + 1
        tracker := tracker
        queue := (b.queue.append (.build b.nextId .errors (some d))).raise
        trace := b.trace ++ lines.map .log } := by
  obtain ⟨tracker, lines, hwatch⟩ := watchDocument_eq { b with nextId := b.nextId + 1 } present d
  obtain ⟨line, henqueue⟩ := enqueue_of_alive
    (b := { b with nextId := b.nextId + 1, tracker := tracker, trace := b.trace ++ lines.map .log })
    alive (.build b.nextId .errors (some d))
  refine ⟨tracker, lines ++ [line], ?_⟩
  rw [List.map_append, ← List.append_assoc]
  exact (congrArg (Bridge.enqueue · _) hwatch).trans henqueue

theorem Waits.ask {settings : Settings} {docs : List Document} {b : Bridge}
    (h : Waits settings docs b) (present : Bytes → Bool) {d : Document} (id : d.id = docs.length) :
    Waits settings (docs ++ [d]) (b.askErrors present (some d)).2 := by
  obtain ⟨tracker, lines, hasked⟩ := askErrors_eq h.alive present d
  have hrequest : Request.build b.nextId .errors (some d) = checkOf d := by
    rw [checkOf, id, h.nextId]
  have hlog : ∀ {α : Type} (f : Event → Option α), (∀ line, f (.log line) = none) →
      (b.trace ++ lines.map Event.log).filterMap f = b.trace.filterMap f := by
    intro α f hf
    simp [List.filterMap_map, hf]
  rw [hasked, hrequest]
  constructor
  case same => exact h.same
  case breaker => exact h.breaker
  case queue =>
    rw [Queue.toList_raise, Queue.toList_append, h.queue, List.map_append]
    rfl
  case signal => exact fun _ => rfl
  case running => exact h.running
  case state => exact h.state
  case alive => exact h.alive
  case nextId => rw [h.nextId, List.length_append, List.length_singleton]
  case starts => exact (hlog Event.started? fun _ => rfl).trans h.starts
  case calls => exact (hlog Event.host? fun _ => rfl).trans h.calls

theorem waits_askAll {settings : Settings} {asked docs : List Document} {b : Bridge}
    (h : Waits settings asked b) (s : Surroundings)
    (ids : docs.map Document.id = List.range' asked.length docs.length) :
    Waits settings (asked ++ docs) (askAll s b docs).2 := by
  induction docs generalizing asked b with
  | nil => simpa [askAll] using h
  | cons d docs ih =>
      obtain ⟨hid, hids⟩ := List.cons.inj ids
      have hnext := ih (h.ask (isPresent s) hid) (by simpa using hids)
      rw [List.append_assoc] at hnext
      exact hnext

theorem waits_new (settings : Settings) (mayWatch : Bool) :
    Waits settings [] (Bridge.new settings mayWatch) :=
  ⟨rfl, rfl, rfl, nofun, rfl, rfl, ⟨rfl, rfl⟩, rfl, rfl, rfl⟩

theorem ids_openDocuments {s : Surroundings} {id : Nat} {files : List Bytes} {docs : List Document}
    (h : openDocuments s id files = .ok docs) :
    docs.map Document.id = List.range' id files.length := by
  induction files generalizing id docs with
  | nil =>
      obtain rfl := Except.ok.inj h
      rfl
  | cons name files ih =>
      simp only [openDocuments, bind, Except.bind] at h
      split at h
      · cases h
      · rename_i d hopen
        split at h
        · cases h
        · rename_i rest hrest
          obtain rfl := Except.ok.inj h
          have hid : d.id = id := by
            unfold openDocument at hopen
            split at hopen
            · cases hopen
            · rw [← Except.ok.inj hopen]
              rfl
          rw [List.map_cons, hid, ih hrest, List.length_cons, List.range'_succ]

theorem watches_checkOf {docs : List Document} (ids : (docs.map Document.id).Nodup) {d : Document}
    (hd : d ∈ docs) : Watches { documents := docs } (checkOf d) := by
  have hfound : Editor.document? { documents := docs } d.id = some d := by
    obtain ⟨before, after, rfl⟩ := List.append_of_mem hd
    refine List.find?_eq_some_iff_append.mpr ⟨by simp, before, after, rfl, ?_⟩
    intro c hc
    rw [List.map_append, List.map_cons] at ids
    have hne := (List.nodup_append.mp ids).2.2 c.id (List.mem_map_of_mem hc) d.id List.mem_cons_self
    simpa using hne
  constructor
  · simp [Editor.looksAt, Editor.resolve, checkOf, Request.build, hfound, Editor.isFocused]
  · simp [checkOf, Request.build, hfound]

theorem Waits.attends {settings : Settings} {docs : List Document} {b : Bridge}
    (h : Waits settings docs b) (nonempty : docs ≠ []) (t : Toolbox) (e : Editor) :
    Attends t settings e [] (docs.map checkOf) [] (b.settle e) := by
  let c : Bridge := { b with queue := b.queue.lower }
  have hsettle : b.settle e = c.startNext := by
    have hidle : b.endCancelled e = b := by
      simp only [Bridge.endCancelled, h.running]
    unfold Bridge.settle
    rw [if_neg (ne_true_of_eq_false h.alive.2), hidle]
    unfold Bridge.wake
    rw [if_pos (h.signal nonempty)]
    exact if_pos (congrArg Option.isNone h.running)
  have hlines : c.hostCalls.flatMap (resultLines e true) = ([] : List Bytes).flatten := by
    rw [show c.hostCalls = [] from h.calls]
    rfl
  obtain ⟨waiting, -, hall, hattends⟩ :=
    attends_startNext (t := t) (b := c) h.running h.state h.same h.starts hlines .nil
  have hqueue : c.queue.toList = docs.map checkOf := h.queue
  have hwaiting : waiting = docs.map checkOf := by
    rw [← hqueue]
    refine hall ⟨Breaker.allow_of_closed c.breaker c.now h.breaker, ?_⟩
    rw [hqueue, List.forall_mem_map]
    exact fun d _ => rfl
  rw [hsettle, ← hwaiting]
  exact hattends

def checkedFiles (rest : List Bytes) : List Bytes :=
  if Command.asksForWatch rest then rest.drop 1 else rest

def errorsJob (s : Surroundings) (settings : Settings) (isWatched : Bool) (docs : List Document) :
    Job :=
  let asked := askAll s (Bridge.new settings isWatched) docs
  { editor := { documents := docs }
    bridge := asked.2
    showsDiagnostics := true
    finish := fun b =>
      match firstFault b ((docs.map Document.path).zip asked.1) with
      | some e => .error e
      | none => .ok [] }

theorem eq_errorsJob {s : Surroundings} {args rest : List Bytes} {flags : Flags} {j : Job}
    (command : Flags.parse args = .ok (flags, ("errors" : Bytes) :: rest))
    (started : start s args = .ok j) :
    ∃ settings isWatched docs, openDocuments s 0 (checkedFiles rest) = .ok docs ∧ docs ≠ [] ∧
      j = errorsJob s settings isWatched docs := by
  obtain ⟨settings, c, -, -, hparse, hjob⟩ := (start_eq_ok_iff command).mp started
  have hfiles : Command.parse "errors" rest = if checkedFiles rest = [] then .error .missingFile
      else .ok (.errors (checkedFiles rest) (Command.asksForWatch rest)) := rfl
  rw [hfiles] at hparse
  split at hparse
  · cases hparse
  · rename_i hsome
    obtain rfl := Except.ok.inj hparse
    cases hopen : openDocuments s 0 (checkedFiles rest) with
    | error err => simp [Command.start, hopen, bind, Except.bind] at hjob
    | ok docs =>
        simp only [Command.start, hopen, bind, Except.bind] at hjob
        refine ⟨settings, _, docs, rfl, ?_, (Except.ok.inj hjob).symm⟩
        rintro rfl
        have hlength := congrArg List.length (ids_openDocuments hopen)
        rw [List.map_nil, List.length_nil, List.length_range'] at hlength
        exact hsome (List.length_eq_zero_iff.mp hlength.symm)

theorem waits_errorsJob (s : Surroundings) (settings : Settings) (isWatched : Bool)
    {docs : List Document} (ids : docs.map Document.id = List.range' 0 docs.length) :
    Waits settings docs (errorsJob s settings isWatched docs).bridge :=
  waits_askAll (waits_new settings isWatched) s ids

/-- What is printed about the documents `docs` when the tool is run for the requests `served`: for
each of these, one after the other, what its reply says. No document is left out as long as every
run ends with a reply. -/
structure PrintsReplies (t : Toolbox) (settings : Settings) (docs : List Document)
    (served : List Request) (stdout : Bytes) : Prop where
  order : served.Sublist (docs.map checkOf)
  all : (∀ d ∈ docs, (t.outcome settings (checkOf d)).fault = none) → served = docs.map checkOf
  pieces : ∃ pieces, List.Forall₂ (fun r o => Prints r (t.result settings r) o) served pieces ∧
    stdout = pieces.flatten

theorem printsReplies_errorsJob (s : Surroundings) (t : Toolbox) (settings : Settings)
    (isWatched : Bool) {docs : List Document}
    (ids : docs.map Document.id = List.range' 0 docs.length) (nonempty : docs ≠ []) :
    PrintsReplies t settings docs ((errorsJob s settings isWatched docs).done t).bridge.starts
      ((errorsJob s settings isWatched docs).done t).report.stdout := by
  let j := errorsJob s settings isWatched docs
  have hwaits := waits_errorsJob s settings isWatched ids
  have hnodup : (docs.map Document.id).Nodup := by
    rw [ids]
    exact List.nodup_range'
  have hlength : (docs.map checkOf).length ≤ j.bridge.queue.length + 1 := by
    rw [Queue.length_eq, hwaits.queue]
    exact Nat.le_succ _
  obtain ⟨served, out, b, hdone, hattends, hsublist, hall⟩ :=
    attends_drive (j.bridge.queue.length + 1) hlength
      (List.forall_mem_map.mpr fun d hd => ⟨rfl, rfl, watches_checkOf hnodup hd⟩)
      (j := j.settle) rfl (hwaits.attends nonempty t j.editor)
  have hfinal : j.done t = { j with bridge := b } := hdone
  have hstarts : b.starts = served := by simpa using hattends.starts
  have hstdout : (j.done t).report.stdout = out.flatten := by
    rw [hfinal, ← hattends.lines]
    simp only [Job.report, hostCalls_trace, j, errorsJob]
    cases firstFault b _ with
    | none => exact List.append_nil _
    | some err => rfl
  rw [hstdout, hfinal, hstarts]
  exact ⟨hsublist, fun hreplied => hall (List.forall_mem_map.mpr hreplied), out, hattends.prints,
    rfl⟩

/-- What the user sees of a check is all of one piece. Of a reply that is applied, the entries with
a span of the text are stored, highlighted and listed in their order, and each of the others is
noted in the log once. The errors command prints the same entries in the same order. Their lines and
columns are those of the tool exactly if these are integers that can be kept. -/
theorem diagnostics_displayed_and_printed (s : Surroundings) (t : Toolbox) :
    (∀ (b : Bridge) (e : Editor) (r : Request) (v : Json), Legal v → e.looksAt r = true →
      ((b.applyErrors e r (some v)).2 = none ↔ ∃ es, HoldsErrors v es) ∧
      ∀ es, HoldsErrors v es → Bridge.Displays r es b (b.applyErrors e r (some v)).1) ∧
    ∀ (args rest : List Bytes) (flags : Flags) (j : Job),
      Flags.parse args = .ok (flags, ("errors" : Bytes) :: rest) → start s args = .ok j →
      ∃ docs, openDocuments s 0 (checkedFiles rest) = .ok docs ∧
        PrintsReplies t j.bridge.settings docs (j.done t).bridge.starts
          (run s t args).1.stdout := by
  constructor
  · intro b e r v hlegal hfocus
    exact ⟨Bridge.applyErrors_eq_none_iff b hlegal hfocus,
      fun es hes => (Bridge.displays_of_holds b hlegal hes hfocus).2⟩
  · intro args rest flags j hcommand hstart
    obtain ⟨settings, isWatched, docs, hopen, hsome, rfl⟩ := eq_errorsJob hcommand hstart
    have hids := ids_openDocuments hopen
    have hlength := congrArg List.length hids
    rw [List.length_map, List.length_range'] at hlength
    rw [← hlength] at hids
    refine ⟨docs, hopen, ?_⟩
    rw [run_of_start hstart, (waits_errorsJob s settings isWatched hids).same]
    exact printsReplies_errorsJob s t settings isWatched hids hsome

def checkEntry (line start stop message type : Bytes) : Json :=
  let pos (col : Bytes) : Json := plainObject [("line", .number line), ("col", .number col)]
  plainObject
    [("start", pos start), ("end", pos stop), ("message", .string message), ("type", .string type)]

/-- Two diagnostics of a text with one line, and between them one that is none and one that lies
outside. -/
def mixedEntries : List Json :=
  [checkEntry "1" "0" "1" "odd" "error", .null, checkEntry "9" "0" "1" "far" "error",
    checkEntry "1" "2" "3" "even" "warning"]

def checkTool (entries : List Json) : Toolbox where
  launch := fun _ => .ready
  behaviour := fun _ =>
    { stdout := "\x7b\"class\":\"return\",\"value\":" ++ (plainArray entries).text ++ "\x7d\n" }

theorem legal_checkEntry {line start stop message type : Bytes} (hline : IsWhole line)
    (hstart : IsWhole start) (hstop : IsWhole stop) (hmessage : message.all isPlain = true)
    (htype : type.all isPlain = true) : Legal (checkEntry line start stop message type) := by
  have hpos : ∀ {col : Bytes}, IsWhole col →
      Legal (plainObject [("line", .number line), ("col", .number col)]) := fun hcol =>
    legal_plainObject rfl (List.forall_mem_cons.mpr ⟨legal_of_isWhole hline,
      List.forall_mem_singleton.mpr (legal_of_isWhole hcol)⟩)
  refine legal_plainObject rfl (List.forall_mem_cons.mpr ⟨hpos hstart,
    List.forall_mem_cons.mpr ⟨hpos hstop, List.forall_mem_cons.mpr ⟨.string (.of_plain hmessage),
      List.forall_mem_singleton.mpr (.string (.of_plain htype))⟩⟩⟩)

theorem legal_mixedEntries : Legal (plainArray mixedEntries) := by
  have hzero : IsWhole "0" := .zero
  have hone : IsWhole "1" := isWhole_of_all (by decide) (by decide)
  have htwo : IsWhole "2" := isWhole_of_all (by decide) (by decide)
  have hthree : IsWhole "3" := isWhole_of_all (by decide) (by decide)
  have hnine : IsWhole "9" := isWhole_of_all (by decide) (by decide)
  exact legal_plainArray (List.forall_mem_cons.mpr
    ⟨legal_checkEntry hone hzero hone (by decide) (by decide), List.forall_mem_cons.mpr ⟨.null,
      List.forall_mem_cons.mpr ⟨legal_checkEntry hnine hzero hone (by decide) (by decide),
        List.forall_mem_singleton.mpr
          (legal_checkEntry hone htwo hthree (by decide) (by decide))⟩⟩⟩)

/-- The two are displayed, and printed with the columns of the reply. -/
theorem diagnostics_of_mixedReply :
    (Editor.looksAt { documents := [scantPage] } (checkOf scantPage) = true ∧
      HoldsErrors (plainArray mixedEntries) mixedEntries ∧
      Bridge.Displays (checkOf scantPage) mixedEntries (Bridge.new World.brittle false)
        ((Bridge.new World.brittle false).applyErrors { documents := [scantPage] }
          (checkOf scantPage) (some (plainArray mixedEntries))).1) ∧
    ∃ j docs, start scantDesk ["errors", "a.ml"] = .ok j ∧
      PrintsReplies (checkTool mixedEntries) j.bridge.settings docs
        (j.done (checkTool mixedEntries)).bridge.starts
        (run scantDesk (checkTool mixedEntries) ["errors", "a.ml"]).1.stdout ∧
      (run scantDesk (checkTool mixedEntries) ["errors", "a.ml"]).1.stdout =
        "a.ml:1:0: error: odd\na.ml:1:2: warning: even\n" := by
  obtain ⟨hdisplays, hprints⟩ :=
    diagnostics_displayed_and_printed scantDesk (checkTool mixedEntries)
  have hholds : HoldsErrors (plainArray mixedEntries) mixedEntries := .bare
  constructor
  · have hfocus : Editor.looksAt { documents := [scantPage] } (checkOf scantPage) = true := by
      decide
    exact ⟨hfocus, hholds, (hdisplays _ _ _ _ legal_mixedEntries hfocus).2 _ hholds⟩
  · have hcommand : Flags.parse ["errors", "a.ml"] = .ok ({}, [("errors" : Bytes), "a.ml"]) := by
      decide +kernel
    have hstdout : (run scantDesk (checkTool mixedEntries) ["errors", "a.ml"]).1.stdout =
        "a.ml:1:0: error: odd\na.ml:1:2: warning: even\n" := by decide +kernel
    cases hstart : start scantDesk ["errors", "a.ml"] with
    | error err =>
        rw [run, hstart] at hstdout
        exact absurd (show ([] : Bytes) = _ from hstdout) (by decide)
    | ok j =>
        obtain ⟨docs, -, hreplies⟩ := hprints _ _ _ j hcommand hstart
        exact ⟨j, docs, rfl, hreplies, hstdout⟩

theorem placedAt_checkEntry {α : Type} {reads : Bytes → α → Prop}
    {line start stop message type : Bytes} {l c d : α} (hline : reads line l)
    (hstart : reads start c) (hstop : reads stop d) :
    PlacedAt reads (checkEntry line start stop message type) "start" l c ∧
      PlacedAt reads (checkEntry line start stop message type) "end" l d := by
  have hcolSelf : StandsFor (Bytes.ofString "col") "col" := standsFor_self (by decide)
  have hendSelf : StandsFor (Bytes.ofString "end") "end" := standsFor_self (by decide)
  have hcol : ¬ StandsFor (Bytes.ofString "line") "col" := fun h =>
    absurd h.unescape_eq (by decide)
  have hend : ¬ StandsFor (Bytes.ofString "start") "end" := fun h =>
    absurd h.unescape_eq (by decide)
  have hpos : ∀ {col : Bytes} {x : α}, reads col x →
      let p := plainObject [("line", .number line), ("col", .number col)]
      HasNumber reads p "line" l ∧ HasNumber reads p "col" x := by
    intro col x hx p
    exact ⟨⟨line, isFirst_plainObject (by decide), hline⟩, col, isFirst_cons.mpr
      (Or.inr ⟨hcol, isFirst_cons.mpr (Or.inl ⟨hcolSelf, rfl⟩)⟩), hx⟩
  exact ⟨⟨_, isFirst_plainObject (by decide), rfl, hpos hstart⟩, _, isFirst_cons.mpr
    (Or.inr ⟨hend, isFirst_cons.mpr (Or.inl ⟨hendSelf, rfl⟩)⟩), rfl, hpos hstop⟩

/-- Two diagnostics have numbers that are too large, and one has numbers that are no integers. All
three are printed at the start of the text. -/
theorem printed_at_origin :
    let wide := checkEntry "1" "18446744073709551616" "18446744073709551617" "wide" "error"
    let far := checkEntry "18446744073709551617" "0" "1" "far" "warning"
    let between := checkEntry "1.9" "0.7" "0.9" "between" "error"
    (run scantDesk (checkTool [wide, far, between]) ["errors", "a.ml"]).1.stdout =
        "a.ml:1:0: error: wide\na.ml:1:0: warning: far\na.ml:1:0: error: between\n" ∧
      OwnLine "a.ml" wide "a.ml:1:18446744073709551616: error: wide\n" ∧
      OwnLine "a.ml" far "a.ml:18446744073709551617:0: warning: far\n" ∧
      PlacedAt Denotes between "start" (19 / 10) (7 / 10) := by
  intro wide far between
  have hzero : IsWhole "0" := .zero
  have hone : IsWhole "1" := isWhole_of_all (by decide) (by decide)
  have hbelow : IsWhole "18446744073709551616" := isWhole_of_all (by decide) (by decide)
  have habove : IsWhole "18446744073709551617" := isWhole_of_all (by decide) (by decide)
  have hwide : Legal wide := legal_checkEntry hone hbelow habove (by decide) (by decide)
  have hfar : Legal far := legal_checkEntry habove hzero hone (by decide) (by decide)
  refine ⟨by decide +kernel, ?_, ?_, ?_⟩
  · exact ⟨_, _, "error", "wide", (placedAt_checkEntry (IsNumeral.denotes (.plain hone))
      (IsNumeral.denotes (.plain hbelow)) (IsNumeral.denotes (.plain habove))).1,
      (contentOf_get?_iff hwide).mp (by decide +kernel),
      (contentOf_get?_iff hwide).mp (by decide +kernel), by decide +kernel⟩
  · exact ⟨_, _, "warning", "far", (placedAt_checkEntry (IsNumeral.denotes (.plain habove))
      (IsNumeral.denotes (.plain hzero)) (IsNumeral.denotes (.plain hone))).1,
      (contentOf_get?_iff hfar).mp (by decide +kernel),
      (contentOf_get?_iff hfar).mp (by decide +kernel), by decide +kernel⟩
  · have hline : Denotes "1.9" (19 / 10) := denotes_tenths hone (d := Bytes.byte '9') (by decide)
    have hstart : Denotes "0.7" (7 / 10) := denotes_tenths hzero (d := Bytes.byte '7') (by decide)
    have hstop : Denotes "0.9" (9 / 10) := denotes_tenths hzero (d := Bytes.byte '9') (by decide)
    exact (placedAt_checkEntry hline hstart hstop).1

end Console

end MerlinBridge
