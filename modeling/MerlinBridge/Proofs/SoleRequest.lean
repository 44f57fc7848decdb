import MerlinBridge.Console.Run
import MerlinBridge.Proofs.BreakerHistory
import MerlinBridge.Proofs.Effect

/-!
# Commands with one request

All commands but one open a single document and ask for one thing. Their bridge is
new, so the request is sent at once, its run is the only one, and what is seen of
the bridge in the end is the effect of what the tool has said (`done_singleJob`),
and what the tool has seen is that request (`calls_of_start`). The document has the
focus all the time.
-/

namespace MerlinBridge

namespace Bridge

theorem startNext_of_empty {b : Bridge} (h : b.queue.toList = []) : b.startNext = b := by
  unfold startNext
  rw [Queue.length_eq, h]
  rfl

/-- The bridge `a` has become `b` by sending `r`, which is all that waits in the queue,
and nothing is seen of that outside. -/
structure HasSent (a : Bridge) (r : Request) (b : Bridge) : Prop where
  settings : b.settings = a.settings
  breaker : b.breaker = a.breaker
  now : b.now = a.now
  state : b.state = r.kind.state
  queue : b.queue.toList = [r]
  running : b.running = some { request := r }
  outside : b.outside = a.outside

/-- A new bridge sends its first request as soon as the dispatcher is left alone. -/
theorem hasSent_settle (settings : Settings) (mayWatch : Bool) (query : Request.Query)
    (d : Document) (e : Editor) :
    HasSent (Bridge.new settings mayWatch) (.build 0 query (some d))
      ((((Bridge.new settings mayWatch).ask query (some d)).2).settle e) := by
  let r := Request.build 0 query (some d)
  let asked : Bridge :=
    { ({ Bridge.new settings mayWatch with nextId := 1 }).log ("enqueue " ++ r.text) with
      queue := (({} : Queue Request).append r).lower }
  have hsettle : (((Bridge.new settings mayWatch).ask query (some d)).2).settle e =
      asked.startNext := rfl
  have hadmission : asked.admission r = (asked, none) := by
    rw [admission_of_valid asked r rfl, Breaker.allow_of_closed asked.breaker _ rfl]
    rfl
  have hpeek : asked.queue.peek? = some r :=
    Queue.peek?_of_toList_eq_cons _ (Queue.toList_append {} r)
  rw [hsettle, startNext_of_admission hpeek hadmission, launch_eq _ _ rfl]
  exact ⟨rfl, rfl, rfl, rfl, Queue.toList_append {} r, rfl, rfl⟩

namespace HasSent

variable {a b : Bridge} {r : Request}

theorem logAll (h : HasSent a r b) (lines : List Bytes) : HasSent a r (b.logAll lines) := by
  have houtside := (outside_logAll b lines).trans h.outside
  rw [logAll_eq] at houtside ⊢
  exact ⟨h.settings, h.breaker, h.now, h.state, h.queue, h.running, houtside⟩

theorem effectOf_eq (h : HasSent a r b) (e : Editor) (res : RunResult) :
    b.effectOf e { request := r } res = a.effectOf e { request := r } res := by
  rw [effectOf, h.settings, h.breaker, h.now, effectOf]

theorem result (h : HasSent a r b) (e : Editor) (res : RunResult) :
    (b.result e res).running = none ∧
      (b.result e res).outside =
        ((a.effectOf e { request := r } res).act r a.outside).finish r
          (a.effectOf e { request := r } res).fault := by
  let cur : Running := { request := r }
  have hpeek := Queue.peek?_of_toList_eq_cons b.queue h.queue
  have hcontrol := control_complete b e cur res hpeek h.state
  have hqueue : (b.complete e cur res).queue = b.queue.pop := congrArg Bridge.queue hcontrol
  have hempty : (b.complete e cur res).queue.toList = [] := by
    rw [hqueue, Queue.toList_pop, h.queue, List.tail_cons]
  have hresult : b.result e res = b.complete e cur res := by
    simp only [Bridge.result, h.running]
    exact startNext_of_empty hempty
  rw [hresult, ← h.outside, ← h.effectOf_eq]
  exact ⟨congrArg Bridge.running hcontrol, outside_complete b e cur res hpeek h.state⟩

end HasSent

end Bridge

namespace Console

def toolSetup (settings : Settings) : Tool.Setup where
  path := settings.merlinPath
  extraFlags := settings.merlinFlags
  log := settings.merlinLog
  startAttempts := settings.startAttempts
  retireTimeout := settings.retireTimeout

def Toolbox.outcome (t : Toolbox) (settings : Settings) (r : Request) : Tool.Outcome :=
  (t.behaviour r.args).outcome (toolSetup settings) r.args (t.launch settings.merlinPath)

/-- What the run for the first request of a new bridge does outside, if the document
has the focus. -/
def Toolbox.effect (t : Toolbox) (settings : Settings) (r : Request) : Effect :=
  let res : RunResult :=
    { output := (t.outcome settings r).output, fault := (t.outcome settings r).fault }
  .ofResult settings (((Bridge.new settings false).breaker.report 0 false res.fault).isOpen) true
    { request := r } res

theorem Toolbox.effectOf_new (t : Toolbox) (settings : Settings) (mayWatch : Bool) {r : Request}
    {e : Editor} (focus : e.looksAt r = true) :
    (Bridge.new settings mayWatch).effectOf e { request := r }
        { output := (t.outcome settings r).output, fault := (t.outcome settings r).fault } =
      t.effect settings r := by
  unfold Bridge.effectOf
  rw [focus]
  rfl

/-- The run of the tool for a request as the tool sees it, if it starts. -/
def Toolbox.callsFor (t : Toolbox) (settings : Settings) (r : Request) : List Call :=
  if (toolSetup settings).starts r.args (t.launch settings.merlinPath) then
    [{ args := MerlinBridge.Command.argv r.args settings.merlinFlags
       stdin := r.snapshot.contents
       log := settings.merlinLog }]
  else []

def Job.done (j : Job) (t : Toolbox) : Job :=
  (j.settle.drive t (j.bridge.queue.length + 1)).1

/-- The tool is run once, if the job wants nothing more after that. -/
theorem Job.drive_of_stop {j : Job} {t : Toolbox} {r : Request} (pending : j.pending? = some r)
    (stop : (j.resume (t.outcome j.bridge.settings r)).pending? = none) (fuel : Nat) :
    j.drive t (fuel + 2) =
      (j.resume (t.outcome j.bridge.settings r), t.callsFor j.bridge.settings r) := by
  have hafter : (j.resume (t.outcome j.bridge.settings r)).drive t (fuel + 1) =
      (j.resume (t.outcome j.bridge.settings r), []) := by
    simp only [drive, stop]
  rw [drive, pending]
  change (let after := (j.resume (t.outcome j.bridge.settings r)).drive t (fuel + 1)
    (after.1, if j.setup.starts r.args (t.launch j.setup.path) then j.callFor r :: after.2
      else after.2)) = _
  rw [hafter]
  rfl

/-- A command starts if the settings can be had, there is a place for the log, and the
arguments make up a command that starts. -/
theorem start_eq_ok_iff {s : Surroundings} {args rest : List Bytes} {flags : Flags} {name : Bytes}
    {j : Job} (command : Flags.parse args = .ok (flags, name :: rest)) :
    start s args = .ok j ↔ ∃ settings c, s.settings flags = .ok settings ∧ s.checkLog = .ok () ∧
      Command.parse name rest = .ok c ∧
      c.start s (Bridge.new settings c.isWatched) = .ok j := by
  simp only [start, command]
  cases s.settings flags with
  | error err => simp
  | ok settings =>
      cases s.checkLog with
      | error err => simp [bind, Except.bind]
      | ok u =>
          cases Command.parse name rest with
          | error err => simp [bind, Except.bind]
          | ok c => simp [bind, Except.bind]

theorem run_of_start {s : Surroundings} {args : List Bytes} {j : Job}
    (h : start s args = .ok j) (t : Toolbox) : (run s t args).1 = (j.done t).report := by
  simp only [run, h, Job.done]

theorem hostCalls_trace (b : Bridge) : hostCalls b.trace = b.hostCalls := rfl

def Report.ofShown : Except Error Bytes → Report
  | .ok shown => { stdout := shown }
  | .error e => .ofError e

theorem Job.report_of_silent {j : Job}
    (results : j.bridge.hostCalls.flatMap (resultLines j.editor j.showsDiagnostics) = [])
    (messages : j.bridge.hostCalls.flatMap messageLine = []) :
    j.report = .ofShown (j.finish j.bridge) := by
  simp only [report, hostCalls_trace, results, messages]
  cases j.finish j.bridge <;> rfl

theorem slot_slots (x : Effect) (r : Request) : (x.slots r).done.slot = .full x.fault := by
  unfold Effect.slots Delivery.finish
  cases r.query.completionStart? <;> rfl

theorem looksAt_build (d : Document) (id : Nat) (query : Request.Query) :
    Editor.looksAt { documents := [d] } (.build id query (some d)) = true := by
  simp [Editor.looksAt, Editor.resolve, Editor.document?, Request.build, Editor.isFocused]

theorem pending?_settle_singleJob (settings : Settings) (mayWatch : Bool) (d : Document)
    (query : Request.Query) (finish : Nat → Bridge → Except Error Bytes) :
    (Command.singleJob (Bridge.new settings mayWatch) d query finish).settle.pending? =
      some (.build 0 query (some d)) := by
  have hsent := Bridge.hasSent_settle settings mayWatch query d { documents := [d] }
  exact congrArg (Option.map Running.request) hsent.running

/-- The tool is run for the one request, and that is all. -/
theorem drive_singleJob (settings : Settings) (mayWatch : Bool) (d : Document)
    (query : Request.Query) (finish : Nat → Bridge → Except Error Bytes) (t : Toolbox) :
    let j := Command.singleJob (Bridge.new settings mayWatch) d query finish
    let r := Request.build 0 query (some d)
    j.settle.drive t (j.bridge.queue.length + 1) =
      (j.settle.resume (t.outcome settings r), t.callsFor settings r) := by
  intro j r
  let o := t.outcome settings r
  have hsent : Bridge.HasSent (Bridge.new settings mayWatch) r j.settle.bridge :=
    Bridge.hasSent_settle settings mayWatch query d { documents := [d] }
  have hidle := ((hsent.logAll o.log).result { documents := [d] }
    { output := o.output, fault := o.fault }).1
  have hstop : (j.settle.resume (t.outcome settings r)).pending? = none :=
    congrArg (Option.map Running.request) hidle
  have hsettings : j.settle.bridge.settings = settings := hsent.settings
  rw [← hsettings] at hstop ⊢
  exact Job.drive_of_stop (pending?_settle_singleJob settings mayWatch d query finish) hstop 0

/-- A job with one request ends with the effect of the one run of the tool. -/
theorem done_singleJob (settings : Settings) (mayWatch : Bool) (d : Document)
    (query : Request.Query) (finish : Nat → Bridge → Except Error Bytes) (t : Toolbox) :
    ∃ b : Bridge,
      (Command.singleJob (Bridge.new settings mayWatch) d query finish).done t =
          { editor := { documents := [d] }, bridge := b, finish := finish 0 } ∧
        b.outside =
          ((t.effect settings (.build 0 query (some d))).act (.build 0 query (some d))
              (Bridge.new settings mayWatch).outside).finish
            (.build 0 query (some d)) (t.effect settings (.build 0 query (some d))).fault ∧
        faultOf b 0 = (t.effect settings (.build 0 query (some d))).fault := by
  let r := Request.build 0 query (some d)
  let e : Editor := { documents := [d] }
  let j := Command.singleJob (Bridge.new settings mayWatch) d query finish
  let o := t.outcome settings r
  let b := (j.settle.bridge.logAll o.log).result e { output := o.output, fault := o.fault }
  have hsent : Bridge.HasSent (Bridge.new settings mayWatch) r j.settle.bridge :=
    Bridge.hasSent_settle settings mayWatch query d e
  have houtside := ((hsent.logAll o.log).result e { output := o.output, fault := o.fault }).2
  rw [t.effectOf_new settings mayWatch (looksAt_build d 0 query)] at houtside
  have hdelivery : b.delivery 0 = (t.effect settings r).slots r :=
    (congrFun (congrArg Outside.delivery houtside) 0).trans
      ((t.effect settings r).delivery_act_finish rfl)
  refine ⟨b, ?_, houtside, by rw [faultOf, hdelivery, slot_slots]⟩
  exact congrArg Prod.fst (drive_singleJob settings mayWatch d query finish t)

theorem calls_of_start {s : Surroundings} {args : List Bytes} {settings : Settings}
    {mayWatch : Bool} {d : Document} {query : Request.Query}
    {finish : Nat → Bridge → Except Error Bytes}
    (h : start s args = .ok (Command.singleJob (Bridge.new settings mayWatch) d query finish))
    (t : Toolbox) : (run s t args).2 = t.callsFor settings (.build 0 query (some d)) := by
  simp only [run, h]
  exact congrArg Prod.snd (drive_singleJob settings mayWatch d query finish t)

end Console

end MerlinBridge
