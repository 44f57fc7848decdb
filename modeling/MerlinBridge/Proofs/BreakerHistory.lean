import Mathlib.Algebra.Order.Ring.Int
import Mathlib.Data.List.Induction
import MerlinBridge.Proofs.Trial

/-!
# The breaker and its history

A breaker is asked for calls, is told of successes and failures, and sees time
pass, in any order; an outcome may be reported although no call was let through.
All that it answers is a matter of what has happened so far: of the failures since
the last success (`streak`), of the time since the last failure (`sinceFailure`),
and of whether a trial call waits for its report (`Awaits`). `Tells` ties the
fields of the breaker to these three.
-/

namespace MerlinBridge

namespace Breaker

inductive Act where
  | allow
  | success
  | failure
  | elapse (ns : Nat)
deriving DecidableEq

namespace Act

def isReport : Act → Bool
  | success => true
  | failure => true
  | _ => false

def duration : Act → Nat
  | elapse ns => ns
  | _ => 0

end Act

/-! ## History -/

def streak (as : List Act) : Nat :=
  (as.reverse.takeWhile (· ≠ .success)).count .failure

@[simp] theorem streak_nil : streak [] = 0 := rfl

@[simp] theorem streak_append_success (as : List Act) : streak (as ++ [.success]) = 0 := by
  simp [streak]

@[simp] theorem streak_append_failure (as : List Act) :
    streak (as ++ [.failure]) = streak as + 1 := by
  simp [streak]

@[simp] theorem streak_append_allow (as : List Act) : streak (as ++ [.allow]) = streak as := by
  simp [streak]

@[simp] theorem streak_append_elapse (as : List Act) (ns : Nat) :
    streak (as ++ [.elapse ns]) = streak as := by
  simp [streak]

theorem streak_le_count (as : List Act) : streak as ≤ as.count .failure := by
  have hsublist := List.takeWhile_sublist (l := as.reverse) (fun a : Act => decide (a ≠ .success))
  have hcount := hsublist.count_le Act.failure
  rwa [List.count_reverse] at hcount

def sinceFailure (as : List Act) : Nat :=
  ((as.reverse.takeWhile (· ≠ .failure)).map Act.duration).sum

@[simp] theorem sinceFailure_append_failure (as : List Act) :
    sinceFailure (as ++ [.failure]) = 0 := by
  simp [sinceFailure]

theorem sinceFailure_append (as : List Act) {a : Act} (h : a ≠ .failure) :
    sinceFailure (as ++ [a]) = sinceFailure as + a.duration := by
  simp [sinceFailure, h, Nat.add_comm]

/-! ## Runs -/

structure Clocked where
  breaker : Breaker
  now : Int
deriving DecidableEq

namespace Clocked

def fresh (maxFailures : Int64) (cooldown : Duration) (now : Int) : Clocked :=
  ⟨{ maxFailures := maxFailures, cooldown := cooldown }, now⟩

def step (c : Clocked) : Act → Clocked
  | .allow => { c with breaker := (c.breaker.allow c.now).1 }
  | .success => { c with breaker := c.breaker.success }
  | .failure => { c with breaker := c.breaker.failure c.now }
  | .elapse ns => { c with now := c.now + ns }

def run (c : Clocked) (as : List Act) : Clocked :=
  as.foldl step c

theorem run_append (c : Clocked) (as bs : List Act) : c.run (as ++ bs) = (c.run as).run bs :=
  List.foldl_append

theorem run_append_singleton (c : Clocked) (as : List Act) (a : Act) :
    c.run (as ++ [a]) = (c.run as).step a :=
  run_append c as [a]

def admits (c : Clocked) : Bool :=
  (c.breaker.allow c.now).2

def opensOnFailure (c : Clocked) : Bool :=
  (c.breaker.failure c.now).isOpen

def admissions (c : Clocked) : List Act → Nat
  | [] => 0
  | a :: as => (if a = .allow ∧ c.admits = true then 1 else 0) + admissions (c.step a) as

/-- A trial call was let through by an open breaker, and nothing has been reported
since. -/
def Awaits (c : Clocked) (as : List Act) : Prop :=
  ∃ before after, as = before ++ .allow :: after ∧ (c.run before).breaker.state = .opened ∧
    (c.run before).admits = true ∧ ∀ a ∈ after, a.isReport = false

theorem Awaits.append {c : Clocked} {as : List Act} (h : c.Awaits as) {a : Act}
    (quiet : a.isReport = false) : c.Awaits (as ++ [a]) := by
  obtain ⟨before, after, rfl, hopened, hadmits, hquiet⟩ := h
  refine ⟨before, after ++ [a], by simp, hopened, hadmits, ?_⟩
  intro x hx
  rcases List.mem_append.mp hx with hx | hx
  · exact hquiet x hx
  · rw [List.mem_singleton.mp hx]
    exact quiet

end Clocked

/-! ## The fields of the breaker -/

theorem isEnabled_iff (b : Breaker) : b.isEnabled = true ↔ 0 < b.maxFailures := by
  simp [isEnabled]

theorem success_of_enabled (b : Breaker) (h : b.isEnabled = true) :
    b.success = { b with failures := 0, trial := false, state := .closed } := by
  simp [success, h]

theorem failure_of_enabled (b : Breaker) (now : Int) (h : b.isEnabled = true) :
    b.failure now =
      if b.state = .halfOpen ∨ b.maxFailures ≤ b.failures + 1 then
        { b with failures := b.failures + 1, trial := false, state := .opened, openedAt := now }
      else { b with failures := b.failures + 1, trial := false } := by
  simp only [failure, h, if_true]

theorem state_failure (b : Breaker) (now : Int) (h : b.isEnabled = true) :
    (b.failure now).state ≠ .halfOpen := by
  rw [failure_of_enabled b now h]
  split
  · exact nofun
  · rename_i hstays
    exact fun hhalf => hstays (Or.inl hhalf)

/-- A call that is let through by a breaker that is not closed is the trial. -/
theorem allow_of_not_closed (b : Breaker) (now : Int) (h : b.isEnabled = true)
    (guarded : b.Guarded) (opened : b.state ≠ .closed) (allowed : (b.allow now).2 = true) :
    b.state = .opened ∧ (b.allow now).1 = { b with state := .halfOpen, trial := true } := by
  cases hstate : b.state with
  | closed => exact absurd hstate opened
  | halfOpen =>
      rw [allow_of_halfOpen b now h guarded hstate] at allowed
      cases allowed
  | opened =>
      simp only [allow, h, if_true, hstate] at allowed ⊢
      split at allowed
      · cases allowed
      · rename_i hcooled
        simp [hcooled]

/-- An open breaker rejects a call as long as the cooldown has not passed. -/
theorem allow_of_opened (b : Breaker) (now : Int) (h : b.isEnabled = true)
    (opened : b.state = .opened) (forward : 0 ≤ now - b.openedAt) :
    (b.allow now).2 = false ↔ now - b.openedAt < b.cooldown.toInt := by
  have hmax : b.cooldown.toInt < 0x8000000000000000 := b.cooldown.toInt_lt
  -- A span of time that does not fit a duration is longer than any cooldown.
  have hsince : since now b.openedAt < b.cooldown.toInt ↔
      now - b.openedAt < b.cooldown.toInt := by
    unfold since
    omega
  simp only [allow, h, if_true, opened]
  by_cases hcooled : since now b.openedAt < b.cooldown.toInt
  · simp [hcooled, hsince.mp hcooled]
  · simp [hcooled, mt hsince.mpr hcooled]

theorem allow_of_closed (b : Breaker) (now : Int) (closed : b.state = .closed) :
    b.allow now = (b, true) := by
  unfold allow
  split
  · rw [closed]
  · rfl

/-- The count of failures does not wrap around before it reaches the largest
word. -/
theorem toInt_failures_succ {n : Int64} {k : Nat} (h : n.toInt = k) (fits : k + 1 < 2 ^ 63) :
    (n + 1).toInt = (k + 1 : Nat) := by
  have hone : (1 : Int64).toInt = 1 := by decide
  rw [Int64.toInt_add, h, hone]
  exact Int.bmod_eq_of_le (by omega) (by omega)

/-- The breaker against what has happened since `c`. -/
structure Tells (c : Clocked) (as : List Act) (d : Clocked) : Prop where
  maxFailures : d.breaker.maxFailures = c.breaker.maxFailures
  cooldown : d.breaker.cooldown = c.breaker.cooldown
  failures : d.breaker.failures.toInt = streak as
  closed : d.breaker.state = .closed ↔ (streak as : Int) < c.breaker.maxFailures.toInt
  opened : d.breaker.state ≠ .closed → d.now - d.breaker.openedAt = sinceFailure as
  guarded : d.breaker.Guarded
  awaits : d.breaker.state = .halfOpen → c.Awaits as

namespace Tells

variable {c d : Clocked} {as : List Act}

theorem isEnabled (h : Tells c as d) (enabled : c.breaker.isEnabled = true) :
    d.breaker.isEnabled = true := by
  rw [isEnabled_iff] at enabled ⊢
  rw [h.maxFailures]
  exact enabled

/-- A call changes something only if it is the trial, which starts to wait for its
report. -/
theorem allow (h : Tells c as d) (enabled : c.breaker.isEnabled = true) (hd : d = c.run as) :
    Tells c (as ++ [.allow]) (d.step .allow) := by
  have hsince : sinceFailure (as ++ [.allow]) = sinceFailure as :=
    sinceFailure_append as (by decide)
  by_cases htrial : d.breaker.state ≠ .closed ∧ d.admits = true
  · obtain ⟨hstate, hallow⟩ := d.breaker.allow_of_not_closed d.now (h.isEnabled enabled) h.guarded
      htrial.1 htrial.2
    have hstreak : ¬ (streak as : Int) < c.breaker.maxFailures.toInt := mt h.closed.mpr htrial.1
    have hstep : d.step .allow =
        ⟨{ d.breaker with state := .halfOpen, trial := true }, d.now⟩ := by
      rw [← hallow]
      rfl
    rw [hstep]
    refine ⟨h.maxFailures, h.cooldown, ?_, ?_, ?_, fun _ => rfl, ?_⟩
    · simpa using h.failures
    · simpa using hstreak
    · intro _
      rw [hsince]
      exact h.opened htrial.1
    · intro _
      rw [hd] at hstate htrial
      exact ⟨as, [], rfl, hstate, htrial.2, by simp⟩
  · have hstep : d.step .allow = d := by
      by_cases hclosed : d.breaker.state = .closed
      · simp [Clocked.step, d.breaker.allow_of_closed d.now hclosed]
      · have hrejected : d.admits = false := by simpa [hclosed] using htrial
        simp [Clocked.step, d.breaker.allow_eq_self d.now hrejected]
    rw [hstep]
    refine ⟨h.maxFailures, h.cooldown, ?_, ?_, ?_, h.guarded, ?_⟩
    · simpa using h.failures
    · simpa using h.closed
    · rw [hsince]
      exact h.opened
    · intro hhalf
      exact (h.awaits hhalf).append rfl

theorem success (h : Tells c as d) (enabled : c.breaker.isEnabled = true) :
    Tells c (as ++ [.success]) (d.step .success) := by
  have hpositive : 0 < c.breaker.maxFailures.toInt := by
    have hlt := (isEnabled_iff c.breaker).mp enabled
    simpa using Int64.lt_iff_toInt_lt.mp hlt
  simp only [Clocked.step, success_of_enabled d.breaker (h.isEnabled enabled)]
  refine ⟨h.maxFailures, h.cooldown, ?_, ?_, ?_, nofun, nofun⟩
  · simp
  · simpa using hpositive
  · intro hopened
    exact absurd rfl hopened

/-- A failure opens the breaker exactly when it completes the streak: one that is
half open has a long enough streak already. -/
theorem failure (h : Tells c as d) (enabled : c.breaker.isEnabled = true)
    (few : (as ++ [Act.failure]).count Act.failure < 2 ^ 63) :
    Tells c (as ++ [.failure]) (d.step .failure) := by
  have hcount : streak as + 1 < 2 ^ 63 := by
    have hle := streak_le_count (as ++ [.failure])
    rw [streak_append_failure] at hle
    omega
  have hnext := toInt_failures_succ h.failures hcount
  have hlong : d.breaker.maxFailures ≤ d.breaker.failures + 1 ↔
      c.breaker.maxFailures.toInt ≤ (streak as + 1 : Nat) := by
    rw [Int64.le_iff_toInt_le, h.maxFailures, hnext]
  have hhalf : d.breaker.state = .halfOpen →
      c.breaker.maxFailures.toInt ≤ (streak as + 1 : Nat) := by
    intro hstate
    have hnot : ¬ (streak as : Int) < c.breaker.maxFailures.toInt := by
      rw [← h.closed, hstate]
      exact nofun
    omega
  simp only [Clocked.step, failure_of_enabled d.breaker d.now (h.isEnabled enabled), hlong,
    or_iff_right_of_imp hhalf]
  by_cases hopens : c.breaker.maxFailures.toInt ≤ (streak as + 1 : Nat)
  · rw [if_pos hopens]
    refine ⟨h.maxFailures, h.cooldown, ?_, ?_, ?_, nofun, nofun⟩
    · rw [streak_append_failure]
      exact hnext
    · rw [streak_append_failure]
      exact ⟨nofun, fun hlt => by omega⟩
    · intro _
      simp
  · rw [if_neg hopens]
    have hclosed : d.breaker.state = .closed := by
      rw [h.closed]
      omega
    refine ⟨h.maxFailures, h.cooldown, ?_, ?_, ?_, ?_, ?_⟩
    · rw [streak_append_failure]
      exact hnext
    · rw [streak_append_failure]
      exact ⟨fun _ => by omega, fun _ => hclosed⟩
    · intro hopened
      exact absurd hclosed hopened
    · intro hstate
      exact absurd (hclosed.symm.trans hstate) nofun
    · intro hstate
      exact absurd (hclosed.symm.trans hstate) nofun

theorem elapse (h : Tells c as d) (ns : Nat) :
    Tells c (as ++ [.elapse ns]) (d.step (.elapse ns)) := by
  refine ⟨h.maxFailures, h.cooldown, ?_, ?_, ?_, h.guarded, ?_⟩
  · simpa [Clocked.step] using h.failures
  · simpa [Clocked.step] using h.closed
  · intro hopened
    have htime := h.opened hopened
    have hlater : sinceFailure (as ++ [.elapse ns]) = sinceFailure as + ns :=
      sinceFailure_append as (by simp)
    simp only [Clocked.step, hlater]
    omega
  · intro hhalf
    exact (h.awaits hhalf).append rfl

end Tells

theorem tells_fresh (maxFailures : Int64) (cooldown : Duration) (now : Int)
    (positive : 0 < maxFailures) :
    Tells (.fresh maxFailures cooldown now) [] (.fresh maxFailures cooldown now) where
  maxFailures := rfl
  cooldown := rfl
  failures := rfl
  closed := by
    have hpositive := Int64.lt_iff_toInt_lt.mp positive
    simpa [Clocked.fresh] using hpositive
  opened := fun hopened => absurd rfl hopened
  guarded := nofun
  awaits := nofun

theorem tells_run (maxFailures : Int64) (cooldown : Duration) (now : Int)
    (positive : 0 < maxFailures) (as : List Act) (few : as.count .failure < 2 ^ 63) :
    Tells (.fresh maxFailures cooldown now) as
      ((Clocked.fresh maxFailures cooldown now).run as) := by
  induction as using List.reverseRecOn with
  | nil => exact tells_fresh maxFailures cooldown now positive
  | append_singleton as a ih =>
      have hfew : as.count .failure < 2 ^ 63 := by
        rw [List.count_append] at few
        omega
      have hbefore := ih hfew
      have henabled : (Clocked.fresh maxFailures cooldown now).breaker.isEnabled = true :=
        (isEnabled_iff _).mpr positive
      rw [Clocked.run_append_singleton]
      cases a with
      | allow => exact hbefore.allow henabled rfl
      | success => exact hbefore.success henabled
      | failure => exact hbefore.failure henabled few
      | elapse ns => exact hbefore.elapse ns

/-! ## Between two reports -/

namespace Clocked

/-- A breaker that waits for the report of its trial lets nothing through. -/
theorem admissions_of_halfOpen {c : Clocked} (enabled : c.breaker.isEnabled = true)
    (guarded : c.breaker.Guarded) (half : c.breaker.state = .halfOpen) {as : List Act}
    (quiet : ∀ a ∈ as, a.isReport = false) : c.admissions as = 0 := by
  induction as generalizing c with
  | nil => rfl
  | cons a as ih =>
      have hrest : ∀ x ∈ as, x.isReport = false := fun x hx => quiet x (List.mem_cons_of_mem a hx)
      have hrejected : c.admits = false := c.breaker.allow_of_halfOpen c.now enabled guarded half
      have hstep : (c.step a).breaker = c.breaker := by
        cases a with
        | allow => exact c.breaker.allow_eq_self c.now hrejected
        | elapse ns => rfl
        | success => cases quiet .success List.mem_cons_self
        | failure => cases quiet .failure List.mem_cons_self
      have hlater := ih (c := c.step a) (by rw [hstep]; exact enabled)
        (by rw [hstep]; exact guarded) (by rw [hstep]; exact half) hrest
      simp [admissions, hrejected, hlater]

/-- As long as nothing is reported, a breaker that is not closed lets one call
through at most. -/
theorem admissions_le_one {c : Clocked} (enabled : c.breaker.isEnabled = true)
    (guarded : c.breaker.Guarded) (opened : c.breaker.state ≠ .closed) {as : List Act}
    (quiet : ∀ a ∈ as, a.isReport = false) : c.admissions as ≤ 1 := by
  induction as generalizing c with
  | nil => exact Nat.zero_le 1
  | cons a as ih =>
      have hrest : ∀ x ∈ as, x.isReport = false := fun x hx => quiet x (List.mem_cons_of_mem a hx)
      by_cases htrial : a = .allow ∧ c.admits = true
      · obtain ⟨rfl, hadmits⟩ := htrial
        obtain ⟨-, hallow⟩ := c.breaker.allow_of_not_closed c.now enabled guarded opened hadmits
        have hstep : (c.step .allow).breaker =
            { c.breaker with state := .halfOpen, trial := true } := hallow
        have hlater := admissions_of_halfOpen (c := c.step .allow) (by rw [hstep]; exact enabled)
          (by rw [hstep]; exact fun _ => rfl) (by rw [hstep]) hrest
        simp [admissions, hadmits, hlater]
      · have hstep : (c.step a).breaker = c.breaker := by
          cases a with
          | allow => exact c.breaker.allow_eq_self c.now (by simpa [admits] using htrial)
          | elapse ns => rfl
          | success => cases quiet .success List.mem_cons_self
          | failure => cases quiet .failure List.mem_cons_self
        have hlater := ih (c := c.step a) (by rw [hstep]; exact enabled)
          (by rw [hstep]; exact guarded) (by rw [hstep]; exact opened) hrest
        simpa [admissions, htrial] using hlater

end Clocked

/-! ## What the breaker answers -/

/-- The breaker as a matter of its history. After any run with fewer than `2 ^ 63`
failures it is closed exactly if the streak is shorter than the limit. A failure
that was reported last was answered with "open" exactly if it has completed the
streak. If it is half open, its trial is marked as under way, and was indeed let
through and has not been reported. The next call is rejected exactly if it is half
open, or open and the cooldown has not passed since the last failure. And as long
as the streak is not shorter than the limit, it lets at most one call through
between two reports. -/
theorem follows_history (maxFailures : Int64) (cooldown : Duration) (now : Int) (as : List Act)
    (positive : 0 < maxFailures) (few : as.count .failure < 2 ^ 63) :
    let start := Clocked.fresh maxFailures cooldown now
    let b := (start.run as).breaker
    (b.state = .closed ↔ (streak as : Int) < maxFailures.toInt) ∧
    (∀ before, as = before ++ [.failure] →
      ((start.run before).opensOnFailure = true ↔ maxFailures.toInt ≤ streak as)) ∧
    (b.state = .halfOpen → b.trial = true ∧ start.Awaits as) ∧
    ((start.run as).admits = false ↔
      b.state = .halfOpen ∨ (b.state = .opened ∧ (sinceFailure as : Int) < cooldown.toInt)) ∧
    (∀ before between, as = before ++ between → (∀ a ∈ between, a.isReport = false) →
      maxFailures.toInt ≤ streak before → (start.run before).admissions between ≤ 1) := by
  intro start b
  have htells := tells_run maxFailures cooldown now positive as few
  have henabled : start.breaker.isEnabled = true := (isEnabled_iff _).mpr positive
  have hb : b.isEnabled = true := htells.isEnabled henabled
  refine ⟨htells.closed, ?_, ?_, ?_, ?_⟩
  · rintro before rfl
    have hrun : (start.run before).breaker.failure (start.run before).now = b := by
      simp only [b, Clocked.run_append_singleton, Clocked.step]
    have hbefore := tells_run maxFailures cooldown now positive before
      (by rw [List.count_append] at few; omega)
    have hstate : b.state ≠ .halfOpen := by
      rw [← hrun]
      exact state_failure _ _ (hbefore.isEnabled henabled)
    have hopen : (start.run before).opensOnFailure = true ↔ b.state ≠ .closed := by
      rw [Clocked.opensOnFailure, hrun, isOpen, hb]
      cases hcase : b.state <;> simp_all
    rw [hopen, ne_eq, htells.closed, Int.not_lt]
    rfl
  · intro hhalf
    exact ⟨htells.guarded hhalf, htells.awaits hhalf⟩
  · cases hstate : b.state with
    | closed =>
        have hallow := b.allow_of_closed (start.run as).now hstate
        simp [Clocked.admits, b, hallow]
    | halfOpen =>
        have hallow := b.allow_of_halfOpen (start.run as).now hb htells.guarded hstate
        simp [Clocked.admits, b, hallow]
    | opened =>
        have htime : (start.run as).now - b.openedAt = sinceFailure as :=
          htells.opened (by rw [hstate]; exact nofun)
        have hcooldown : b.cooldown = cooldown := htells.cooldown
        have hallow := b.allow_of_opened (start.run as).now hb hstate (by omega)
        rw [htime, hcooldown] at hallow
        simpa [Clocked.admits, b] using hallow
  · rintro before between rfl hquiet hstreak
    have hbefore := tells_run maxFailures cooldown now positive before
      (by rw [List.count_append] at few; omega)
    refine Clocked.admissions_le_one (hbefore.isEnabled henabled) hbefore.guarded ?_ hquiet
    rw [ne_eq, hbefore.closed, Int.not_lt]
    exact hstreak

/-- Two failures in a row open a breaker with that limit. When the minute of its
cooldown has passed, the first of two calls is let through. -/
def trialRun : List Act :=
  [.allow, .failure, .failure, .elapse 60000000000, .allow, .allow]

/-- After that run the breaker is half open and waits for the report of its trial,
and of the two calls only one was let through. -/
theorem follows_history_of_trial :
    0 < (2 : Int64) ∧ trialRun.count .failure < 2 ^ 63 ∧ streak trialRun = 2 ∧
      (Clocked.fresh 2 60000000000 0).Awaits trialRun ∧
      ((Clocked.fresh 2 60000000000 0).run trialRun).admits = false ∧
      ((Clocked.fresh 2 60000000000 0).run [.allow, .failure, .failure]).admissions
        [.elapse 60000000000, .allow, .allow] ≤ 1 := by
  have hhistory := follows_history 2 60000000000 0 trialRun (by decide) (by decide)
  have hhalf : ((Clocked.fresh 2 60000000000 0).run trialRun).breaker.state = .halfOpen := by
    decide
  obtain ⟨-, -, hawaits, hrejects, hbetween⟩ := hhistory
  refine ⟨by decide, by decide, by decide, (hawaits hhalf).2, hrejects.mpr (Or.inl hhalf), ?_⟩
  exact hbetween [.allow, .failure, .failure] [.elapse 60000000000, .allow, .allow] rfl (by decide)
    (by decide)

end Breaker

end MerlinBridge
