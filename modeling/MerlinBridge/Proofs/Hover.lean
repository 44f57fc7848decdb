import Mathlib.Data.List.Induction
import MerlinBridge.Proofs.ErrorsCommand

/-!
# What is shown where the cursor rests

Of the diagnostics at an offset the one of the highest priority is shown, and of several such ones
the first. `Diagnostic.ShownAt` says so about the list, `atOffset_eq_some_iff` about the search that
keeps the best one so far. The range of an applied diagnostic lies in the text, so it holds its own
position, be it empty or not, and something is shown there.
-/

namespace MerlinBridge

/-- The offset is the position of the range or that of one of its bytes. -/
def Range.Holds (r : Range) (offset : Int64) : Prop :=
  offset = r.pos ∨ r.pos.toInt ≤ offset.toInt ∧ offset.toInt < r.pos.toInt + r.length.toInt

theorem Range.Within.contains_iff {r : Range} {n : Nat} (h : r.Within n) (fits : n < 2 ^ 63)
    {offset : Int64} : r.contains offset = true ↔ r.Holds offset := by
  have hstop := h.toInt_stop fits
  have hlength := h.length
  rw [contains, Holds]
  split
  · rename_i hempty
    rw [hempty, Int64.toInt_zero, decide_eq_true_eq]
    constructor
    · exact Or.inl
    · rintro (heq | hbetween)
      · exact heq
      · omega
  · rename_i hne
    have hpositive : r.length.toInt ≠ 0 := fun hzero =>
      hne (Int64.toInt_inj.mp (hzero.trans Int64.toInt_zero.symm))
    rw [Bool.and_eq_true, decide_eq_true_eq, decide_eq_true_eq, Int64.le_iff_toInt_le,
      Int64.lt_iff_toInt_lt, hstop]
    constructor
    · exact Or.inr
    · rintro (rfl | hbetween)
      · omega
      · exact hbetween

theorem Range.Within.contains_pos {r : Range} {n : Nat} (h : r.Within n) (fits : n < 2 ^ 63) :
    r.contains r.pos = true :=
  (h.contains_iff fits).mpr (Or.inl rfl)

namespace Diagnostic

variable {ds : List Diagnostic} {offset : Int64} {d : Diagnostic}

/-- The diagnostic holds the offset. Those that do so before it have a lower priority, and those
after it do not have a higher one. -/
def ShownAt (ds : List Diagnostic) (offset : Int64) (d : Diagnostic) : Prop :=
  ∃ before after, ds = before ++ d :: after ∧ d.range.contains offset = true ∧
    (∀ x ∈ before, x.range.contains offset = true →
      x.severity.priority < d.severity.priority) ∧
    ∀ x ∈ after, x.range.contains offset = true → x.severity.priority ≤ d.severity.priority

theorem ShownAt.mem (h : ShownAt ds offset d) : d ∈ ds := by
  obtain ⟨before, after, rfl, -⟩ := h
  simp

theorem ShownAt.contains (h : ShownAt ds offset d) : d.range.contains offset = true := by
  obtain ⟨-, -, -, hd, -⟩ := h
  exact hd

theorem ShownAt.priority_le (h : ShownAt ds offset d) {x : Diagnostic} (hx : x ∈ ds)
    (hcontains : x.range.contains offset = true) :
    x.severity.priority ≤ d.severity.priority := by
  obtain ⟨before, after, rfl, -, hbefore, hafter⟩ := h
  rcases List.mem_append.mp hx with hx | hx
  · exact (hbefore x hx hcontains).le
  · rcases List.mem_cons.mp hx with rfl | hx
    · exact le_rfl
    · exact hafter x hx hcontains

theorem ShownAt.eq {d' : Diagnostic} (h : ShownAt ds offset d) (h' : ShownAt ds offset d') :
    d = d' := by
  have hle := h.priority_le h'.mem h'.contains
  have hge := h'.priority_le h.mem h.contains
  obtain ⟨before, after, rfl, hd, hbefore, -⟩ := h
  obtain ⟨before', after', heq, hd', hbefore', -⟩ := h'
  rcases List.append_eq_append_iff.mp heq with ⟨between, rfl, hrest⟩ | ⟨between, rfl, hrest⟩
  · cases between with
    | nil => exact (List.cons.inj hrest).1
    | cons x between =>
        obtain ⟨rfl, -⟩ := List.cons.inj hrest
        have hlt := hbefore' d (by simp) hd
        omega
  · cases between with
    | nil => exact (List.cons.inj hrest).1.symm
    | cons x between =>
        obtain ⟨rfl, -⟩ := List.cons.inj hrest
        have hlt := hbefore d' (by simp) hd'
        omega

inductive Best (ds : List Diagnostic) (offset : Int64) : Option Diagnostic → Prop where
  | none (outside : ∀ x ∈ ds, x.range.contains offset = false) : Best ds offset none
  | some {d : Diagnostic} (shown : ShownAt ds offset d) : Best ds offset (some d)

theorem atOffset_append_singleton (ds : List Diagnostic) (x : Diagnostic) (offset : Int64) :
    atOffset (ds ++ [x]) offset =
      if x.range.contains offset then prefer (atOffset ds offset) x else atOffset ds offset := by
  rw [atOffset, List.foldl_append]
  rfl

theorem Best.append_outside {best : Option Diagnostic} (h : Best ds offset best) {x : Diagnostic}
    (hx : x.range.contains offset = false) : Best (ds ++ [x]) offset best := by
  cases h with
  | none outside =>
      exact .none (List.forall_mem_append.mpr ⟨outside, List.forall_mem_singleton.mpr hx⟩)
  | some shown =>
      obtain ⟨before, after, rfl, hd, hbefore, hafter⟩ := shown
      refine .some ⟨before, after ++ [x], by simp, hd, hbefore, ?_⟩
      refine List.forall_mem_append.mpr ⟨hafter, List.forall_mem_singleton.mpr fun hcontains => ?_⟩
      rw [hx] at hcontains
      cases hcontains

theorem Best.append_prefer {best : Option Diagnostic} (h : Best ds offset best) {x : Diagnostic}
    (hx : x.range.contains offset = true) : Best (ds ++ [x]) offset (prefer best x) := by
  cases h with
  | none outside =>
      refine .some ⟨ds, [], rfl, hx, fun y hy hcontains => ?_, by simp⟩
      rw [outside y hy] at hcontains
      cases hcontains
  | @some d shown =>
      rw [prefer]
      split
      · rename_i hlt
        refine .some ⟨ds, [], rfl, hx, fun y hy hcontains => ?_, by simp⟩
        exact (shown.priority_le hy hcontains).trans_lt hlt
      · rename_i hle
        obtain ⟨before, after, rfl, hd, hbefore, hafter⟩ := shown
        refine .some ⟨before, after ++ [x], by simp, hd, hbefore, ?_⟩
        exact List.forall_mem_append.mpr
          ⟨hafter, List.forall_mem_singleton.mpr fun _ => Nat.le_of_not_lt hle⟩

theorem best_atOffset (ds : List Diagnostic) (offset : Int64) :
    Best ds offset (atOffset ds offset) := by
  induction ds using List.reverseRecOn with
  | nil => exact .none (by simp)
  | append_singleton ds x ih =>
      rw [atOffset_append_singleton]
      cases hx : x.range.contains offset with
      | true => exact ih.append_prefer hx
      | false => exact ih.append_outside hx

theorem atOffset_eq_none_iff :
    atOffset ds offset = none ↔ ∀ x ∈ ds, x.range.contains offset = false := by
  constructor
  · intro h
    have hbest := best_atOffset ds offset
    rw [h] at hbest
    cases hbest with
    | none outside => exact outside
  · intro h
    cases hat : atOffset ds offset with
    | none => rfl
    | some d =>
        have hbest := best_atOffset ds offset
        rw [hat] at hbest
        cases hbest with
        | some shown =>
            have hd := shown.contains
            rw [h d shown.mem] at hd
            cases hd

theorem atOffset_eq_some_iff : atOffset ds offset = some d ↔ ShownAt ds offset d := by
  have hbest := best_atOffset ds offset
  constructor
  · intro h
    rw [h] at hbest
    cases hbest with
    | some shown => exact shown
  · intro h
    cases hat : atOffset ds offset with
    | none =>
        have hd := h.contains
        rw [atOffset_eq_none_iff.mp hat d h.mem] at hd
        cases hd
    | some d' =>
        rw [hat] at hbest
        cases hbest with
        | some shown => rw [h.eq shown]

/-- Where a diagnostic is, one of at least its priority is shown. -/
theorem exists_atOffset_of_mem (hd : d ∈ ds) (hcontains : d.range.contains offset = true) :
    ∃ d', atOffset ds offset = some d' ∧ d.severity.priority ≤ d'.severity.priority := by
  cases hat : atOffset ds offset with
  | none =>
      rw [atOffset_eq_none_iff.mp hat d hd] at hcontains
      cases hcontains
  | some d' => exact ⟨d', rfl, (atOffset_eq_some_iff.mp hat).priority_le hd hcontains⟩

end Diagnostic

namespace Bridge

theorem within_of_mem_diagnostics {r : Request} (fits : r.snapshot.length < 2 ^ 63)
    {entries : List Payload.ErrorEntry} {d : Diagnostic}
    (h : d ∈ entries.filterMap (diagnosticOf? r)) : d.range.Within r.snapshot.length := by
  obtain ⟨entry, -, hentry⟩ := List.mem_filterMap.mp h
  cases hrange : Range.ofSpan r.snapshot entry.span with
  | error cause =>
      simp only [diagnosticOf?, hrange] at hentry
      cases hentry
  | ok range =>
      simp only [diagnosticOf?, hrange] at hentry
      obtain rfl := Option.some.inj hentry
      exact (Range.within_ofSpan fits hrange).1

/-- A reply is applied only if it can be read and the document has the focus. -/
theorem exists_payload_of_applied {b : Bridge} {e : Editor} {r : Request} {v : Option Json}
    (h : (b.applyErrors e r v).2 = none) :
    ∃ p, Payload.Errors.ofJson v = .ok p ∧ e.looksAt r = true := by
  have hfault := (applyErrors_performs b e r v).fault
  rw [h] at hfault
  cases hreply : Payload.Errors.ofJson v with
  | error err =>
      simp only [Effect.ofErrors, hreply] at hfault
      cases hfault
  | ok p =>
      cases hfocus : e.looksAt r with
      | false =>
          simp only [Effect.ofErrors, hreply, hfocus] at hfault
          cases hfault
      | true => exact ⟨p, rfl, rfl⟩

theorem diagnostics_of_applied {b : Bridge} {e : Editor} {r : Request} {v : Option Json}
    (h : (b.applyErrors e r v).2 = none) :
    ∃ p, Payload.Errors.ofJson v = .ok p ∧
      (b.applyErrors e r v).1.store.diagnostics (Store.key r.path) =
        p.errors.filterMap (diagnosticOf? r) := by
  obtain ⟨p, hreply, hfocus⟩ := exists_payload_of_applied h
  obtain ⟨-, hstored, -⟩ := applyErrors_of_payload b hreply hfocus
  refine ⟨p, hreply, ?_⟩
  rw [Store.diagnostics, hstored]
  rfl

/-- At an offset nothing is shown if no diagnostic holds it, and else the first of those of the
highest priority that do. At the position of a diagnostic that has been applied, one of at least
its priority is shown. -/
theorem hover_shows_most_severe :
    (∀ (s : Store) (key : Bytes) (offset : Int64),
      (s.diagnosticAt key offset = none ↔
        ∀ x ∈ s.diagnostics key, x.range.contains offset = false) ∧
      ∀ d, s.diagnosticAt key offset = some d ↔
        Diagnostic.ShownAt (s.diagnostics key) offset d) ∧
    ∀ (b : Bridge) (e : Editor) (r : Request) (v : Option Json), r.snapshot.length < 2 ^ 63 →
      (b.applyErrors e r v).2 = none →
      ∃ p, Payload.Errors.ofJson v = .ok p ∧
        (b.applyErrors e r v).1.store.diagnostics (Store.key r.path) =
          p.errors.filterMap (diagnosticOf? r) ∧
        ∀ d ∈ p.errors.filterMap (diagnosticOf? r),
          (∀ offset, d.range.contains offset = true ↔ d.range.Holds offset) ∧
          ∃ d', (b.applyErrors e r v).1.store.diagnosticAt (Store.key r.path) d.range.pos =
              some d' ∧
            d.severity.priority ≤ d'.severity.priority ∧
            ∀ doc : Document, doc.path = r.path →
              (b.applyErrors e r v).1.diagnosticAt (some doc) d.range.pos = d'.text := by
  constructor
  · intro s key offset
    exact ⟨Diagnostic.atOffset_eq_none_iff, fun d => Diagnostic.atOffset_eq_some_iff⟩
  · intro b e r v fits happlied
    obtain ⟨p, hreply, hstored⟩ := diagnostics_of_applied happlied
    refine ⟨p, hreply, hstored, fun d hd => ?_⟩
    have hwithin := within_of_mem_diagnostics fits hd
    obtain ⟨d', hat, hpriority⟩ :=
      Diagnostic.exists_atOffset_of_mem hd (hwithin.contains_pos fits)
    rw [← hstored] at hat
    refine ⟨fun offset => hwithin.contains_iff fits, d', hat, hpriority, ?_⟩
    intro doc hpath
    have hshown : (b.applyErrors e r v).1.store.diagnosticAt (Store.key doc.path) d.range.pos =
        some d' := by
      rw [hpath]
      exact hat
    rw [Bridge.diagnosticAt, hshown]
    rfl

open Console (plainArray checkEntry scantPage)

/-- A warning about a line, and two errors on it that end before they start. One of them is past
the end of the line. -/
def crossedReply : Json :=
  plainArray
    [checkEntry "1" "0" "3" "wide" "warning", checkEntry "1" "2" "1" "inner" "error",
      checkEntry "1" "9" "1" "outer" "error"]

/-- The errors have empty ranges and are shown there, the first one in place of the warning. -/
theorem hover_of_crossedReply :
    ∃ b', (Bridge.new World.brittle false).applyErrors { documents := [scantPage] }
        (.build 0 .errors (some scantPage)) (some crossedReply) = (b', none) ∧
      (b'.diagnostics (some scantPage)).map (fun d => (d.range.pos, d.range.length)) =
        [(0, 3), (2, 0), (3, 0)] ∧
      (∀ d ∈ b'.diagnostics (some scantPage),
        ∃ d', b'.store.diagnosticAt "a.ml" d.range.pos = some d' ∧
          d.severity.priority ≤ d'.severity.priority) ∧
      b'.diagnosticAt (some scantPage) 2 = "Error: inner" ∧
      b'.diagnosticAt (some scantPage) 3 = "Error: outer" := by
  have hrun : ((Bridge.new World.brittle false).applyErrors { documents := [scantPage] }
      (.build 0 .errors (some scantPage)) (some crossedReply)).2 = none := by decide +kernel
  obtain ⟨p, -, hstored, hshown⟩ := hover_shows_most_severe.2 (Bridge.new World.brittle false)
    { documents := [scantPage] } (.build 0 .errors (some scantPage)) (some crossedReply)
    (by decide) hrun
  refine ⟨_, Prod.ext rfl hrun, by decide +kernel, ?_, by decide +kernel, by decide +kernel⟩
  intro d hd
  obtain ⟨-, d', hat, hpriority, -⟩ := hshown d (hstored ▸ hd)
  exact ⟨d', hat, hpriority⟩

end Bridge

end MerlinBridge
