import MerlinBridge.Proofs.ErrorsCommand
import MerlinBridge.Proofs.NumberLiterals

/-!
# Positions of any size

The lines and the columns of a reply are integers as they are written, and words
from then on. `Coordinates` are the integers. A range has them up to multiples of
2^64, and so does the test whether an entry lies in the text: an entry with a line
far beyond the end is applied to the line that is left of it. Lines and columns go
over as they are exactly if they fit a word, and the columns still do when one is
added.
-/

namespace MerlinBridge

open Json Payload

/-- Where an entry starts and ends, in the numbers of the tool: lines from one, columns from
zero. -/
structure Coordinates where
  startLine : Int
  startCol : Int
  endLine : Int
  endCol : Int
deriving DecidableEq

namespace Coordinates

def wrapped (c : Coordinates) : Coordinates where
  startLine := c.startLine.bmod (2 ^ 64)
  startCol := c.startCol.bmod (2 ^ 64)
  endLine := c.endLine.bmod (2 ^ 64)
  endCol := c.endCol.bmod (2 ^ 64)

def span (c : Coordinates) : Span :=
  ⟨⟨.ofInt c.startLine, .ofInt c.startCol⟩, ⟨.ofInt c.endLine, .ofInt c.endCol⟩⟩

structure LieIn (c : Coordinates) (t : Text) : Prop where
  startLine : 1 ≤ c.startLine ∧ c.startLine ≤ t.lineCount
  startCol : 0 ≤ c.startCol
  endLine : 1 ≤ c.endLine ∧ c.endLine ≤ t.lineCount
  endCol : 0 ≤ c.endCol

/-- The lines fit a word, and the columns do with one more. -/
structure Fit (c : Coordinates) : Prop where
  startLine : -2 ^ 63 ≤ c.startLine ∧ c.startLine < 2 ^ 63
  startCol : -2 ^ 63 ≤ c.startCol ∧ c.startCol < 2 ^ 63 - 1
  endLine : -2 ^ 63 ≤ c.endLine ∧ c.endLine < 2 ^ 63
  endCol : -2 ^ 63 ≤ c.endCol ∧ c.endCol < 2 ^ 63 - 1

theorem bmod_eq_self {n : Int} (h : -2 ^ 63 ≤ n ∧ n < 2 ^ 63) : n.bmod (2 ^ 64) = n :=
  Int.bmod_eq_of_le (by omega) (by omega)

theorem Fit.wrapped_eq {c : Coordinates} (h : c.Fit) : c.wrapped = c := by
  have hcol := h.startCol
  have hcol' := h.endCol
  simp only [wrapped, bmod_eq_self h.startLine, bmod_eq_self h.endLine,
    bmod_eq_self (n := c.startCol) ⟨hcol.1, by omega⟩,
    bmod_eq_self (n := c.endCol) ⟨hcol'.1, by omega⟩]

theorem exists_ofSpan_span_iff {c : Coordinates} {t : Text} :
    (∃ range, Range.ofSpan t c.span = .ok range) ↔ c.wrapped.LieIn t := by
  rw [Range.exists_ofSpan_iff]
  constructor
  · rintro ⟨⟨hline, hlast, hcol⟩, hline', hlast', hcol'⟩
    simp only [span, Int64.toInt_ofInt] at hline hlast hcol hline' hlast' hcol'
    exact ⟨⟨hline, hlast⟩, hcol, ⟨hline', hlast'⟩, hcol'⟩
  · rintro ⟨⟨hline, hlast⟩, hcol, ⟨hline', hlast'⟩, hcol'⟩
    simp only [Pos.OnLine, span, Int64.toInt_ofInt]
    exact ⟨⟨hline, hlast, hcol⟩, hline', hlast', hcol'⟩

end Coordinates

namespace Json

/-- The first member of a name is an object whose line and column are the integers `line` and
`col`. -/
def WritesAt (v : Json) (name : Bytes) (line col : Int) : Prop :=
  PlacedAt IsNumeral v name line col

def Writes (v : Json) (c : Coordinates) : Prop :=
  WritesAt v "start" c.startLine c.startCol ∧ WritesAt v "end" c.endLine c.endCol

theorem WritesAt.hasPos {v : Json} {name : Bytes} {line col : Int} (h : WritesAt v name line col) :
    HasPos v name ⟨.ofInt line, .ofInt col⟩ := by
  obtain ⟨p, hp, hobject, ⟨l, hline, hl⟩, k, hcol, hk⟩ := h
  exact ⟨p, hp, hobject, ⟨l, hline, .integer hl⟩, k, hcol, .integer hk⟩

theorem Writes.hasSpan {v : Json} {c : Coordinates} (h : v.Writes c) : HasSpan v c.span :=
  ⟨h.1.hasPos, h.2.hasPos⟩

/-- Whether an entry is applied depends on what is left of its coordinates. -/
theorem Writes.liesIn_iff {v : Json} {c : Coordinates} (h : v.Writes c) (legal : Legal v)
    {t : Text} : v.LiesIn t ↔ c.wrapped.LieIn t :=
  (liesIn_iff_of_hasSpan legal h.hasSpan).trans Coordinates.exists_ofSpan_span_iff

end Json

namespace Range

/-- A range has the coordinates up to multiples of 2^64. -/
structure Wraps (c : Coordinates) (r : Range) : Prop where
  startLine : r.startLine.toInt = c.startLine.bmod (2 ^ 64)
  startCol : r.startCol.toInt = (c.startCol + 1).bmod (2 ^ 64)
  endLine : r.endLine.toInt = c.endLine.bmod (2 ^ 64)
  endCol : r.endCol.toInt = (c.endCol + 1).bmod (2 ^ 64)

/-- A range has the lines and, counted from one, the columns. -/
structure Carries (c : Coordinates) (r : Range) : Prop where
  startLine : r.startLine.toInt = c.startLine ∧ 1 ≤ c.startLine
  startCol : r.startCol.toInt = c.startCol + 1 ∧ 1 ≤ c.startCol + 1
  endLine : r.endLine.toInt = c.endLine ∧ 1 ≤ c.endLine
  endCol : r.endCol.toInt = c.endCol + 1 ∧ 1 ≤ c.endCol + 1

theorem wraps_of_ofSpan {c : Coordinates} {t : Text} {r : Range} (h : ofSpan t c.span = .ok r) :
    r.Wraps c := by
  obtain ⟨start, stop, -, -, rfl⟩ := ofSpan_eq_ok_iff.mp h
  have hcol : ∀ n : Int, (Int64.ofInt n + 1).toInt = (n + 1).bmod (2 ^ 64) := by
    intro n
    rw [show (1 : Int64) = Int64.ofInt 1 from rfl, ← Int64.ofInt_add]
    exact Int64.toInt_ofInt
  exact ⟨Int64.toInt_ofInt, hcol _, Int64.toInt_ofInt, hcol _⟩

/-- The coordinates of an entry that is applied go over as they are exactly if they fit. -/
theorem Wraps.carries_iff {c : Coordinates} {t : Text} {r : Range} (h : r.Wraps c)
    (lies : c.wrapped.LieIn t) : r.Carries c ↔ c.Fit := by
  constructor
  · intro hcarries
    have hline : ∀ {w : Int64} {n : Int}, w.toInt = n → -2 ^ 63 ≤ n ∧ n < 2 ^ 63 := by
      rintro w _ rfl
      exact ⟨w.le_toInt, w.toInt_lt⟩
    have hcol : ∀ {w : Int64} {n : Int}, w.toInt = n + 1 ∧ 1 ≤ n + 1 →
        -2 ^ 63 ≤ n ∧ n < 2 ^ 63 - 1 := by
      rintro w n ⟨hw, hpos⟩
      have hlt := (hline hw).2
      omega
    exact ⟨hline hcarries.startLine.1, hcol hcarries.startCol, hline hcarries.endLine.1,
      hcol hcarries.endCol⟩
  · intro hfit
    rw [hfit.wrapped_eq] at lies
    have hcol : ∀ {n : Int}, -2 ^ 63 ≤ n ∧ n < 2 ^ 63 - 1 → (n + 1).bmod (2 ^ 64) = n + 1 :=
      fun h => Coordinates.bmod_eq_self (by omega)
    have hstartCol := lies.startCol
    have hendCol := lies.endCol
    exact ⟨⟨h.startLine.trans (Coordinates.bmod_eq_self hfit.startLine), lies.startLine.1⟩,
      ⟨h.startCol.trans (hcol hfit.startCol), by omega⟩,
      ⟨h.endLine.trans (Coordinates.bmod_eq_self hfit.endLine), lies.endLine.1⟩,
      ⟨h.endCol.trans (hcol hfit.endCol), by omega⟩⟩

/-- The range of an entry, as far as that has integers for its lines and columns: they go over up to
multiples of 2^64, and as they are exactly if they fit. -/
def Renders (v : Json) (r : Range) : Prop :=
  ∀ c, v.Writes c → r.Wraps c ∧ (r.Carries c ↔ c.Fit)

theorem renders_of_ofSpan {v : Json} (legal : Legal v) {s : Span} (hs : HasSpan v s) {t : Text}
    {r : Range} (h : ofSpan t s = .ok r) : r.Renders v := by
  intro c hc
  rw [hasSpan_unique legal hs hc.hasSpan] at h
  have hwraps := wraps_of_ofSpan h
  exact ⟨hwraps, hwraps.carries_iff (Coordinates.exists_ofSpan_span_iff.mp ⟨r, h⟩)⟩

end Range

open Classical in
/-- What is made of the entries with a span of the text has their ranges. -/
theorem forall₂_renders {α γ : Type} {s : Shape α} {t : Text} {es : List Json} {entries : List α}
    {skipped : List Skip} (h : s.Sifted es entries skipped) (legal : ∀ v ∈ es, Legal v)
    (span : α → Span) (range : γ → Range) {f : α → Option γ}
    (describes : ∀ {v a}, s.Describes v a → HasSpan v (span a))
    (made : ∀ {a x}, Range.ofSpan t (span a) = .ok x → ∃ c, f a = some c ∧ range c = x)
    (left : ∀ {a cause}, Range.ofSpan t (span a) = .error cause → f a = none) :
    List.Forall₂ (fun v c => (range c).Renders v)
      (es.filter fun v => s.WellFormed v ∧ v.LiesIn t) (entries.filterMap f) := by
  apply h.forall₂_filterMap legal span describes _ left
  intro v a x hlegal hdescribes hx
  obtain ⟨c, hc, rfl⟩ := made hx
  exact ⟨c, hc, Range.renders_of_ofSpan hlegal (describes hdescribes) hx⟩

/-- Nothing is handed over for a document that the user is not looking at. -/
theorem Bridge.hostCalls_applyErrors_of_not_looksAt (b : Bridge) {e : Editor} {r : Request}
    (v : Option Json) (h : e.looksAt r = false) :
    (b.applyErrors e r v).1.hostCalls = b.hostCalls := by
  have hcalls : (Effect.ofErrors r false v).calls = [] := by
    unfold Effect.ofErrors
    split <;> rfl
  have hperforms := b.applyErrors_performs e r v
  rw [h] at hperforms
  rw [show (b.applyErrors e r v).1.hostCalls = _ from congrArg Outside.calls hperforms.outside]
  exact (congrArg _ hcalls).trans (List.append_nil _)

open Classical in
/-- The ranges of a reply, in the order of its entries: of the diagnostics that are highlighted and
of the quick fixes that are stored, if the user is looking at the document, and of the usages that
are shown. Their lines are those of the reply and their columns are one more, up to multiples of
2^64, and as integers exactly if the lines fit a word and so do the columns with one more. An entry
is applied if what is left of its coordinates lies in the text; if they fit, that is the coordinates
themselves. -/
theorem ranges_wrap_around (b : Bridge) (e : Editor) (r : Request) (v : Json) (legal : Legal v) :
    (∀ es qs, HoldsErrors v es → HoldsQuickFixes v qs →
      (e.looksAt r = false → (b.applyErrors e r (some v)).1.hostCalls = b.hostCalls) ∧
      (e.looksAt r = true → ∃ diagnostics tasks markers fixes,
        (b.applyErrors e r (some v)).1.hostCalls = b.hostCalls ++
          [.tasks r.path tasks, .highlights (r.doc.getD 0) diagnostics markers] ∧
        (b.applyErrors e r (some v)).1.store.get? (Store.key r.path) = some ⟨diagnostics, fixes⟩ ∧
        List.Forall₂ (fun v (d : Diagnostic) => d.range.Renders v)
          (es.filter fun v => v.LiesIn r.snapshot) diagnostics ∧
        List.Forall₂ (fun v (q : QuickFix) => q.range.Renders v)
          (qs.filter fun v => quickFixShape.WellFormed v ∧ v.LiesIn r.snapshot) fixes)) ∧
    (∀ es, HoldsOccurrences v es →
      ∃ usages, (b.applyUsages r (some v)).1.hostCalls = b.hostCalls ++ [.usages usages] ∧
        List.Forall₂ (fun v (u : Usage) => u.range.Renders v)
          (es.filter fun v => v.LiesIn r.snapshot) usages) ∧
    ∀ (entry : Json) (c : Coordinates), Legal entry → entry.Writes c →
      (entry.LiesIn r.snapshot ↔ c.wrapped.LieIn r.snapshot) ∧
      (c.Fit → (entry.LiesIn r.snapshot ↔ c.LieIn r.snapshot)) := by
  refine ⟨?_, ?_, ?_⟩
  · intro es qs hes hqs
    refine ⟨b.hostCalls_applyErrors_of_not_looksAt _, fun hfocus => ?_⟩
    obtain ⟨notes, hreply, -⟩ := Errors.ofJson_of_holds legal hes hqs
    obtain ⟨-, hstored, -⟩ := Bridge.applyErrors_of_payload b hreply hfocus
    have hperforms := Bridge.applyErrors_performs b e r (some v)
    rw [hfocus, Effect.ofErrors_of_payload hreply] at hperforms
    refine ⟨_, _, _, _, congrArg Outside.calls hperforms.outside, hstored, ?_, ?_⟩
    · rw [← filter_and_liesIn (s := errorShape) fun hv => hv.isPlaced]
      apply forall₂_renders (errorShape_isolates.sifted legal hes
        (resultsOf_eq_some_iff.mpr ⟨_, hreply, rfl⟩)) (hes.legal legal) ErrorEntry.span
      · exact fun hentry => hentry.1
      · intro entry x hx
        exact ⟨_, by simp only [Bridge.diagnosticOf?, hx]; rfl, rfl⟩
      · intro entry cause hcause
        simp only [Bridge.diagnosticOf?, hcause]
    · apply forall₂_renders (quickFixShape_isolates.sifted legal hqs
        (resultsOf_eq_some_iff.mpr ⟨_, hreply, rfl⟩)) (hqs.legal legal) QuickFixEntry.span
      · exact fun hentry => hentry.1
      · intro entry x hx
        exact ⟨_, by simp only [Bridge.fixOf?, hx]; rfl, rfl⟩
      · intro entry cause hcause
        simp only [Bridge.fixOf?, hcause]
  · intro es hes
    refine ⟨_, b.hostCalls_applyUsages r hes.ofJson_eq, ?_⟩
    rw [← filter_and_liesIn (s := occurrenceShape) fun hv => hv.isPlaced]
    apply forall₂_renders (occurrenceShape_isolates.sifted legal hes
      (resultsOf_eq_some_iff.mpr ⟨_, hes.ofJson_eq, rfl⟩)) (hes.legal legal) id
    · exact fun hentry => hentry
    · intro s x hx
      exact ⟨_, by simp only [Bridge.usageOf?, show Range.ofSpan _ s = _ from hx]; rfl, rfl⟩
    · intro s cause hcause
      simp only [Bridge.usageOf?, show Range.ofSpan _ s = _ from hcause]
  · intro entry c hlegal hwrites
    have hlies := hwrites.liesIn_iff hlegal (t := r.snapshot)
    exact ⟨hlies, fun hfit => by rwa [hfit.wrapped_eq] at hlies⟩

open Console (plainArray checkEntry legal_checkEntry placedAt_checkEntry checkOf scantPage)

theorem writes_checkEntry {line start stop message type : Bytes} (hline : IsWhole line)
    (hstart : IsWhole start) (hstop : IsWhole stop) :
    (checkEntry line start stop message type).Writes
      ⟨Decimal.value line, Decimal.value start, Decimal.value line, Decimal.value stop⟩ :=
  placedAt_checkEntry (.plain hline) (.plain hstart) (.plain hstop)

/-- A diagnostic, which would do as an occurrence as well, at the start of a text. -/
def nearEntry : Json :=
  checkEntry "1" "0" "1" "near" "error"

theorem ranges_of_nearEntry :
    Legal nearEntry ∧ nearEntry.Writes ⟨1, 0, 1, 1⟩ ∧
    (∃ tasks d markers,
      ((Bridge.new World.brittle false).applyErrors { documents := [scantPage] } (checkOf scantPage)
          (some (plainArray [nearEntry]))).1.hostCalls =
        [.tasks "a.ml" tasks, .highlights 0 [d] markers] ∧ d.range.Carries ⟨1, 0, 1, 1⟩) ∧
    ∃ u,
      ((Bridge.new World.brittle false).applyUsages (checkOf scantPage)
          (some nearEntry)).1.hostCalls = [.usages [u]] ∧ u.range.Carries ⟨1, 0, 1, 1⟩ := by
  classical
  have hzero : IsWhole "0" := .zero
  have hone : IsWhole "1" := isWhole_of_all (by decide) (by decide)
  have hlegal : Legal nearEntry := legal_checkEntry hone hzero hone (by decide) (by decide)
  have hwrites : nearEntry.Writes ⟨1, 0, 1, 1⟩ := writes_checkEntry hone hzero hone
  have hfit : Coordinates.Fit ⟨1, 0, 1, 1⟩ := ⟨by decide, by decide, by decide, by decide⟩
  obtain ⟨-, hshows, hlies⟩ := ranges_wrap_around (Bridge.new World.brittle false)
    { documents := [scantPage] } (checkOf scantPage) nearEntry hlegal
  obtain ⟨happlies, -⟩ := ranges_wrap_around (Bridge.new World.brittle false)
    { documents := [scantPage] } (checkOf scantPage) (plainArray [nearEntry])
    (legal_plainArray (List.forall_mem_singleton.mpr hlegal))
  have hin : nearEntry.LiesIn (checkOf scantPage).snapshot :=
    ((hlies nearEntry _ hlegal hwrites).2 hfit).mpr ⟨by decide, by decide, by decide, by decide⟩
  have hfilter : ([nearEntry].filter fun v => v.LiesIn (checkOf scantPage).snapshot) =
      [nearEntry] := by
    rw [List.filter_eq_self]
    intro v hv
    rw [List.mem_singleton.mp hv]
    exact decide_eq_true hin
  refine ⟨hlegal, hwrites, ?_, ?_⟩
  · obtain ⟨diagnostics, tasks, markers, fixes, hcalls, -, hrenders, -⟩ :=
      (happlies [nearEntry] [] .bare .bare).2 (by decide)
    rw [hfilter] at hrenders
    obtain ⟨d, rest, hd, hrest, rfl⟩ := List.forall₂_cons_left_iff.mp hrenders
    obtain rfl := List.forall₂_nil_left_iff.mp hrest
    exact ⟨tasks, d, markers, hcalls, (hd _ hwrites).2.mpr hfit⟩
  · obtain ⟨usages, hcalls, hrenders⟩ := hshows _ (.single rfl)
    rw [hfilter] at hrenders
    obtain ⟨u, rest, hu, hrest, rfl⟩ := List.forall₂_cons_left_iff.mp hrenders
    obtain rfl := List.forall₂_nil_left_iff.mp hrest
    exact ⟨u, hcalls, (hu _ hwrites).2.mpr hfit⟩

def farEntry : Json :=
  checkEntry "18446744073709551617" "0" "1" "far" "error"

def wideEntry : Json :=
  checkEntry "1" "0" "9223372036854775807" "wide" "error"

/-- The far one of two diagnostics is shown on the first line of two, and the wide one ends at a
negative column. -/
theorem strayEntries_applied :
    farEntry.Writes ⟨2 ^ 64 + 1, 0, 2 ^ 64 + 1, 1⟩ ∧ wideEntry.Writes ⟨1, 0, 1, 2 ^ 63 - 1⟩ ∧
    (checkOf scantPage).snapshot.lineCount = 2 ∧
    Legal (plainArray [farEntry, wideEntry]) ∧
    ∃ tasks far wide,
      ((Bridge.new World.brittle false).applyErrors { documents := [scantPage] } (checkOf scantPage)
          (some (plainArray [farEntry, wideEntry]))).1.hostCalls =
        [.tasks "a.ml" tasks, .highlights 0 [far, wide] []] ∧
      far.range.startLine.toInt = 1 ∧ wide.range.endCol.toInt = -2 ^ 63 := by
  have hzero : IsWhole "0" := .zero
  have hone : IsWhole "1" := isWhole_of_all (by decide) (by decide)
  have hfar : IsWhole "18446744073709551617" := isWhole_of_all (by decide) (by decide)
  have hwide : IsWhole "9223372036854775807" := isWhole_of_all (by decide) (by decide)
  refine ⟨writes_checkEntry hfar hzero hone, writes_checkEntry hone hzero hwide, by decide,
    legal_plainArray (List.forall_mem_cons.mpr
      ⟨legal_checkEntry hfar hzero hone (by decide) (by decide), List.forall_mem_singleton.mpr
        (legal_checkEntry hone hzero hwide (by decide) (by decide))⟩), ?_⟩
  refine ⟨[⟨"OCaml.Merlin", "a.ml", 1, .error, "far"⟩, ⟨"OCaml.Merlin", "a.ml", 1, .error, "wide"⟩],
    ⟨"a.ml", ⟨1, 1, 1, 2, 0, 1⟩, .error, "far"⟩,
    ⟨"a.ml", ⟨1, 1, 1, Int64.minValue, 0, 3⟩, .error, "wide"⟩, by decide +kernel, by decide,
    by decide⟩

end MerlinBridge
