import Mathlib.Data.List.Forall2
import MerlinBridge.Proofs.MalformedEntries
import MerlinBridge.Proofs.SpanRanges

/-!
# What is seen of a reply to a check

A reply that is applied is seen in four places: its diagnostics are stored and
highlighted, they are listed as issues, and what is not applied is noted in the
log. The lists are made one after the other, each from the entries that could be
read, and leave out on their own what lies outside the text. `Displays` says that
they go together all the same: the entries with a span of the text come in the
order of the reply in all three lists, and of the other entries each has one line
in the log.
-/

namespace MerlinBridge

open Json Payload

/-- An entry has a span, and it is one of the text. -/
def Json.LiesIn (v : Json) (t : Text) : Prop :=
  ∃ s range, HasSpan v s ∧ Range.ofSpan t s = .ok range

/-- A diagnostic says what the entry says, about the range of its span. -/
structure Diagnostic.Shows (r : Request) (v : Json) (d : Diagnostic) : Prop where
  range : ∃ s, HasSpan v s ∧ Range.ofSpan r.snapshot s = .ok d.range
  filename : d.filename = r.path
  severity : ∃ word, ReadsAs v "type" word ∧ d.severity = Severity.ofWord word
  message : ReadsAs v "message" d.message

/-- An issue lists a diagnostic by its first line. -/
structure Task.Lists (d : Diagnostic) (k : Task) : Prop where
  category : k.category = Bridge.taskCategory
  filename : k.filename = d.filename
  line : k.line = d.range.startLine
  severity : k.severity = d.severity
  message : k.message = d.message

/-! ## Entries and lists -/

section Lists

variable {α β γ : Type} {R : α → β → Prop} {S : α → γ → Prop}

/-- What is made of the second of two lists that go together goes together with the part of the
first that it is made of. -/
theorem forall₂_filter_filterMap {l : List α} {l' : List β} (h : List.Forall₂ R l l')
    {p : α → Bool} {f : β → Option γ}
    (step : ∀ a ∈ l, ∀ b, R a b →
      p a = true ∧ (∃ c, f b = some c ∧ S a c) ∨ p a = false ∧ f b = none) :
    List.Forall₂ S (l.filter p) (l'.filterMap f) := by
  induction h with
  | nil => exact .nil
  | cons hab _ ih =>
      obtain ⟨hhead, htail⟩ := List.forall_mem_cons.mp step
      rcases hhead _ hab with ⟨hp, c, hf, hs⟩ | ⟨hp, hf⟩
      · simpa only [List.filter_cons, hp, if_true, List.filterMap_cons, hf] using
          List.Forall₂.cons hs (ih htail)
      · simpa [List.filter_cons, hp, List.filterMap_cons, hf] using ih htail

end Lists

theorem Json.hasSpan_unique {v : Json} (h : Legal v) {s s' : Span} (hs : HasSpan v s)
    (hs' : HasSpan v s') : s = s' :=
  Except.ok.inj (((Span.ofJson_eq_ok_iff h).mpr hs).symm.trans ((Span.ofJson_eq_ok_iff h).mpr hs'))

theorem Json.liesIn_iff_of_hasSpan {v : Json} (h : Legal v) {s : Span} {t : Text}
    (hs : HasSpan v s) : v.LiesIn t ↔ ∃ range, Range.ofSpan t s = .ok range := by
  constructor
  · rintro ⟨s', range, hs', hrange⟩
    rw [hasSpan_unique h hs hs']
    exact ⟨range, hrange⟩
  · rintro ⟨range, hrange⟩
    exact ⟨s, range, hs, hrange⟩

theorem Json.LiesIn.isPlaced {v : Json} {t : Text} (h : v.LiesIn t) : IsPlaced v := by
  obtain ⟨s, -, hs, -⟩ := h
  exact isPlaced_iff.mpr ⟨s, hs⟩

namespace Payload

variable {α γ : Type} {s : Shape α} {t : Text} {es : List Json}

open Classical in
theorem filter_and_liesIn (h : ∀ {v : Json}, v.LiesIn t → s.WellFormed v) :
    (es.filter fun v => s.WellFormed v ∧ v.LiesIn t) = es.filter fun v => v.LiesIn t := by
  apply List.filter_congr
  intro v _
  exact decide_eq_decide.mpr (and_iff_right_of_imp h)

open Classical in
/-- What is made of the entries with a span of the text, by a function that leaves out the
others. -/
theorem Shape.Sifted.forall₂_filterMap {entries : List α} {skipped : List Skip}
    (h : s.Sifted es entries skipped) (legal : ∀ v ∈ es, Legal v) (span : α → Span)
    {f : α → Option γ} {S : Json → γ → Prop}
    (describes : ∀ {v a}, s.Describes v a → HasSpan v (span a))
    (made : ∀ {v a range}, Legal v → s.Describes v a → Range.ofSpan t (span a) = .ok range →
      ∃ c, f a = some c ∧ S v c)
    (left : ∀ {a cause}, Range.ofSpan t (span a) = .error cause → f a = none) :
    List.Forall₂ S (es.filter fun v => s.WellFormed v ∧ v.LiesIn t) (entries.filterMap f) := by
  have hfilter : (es.filter fun v => s.WellFormed v ∧ v.LiesIn t) =
      (es.filter fun v => s.WellFormed v).filter fun v => v.LiesIn t := by
    rw [List.filter_filter]
    apply List.filter_congr
    intro v _
    rw [Bool.decide_and, Bool.and_comm]
  rw [hfilter]
  refine forall₂_filter_filterMap h.described fun v hv a ha => ?_
  have hlegal := legal v (List.mem_filter.mp hv).1
  have hlies := Json.liesIn_iff_of_hasSpan (t := t) hlegal (describes ha)
  cases hrange : Range.ofSpan t (span a) with
  | ok range =>
      rw [hrange] at hlies
      exact Or.inl ⟨by simp [hlies], made hlegal ha hrange⟩
  | error cause =>
      rw [hrange] at hlies
      exact Or.inr ⟨by simp [hlies], left hrange⟩

end Payload

namespace Bridge

variable {r : Request} {v : Json}

theorem shows_of_diagnosticOf? {entry : ErrorEntry} (hentry : errorShape.Describes v entry)
    {range : Range} (hrange : Range.ofSpan r.snapshot entry.span = .ok range) :
    ∃ d, diagnosticOf? r entry = some d ∧ d.Shows r v := by
  obtain ⟨hspan, hmessage, htype⟩ := hentry
  refine ⟨⟨r.path, range, Severity.ofWord entry.type, entry.message⟩, ?_,
    ⟨entry.span, hspan, hrange⟩, rfl, ⟨entry.type, htype, rfl⟩, hmessage⟩
  simp only [diagnosticOf?, hrange]

open Classical in
/-- The diagnostics are those of the entries that lie in the text. -/
theorem forall₂_shows {es : List Json} {entries : List ErrorEntry} {skipped : List Skip}
    (legal : ∀ v ∈ es, Legal v) (h : errorShape.Sifted es entries skipped) :
    List.Forall₂ (Diagnostic.Shows r) (es.filter fun v => v.LiesIn r.snapshot)
      (entries.filterMap (diagnosticOf? r)) := by
  rw [← filter_and_liesIn (s := errorShape) fun hv => hv.isPlaced]
  apply h.forall₂_filterMap legal ErrorEntry.span
  · exact fun hentry => hentry.1
  · exact fun _ hentry hrange => shows_of_diagnosticOf? hentry hrange
  · intro entry cause hrange
    simp only [diagnosticOf?, hrange]

theorem forall₂_lists (r : Request) (entries : List ErrorEntry) :
    List.Forall₂ Task.Lists (entries.filterMap (diagnosticOf? r))
      (entries.filterMap (taskOf? r)) := by
  induction entries with
  | nil => exact .nil
  | cons entry entries ih =>
      cases hrange : Range.ofSpan r.snapshot entry.span with
      | error cause => simpa [diagnosticOf?, taskOf?, hrange] using ih
      | ok range =>
          obtain ⟨start, stop, -, -, rfl⟩ := Range.ofSpan_eq_ok_iff.mp hrange
          simp only [List.filterMap_cons, diagnosticOf?, taskOf?, hrange]
          exact .cons ⟨rfl, rfl, rfl, rfl, rfl⟩ ih

end Bridge

/-! ## Lines of the log -/

def Event.line? : Event → Option Bytes
  | .log line => some line
  | _ => none

namespace Bridge

variable {r : Request}

def logged (b : Bridge) : List Bytes :=
  b.trace.filterMap Event.line?

@[simp] theorem logged_logAll (b : Bridge) (lines : List Bytes) :
    (b.logAll lines).logged = b.logged ++ lines.map fun line => line.dropEnd "\n" := by
  simp [logAll_eq, logged, List.filterMap_map, Function.comp_def, Event.line?]

@[simp] theorem logged_tell (b : Bridge) (call : HostCall) : (b.tell call).logged = b.logged := by
  simp [logged, tell, emit, Event.line?]

def skipLine (r : Request) (s : Skip) : Bytes :=
  about r ("skipping malformed entry: " ++ s.message)

theorem logged_showErrors (b : Bridge) (r : Request) (doc : Nat) (p : Payload.Errors) :
    (b.showErrors r doc p).logged =
      b.logged ++ (p.errors.filterMap (diagnosticNote? r) ++
        p.quickFixes.filterMap (fixNote? r)).map fun line => line.dropEnd "\n" := by
  unfold showErrors
  simp only [logged_tell]
  change ((b.logAll _).logAll _).logged = _
  simp

def revisionNote? (r : Request) (d : Document) : Option Bytes :=
  if d.revision = r.revision then none
  else some (about r ("document is now at revision " ++ Decimal.ofInt64 d.revision ++
    "; applying diagnostics anyway"))

/-- What a reply adds to the log when it is applied to a document. -/
theorem logged_applyErrors_of_focused (b : Bridge) {e : Editor} {v : Option Json}
    {p : Payload.Errors} {d : Document} (reply : Payload.Errors.ofJson v = .ok p)
    (focus : (e.resolve r.doc).filter e.isFocused = some d) :
    (b.applyErrors e r v).1.logged =
      b.logged ++ (p.skipped.map (skipLine r) ++ (revisionNote? r d).toList ++
        p.errors.filterMap (diagnosticNote? r) ++ p.quickFixes.filterMap (fixNote? r)).map
          fun line => line.dropEnd "\n" := by
  have hskipped : (b.logSkipped r p.skipped).logged =
      b.logged ++ (p.skipped.map (skipLine r)).map fun line => line.dropEnd "\n" :=
    logged_logAll _ _
  simp only [applyErrors, reply, focus, logged_showErrors, revisionNote?]
  split
  · simp [hskipped]
  · rw [show ∀ line, (b.logSkipped r p.skipped).log line =
      (b.logSkipped r p.skipped).logAll [line] from fun _ => rfl, logged_logAll, hskipped]
    simp

/-- What an applied reply adds to the log. The revision is noted if it is not that of the
request. -/
theorem logged_applyErrors (b : Bridge) {e : Editor} {v : Option Json} {p : Payload.Errors}
    (reply : Payload.Errors.ofJson v = .ok p) (focus : e.looksAt r = true) :
    ∃ revision : List Bytes,
      (∀ line ∈ revision, ∃ rest, line = about r ("document is now at revision " ++ rest)) ∧
      (b.applyErrors e r v).1.logged =
        b.logged ++ (p.skipped.map (skipLine r) ++ revision ++
          p.errors.filterMap (diagnosticNote? r) ++ p.quickFixes.filterMap (fixNote? r)).map
            fun line => line.dropEnd "\n" := by
  cases hfocus : (e.resolve r.doc).filter e.isFocused with
  | none =>
      rw [e.looksAt_of_not_focused hfocus] at focus
      cases focus
  | some d =>
      refine ⟨(revisionNote? r d).toList, ?_, b.logged_applyErrors_of_focused reply hfocus⟩
      intro line hline
      unfold revisionNote? at hline
      split at hline
      · cases hline
      · obtain rfl := List.mem_singleton.mp hline
        exact ⟨_, by rw [List.append_assoc]⟩

/-! ## Reports of entries that are left out -/

/-- How the lines open that say of a diagnostic of the reply that it is skipped. -/
def skipLeads (r : Request) : List Bytes :=
  [about r "skipping malformed entry: error ", about r "skipping diagnostic "]

def SkipsDiagnostic (r : Request) (line : Bytes) : Prop :=
  ∃ lead ∈ skipLeads r, lead <+: line

instance (r : Request) : DecidablePred (SkipsDiagnostic r) := fun line =>
  inferInstanceAs (Decidable (∃ lead ∈ skipLeads r, lead <+: line))

theorem skipsDiagnostic_about_iff {text : Bytes} :
    SkipsDiagnostic r (about r text) ↔
      ("skipping malformed entry: error " : Bytes) <+: text ∨
        ("skipping diagnostic " : Bytes) <+: text := by
  simp [SkipsDiagnostic, skipLeads, about, List.prefix_append_right_inj]

/-- A text that departs from a lead departs from it however it goes on. -/
theorem not_prefix_append {lead text rest : Bytes} (h : ¬ lead <+: text ∧ ¬ text <+: lead) :
    ¬ lead <+: text ++ rest := by
  intro hlead
  rcases List.prefix_or_prefix_of_prefix hlead (List.prefix_append text rest) with hshort | hlong
  · exact h.1 hshort
  · exact h.2 hlong

theorem not_skipsDiagnostic_about {text rest : Bytes}
    (h : ∀ lead ∈ [("skipping malformed entry: error " : Bytes), "skipping diagnostic "],
      ¬ lead <+: text ∧ ¬ text <+: lead) : ¬ SkipsDiagnostic r (about r (text ++ rest)) := by
  rw [skipsDiagnostic_about_iff]
  rintro (hlead | hlead)
  · exact not_prefix_append (h _ (by simp)) hlead
  · exact not_prefix_append (h _ (by simp)) hlead

/-- Of the notes about entries that could not be read, those about diagnostics are told by how they
open. -/
theorem skipsDiagnostic_skipLine_iff {s : Skip} :
    SkipsDiagnostic r (skipLine r s) ↔ s.errorIndex?.isSome = true := by
  have hlead : (("skipping malformed entry: error " : String) : Bytes) =
      "skipping malformed entry: " ++ "error " := by decide
  have hother : ¬ ("skipping diagnostic " : Bytes) <+: "skipping malformed entry: " ++ s.message :=
    not_prefix_append (by decide)
  rw [skipLine, skipsDiagnostic_about_iff, hlead, List.prefix_append_right_inj, or_iff_left hother]
  cases s with
  | error index cause =>
      simp only [Skip.message, List.append_assoc, Skip.errorIndex?, Option.isSome_some, iff_true]
      exact List.prefix_append _ _
  | _ =>
      simp only [Skip.message, List.append_assoc, Skip.errorIndex?, Option.isSome_none,
        Bool.false_eq_true, iff_false]
      exact not_prefix_append (by decide)

theorem skipsDiagnostic_diagnosticNote? {entry : ErrorEntry} {line : Bytes}
    (h : diagnosticNote? r entry = some line) : SkipsDiagnostic r line := by
  unfold diagnosticNote? at h
  split at h
  · cases h
  · obtain rfl := Option.some.inj h
    rw [skipsDiagnostic_about_iff]
    right
    simp only [List.append_assoc]
    exact List.prefix_append _ _

theorem not_skipsDiagnostic_fixNote? {entry : QuickFixEntry} {line : Bytes}
    (h : fixNote? r entry = some line) : ¬ SkipsDiagnostic r line := by
  unfold fixNote? at h
  split at h
  · obtain rfl := Option.some.inj h
    simp only [List.append_assoc]
    exact not_skipsDiagnostic_about (by decide)
  · split at h
    · cases h
    · obtain rfl := Option.some.inj h
      simp only [List.append_assoc]
      exact not_skipsDiagnostic_about (by decide)

/-- A newline that is taken off the end of a line does not belong to a lead that ends otherwise. -/
theorem prefix_dropEnd_iff {lead line : Bytes} (h : ∀ a : Bytes, lead ≠ a ++ "\n") :
    lead <+: line.dropEnd "\n" ↔ lead <+: line := by
  unfold Bytes.dropEnd
  split
  · rename_i hend
    obtain ⟨a, rfl⟩ := List.isSuffixOf_iff_suffix.mp hend
    have htake : (a ++ (("\n" : String) : Bytes)).take
        ((a ++ (("\n" : String) : Bytes)).length - (("\n" : String) : Bytes).length) = a := by simp
    rw [htake]
    exact (or_iff_right (h a)).symm.trans List.prefix_concat_iff.symm
  · rfl

theorem about_ne_append_newline {text : Bytes} (h : text.getLast? = some (Bytes.byte ' '))
    (a : Bytes) : about r text ≠ a ++ "\n" := by
  intro heq
  have hlast := congrArg List.getLast? heq
  rw [about, List.getLast?_append, h, Option.some_or, List.getLast?_append,
    show (("\n" : String) : Bytes).getLast? = some (Bytes.byte '\n') by decide,
    Option.some_or] at hlast
  exact absurd hlast (by decide)

theorem skipsDiagnostic_dropEnd_iff {line : Bytes} :
    SkipsDiagnostic r (line.dropEnd "\n") ↔ SkipsDiagnostic r line := by
  have hleads : ∀ lead ∈ skipLeads r, ∀ a : Bytes, lead ≠ a ++ "\n" := by
    simp only [skipLeads, List.forall_mem_cons, List.not_mem_nil, false_implies, implies_true,
      and_true]
    exact ⟨about_ne_append_newline (by decide), about_ne_append_newline (by decide)⟩
  exact exists_congr fun lead => and_congr_right fun hlead => prefix_dropEnd_iff (hleads lead hlead)

theorem filter_logged {lines : List Bytes} :
    (lines.map fun line => line.dropEnd "\n").filter (fun line => SkipsDiagnostic r line) =
      (lines.filter fun line => SkipsDiagnostic r line).map fun line => line.dropEnd "\n" := by
  rw [List.filter_map]
  congr 1
  apply List.filter_congr
  intro line _
  exact decide_eq_decide.mpr skipsDiagnostic_dropEnd_iff

def reportOf? (r : Request) (e : Json × Nat) : Option Bytes :=
  match ErrorEntry.read e.2 e.1 with
  | .error s => some (skipLine r s)
  | .ok entry => diagnosticNote? r entry

/-- The lines about entries that could not be read come first, then those about spans outside the
text. -/
theorem perm_reports (r : Request) (es : List Json) (i : Nat) :
    ((siftFrom ErrorEntry.read i es).2.map (skipLine r) ++
        (siftFrom ErrorEntry.read i es).1.filterMap (diagnosticNote? r)).Perm
      ((es.zipIdx i).filterMap (reportOf? r)) := by
  induction es generalizing i with
  | nil => exact .refl _
  | cons v rest ih =>
      cases hread : ErrorEntry.read i v with
      | error s =>
          simp only [siftFrom, hread, List.map_cons, List.cons_append, List.zipIdx_cons,
            List.filterMap_cons, reportOf?]
          exact (ih (i + 1)).cons _
      | ok entry =>
          cases hnote : diagnosticNote? r entry with
          | none =>
              simp only [siftFrom, hread, List.zipIdx_cons, List.filterMap_cons, reportOf?, hnote]
              exact ih (i + 1)
          | some line =>
              simp only [siftFrom, hread, List.zipIdx_cons, List.filterMap_cons, reportOf?, hnote]
              exact List.perm_middle.trans ((ih (i + 1)).cons _)

/-- A line says of the entry `e.1` with the index `e.2` why it is not applied. -/
inductive Reports (r : Request) (e : Json × Nat) : Bytes → Prop where
  | malformed {cause : Pos.Error} (h : ¬ IsPlaced e.1) (read : Span.ofJson e.1 = .error cause) :
      Reports r e ((about r ("skipping malformed entry: error " ++ Decimal.ofNat e.2 ++ ": " ++
        cause.message)).dropEnd "\n")
  | outside {s : Span} {message : Bytes} {cause : Range.SpanError} (span : HasSpan e.1 s)
      (refused : Range.ofSpan r.snapshot s = .error cause) (said : ReadsAs e.1 "message" message) :
      Reports r e ((about r ("skipping diagnostic " ++ Quoted.quote message ++ ": " ++
        cause.message)).dropEnd "\n")

theorem reports_of_reportOf? {e : Json × Nat} (h : Legal e.1) :
    (¬ e.1.LiesIn r.snapshot ∧
        ∃ line, reportOf? r e = some line ∧ Reports r e (line.dropEnd "\n")) ∨
      e.1.LiesIn r.snapshot ∧ reportOf? r e = none := by
  cases hspan : Span.ofJson e.1 with
  | error cause =>
      have hnone : ∀ s, ¬ HasSpan e.1 s := by
        intro s hs
        rw [(Span.ofJson_eq_ok_iff h).mpr hs] at hspan
        cases hspan
      have hplaced : ¬ IsPlaced e.1 := by
        rw [isPlaced_iff]
        exact fun ⟨s, hs⟩ => hnone s hs
      refine Or.inl ⟨fun ⟨s, _, hs, _⟩ => hnone s hs, skipLine r (.error e.2 cause), ?_, ?_⟩
      · simp only [reportOf?, ErrorEntry.read, hspan]
      · exact .malformed hplaced hspan
  | ok s =>
      have hs := (Span.ofJson_eq_ok_iff h).mp hspan
      have hentry : errorShape.Describes e.1
          ⟨s, contentOf (e.1.get? "message"), contentOf (e.1.get? "type")⟩ :=
        ⟨hs, (contentOf_get?_iff h).mp rfl, (contentOf_get?_iff h).mp rfl⟩
      have hlies := liesIn_iff_of_hasSpan (t := r.snapshot) h hs
      cases hrange : Range.ofSpan r.snapshot s with
      | ok range =>
          refine Or.inr ⟨hlies.mpr ⟨range, hrange⟩, ?_⟩
          simp only [reportOf?, ErrorEntry.read, hspan, diagnosticNote?, hrange]
      | error cause =>
          refine Or.inl ⟨?_, _, ?_, .outside hs hrange hentry.2.1⟩
          · rw [hlies, hrange]
            rintro ⟨range, hrange⟩
            cases hrange
          · simp only [reportOf?, ErrorEntry.read, hspan, diagnosticNote?, hrange]

open Classical in
/-- Each entry that is not applied has a line of its own. -/
theorem forall₂_reports {es : List Json} (legal : ∀ v ∈ es, Legal v) :
    List.Forall₂ (Reports r) (es.zipIdx.filter fun e => ¬ e.1.LiesIn r.snapshot)
      ((es.zipIdx.filterMap (reportOf? r)).map fun line => line.dropEnd "\n") := by
  rw [List.map_filterMap]
  refine forall₂_filter_filterMap (R := Eq) (List.forall₂_same.mpr fun _ _ => rfl) ?_
  rintro e he _ rfl
  have hlegal := legal e.1 (List.fst_mem_of_mem_zipIdx he)
  rcases reports_of_reportOf? (r := r) hlegal with ⟨hout, line, hline, hreports⟩ | ⟨hlies, hnone⟩
  · exact Or.inl ⟨by simpa using hout, _, by rw [hline]; rfl, hreports⟩
  · exact Or.inr ⟨by simpa using hlies, by rw [hnone]; rfl⟩

/-- Of the lines that an applied reply adds, those that skip diagnostics. -/
theorem filter_notes {es qs : List Json} {notes : List Skip} {revision : List Bytes}
    (hnotes : ∀ n ∈ notes, ∃ text, n = .quickFixes text)
    (hrevision : ∀ line ∈ revision,
      ∃ rest, line = about r ("document is now at revision " ++ rest)) :
    ((Errors.ofEntries es qs notes).skipped.map (skipLine r) ++ revision ++
        (Errors.ofEntries es qs notes).errors.filterMap (diagnosticNote? r) ++
        (Errors.ofEntries es qs notes).quickFixes.filterMap (fixNote? r)).filter
          (fun line => SkipsDiagnostic r line) =
      (sift ErrorEntry.read es).2.map (skipLine r) ++
        (sift ErrorEntry.read es).1.filterMap (diagnosticNote? r) := by
  -- Of the six parts of the log, those about the diagnostics stay whole and the others go.
  have hnote : (notes.map (skipLine r)).filter (fun line => SkipsDiagnostic r line) = [] := by
    rw [List.filter_eq_nil_iff, List.forall_mem_map]
    intro n hn
    obtain ⟨text, rfl⟩ := hnotes n hn
    simp [skipsDiagnostic_skipLine_iff, Skip.errorIndex?]
  have herror : ((sift ErrorEntry.read es).2.map (skipLine r)).filter
      (fun line => SkipsDiagnostic r line) = (sift ErrorEntry.read es).2.map (skipLine r) := by
    rw [List.filter_eq_self, List.forall_mem_map]
    intro n hn
    obtain ⟨i, v, hread⟩ := exists_read_of_mem_siftFrom hn
    have hindex : n.errorIndex? = some i := errorShape_follows.index_of_error hread
    simp [skipsDiagnostic_skipLine_iff, hindex]
  have hfix : ((sift QuickFixEntry.read qs).2.map (skipLine r)).filter
      (fun line => SkipsDiagnostic r line) = [] := by
    rw [List.filter_eq_nil_iff, List.forall_mem_map]
    intro n hn
    simp [skipsDiagnostic_skipLine_iff, errorIndex?_of_mem_quickFixes hn]
  have hrev : revision.filter (fun line => SkipsDiagnostic r line) = [] := by
    rw [List.filter_eq_nil_iff]
    intro line hline
    obtain ⟨rest, rfl⟩ := hrevision line hline
    simpa using not_skipsDiagnostic_about (r := r) (by decide)
  have hdiagnostic : ((sift ErrorEntry.read es).1.filterMap (diagnosticNote? r)).filter
      (fun line => SkipsDiagnostic r line) =
        (sift ErrorEntry.read es).1.filterMap (diagnosticNote? r) := by
    rw [List.filter_eq_self]
    intro line hline
    obtain ⟨entry, -, hentry⟩ := List.mem_filterMap.mp hline
    simpa using skipsDiagnostic_diagnosticNote? hentry
  have hfixNote : ((sift QuickFixEntry.read qs).1.filterMap (fixNote? r)).filter
      (fun line => SkipsDiagnostic r line) = [] := by
    rw [List.filter_eq_nil_iff]
    intro line hline
    obtain ⟨entry, -, hentry⟩ := List.mem_filterMap.mp hline
    simpa using not_skipsDiagnostic_fixNote? hentry
  simp only [Errors.ofEntries, List.map_append, List.filter_append, hnote, herror, hfix, hrev,
    hdiagnostic, hfixNote, List.nil_append, List.append_nil]

open Classical in
/-- The bridge has become `b'` by showing the entries `es` of a reply to `r`. -/
structure Displays (r : Request) (es : List Json) (b b' : Bridge) : Prop where
  /-- What is stored, highlighted and listed comes from the entries that lie in the text. -/
  lists : ∃ diagnostics tasks markers fixes,
    b'.store.get? (Store.key r.path) = some ⟨diagnostics, fixes⟩ ∧
    b'.hostCalls = b.hostCalls ++
      [.tasks r.path tasks, .highlights (r.doc.getD 0) diagnostics markers] ∧
    List.Forall₂ (Diagnostic.Shows r) (es.filter fun v => v.LiesIn r.snapshot) diagnostics ∧
    List.Forall₂ Task.Lists diagnostics tasks
  /-- The lines that skip diagnostics are about the other entries, one about each. -/
  reports : ∃ lines reports, b'.logged = b.logged ++ lines ∧
    (lines.filter fun line => SkipsDiagnostic r line).Perm reports ∧
    List.Forall₂ (Reports r) (es.zipIdx.filter fun e => ¬ e.1.LiesIn r.snapshot) reports

theorem displays_of_holds (b : Bridge) {e : Editor} {v : Json} {es : List Json} (legal : Legal v)
    (holds : HoldsErrors v es) (focus : e.looksAt r = true) :
    (b.applyErrors e r (some v)).2 = none ∧ Displays r es b (b.applyErrors e r (some v)).1 := by
  obtain ⟨qs, hqs⟩ := holds.exists_quickFixes legal
  obtain ⟨notes, hreply, hnotes⟩ := Errors.ofJson_of_holds legal holds hqs
  have hlegal := holds.legal legal
  obtain ⟨hfault, hstored, -⟩ := applyErrors_of_payload b hreply focus
  have hperforms := applyErrors_performs b e r (some v)
  rw [focus, Effect.ofErrors_of_payload hreply] at hperforms
  have hsifted := errorShape_isolates.sifted legal holds
    (resultsOf_eq_some_iff.mpr ⟨_, hreply, rfl⟩)
  obtain ⟨revision, hrevision, hlogged⟩ := logged_applyErrors b hreply focus
  refine ⟨hfault, ⟨_, _, _, _, hstored, congrArg Outside.calls hperforms.outside,
    forall₂_shows hlegal hsifted, forall₂_lists r _⟩, ⟨_, _, hlogged, ?_, forall₂_reports hlegal⟩⟩
  rw [filter_logged, filter_notes hnotes hrevision]
  exact (perm_reports r es 0).map _

/-- For a document with the focus, the replies that are applied are those that hold diagnostics. -/
theorem applyErrors_eq_none_iff (b : Bridge) {e : Editor} {v : Json} (legal : Legal v)
    (focus : e.looksAt r = true) :
    (b.applyErrors e r (some v)).2 = none ↔ ∃ es, HoldsErrors v es := by
  constructor
  · intro hfault
    have hperforms := applyErrors_performs b e r (some v)
    rw [hperforms.fault, focus, Effect.ofErrors] at hfault
    cases hp : Errors.ofJson (some v) with
    | error err =>
        rw [hp] at hfault
        cases hfault
    | ok p => exact Errors.holds_of_ofJson legal hp
  · rintro ⟨es, holds⟩
    exact (displays_of_holds b legal holds focus).1

end Bridge

end MerlinBridge
