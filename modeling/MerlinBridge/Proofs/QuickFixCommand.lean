import Mathlib.Data.List.Forall2
import MerlinBridge.Proofs.Numerals
import MerlinBridge.Proofs.SoleRequest
import MerlinBridge.Proofs.TextSpans

/-!
# Quick fixes from the reply to the splice

A reply to a check leaves fixes in the store and markers in the editor. Both come
from the same entries, so they go together one by one, and since every range is
that of a span in the text, each suggestion can be put in its place.

The quick fix command shows the suggestions at a place under the numbers by which
they are chosen. `suggestionsAt` says which they are, with offsets as plain
numbers: it is what the lines of the command and its choice both refer to, however
many fixes overlap there and however few suggestions they have.
-/

namespace MerlinBridge

/-! ## Fixes and markers -/

/-- The marker stands for the fix: at the end of its first line, and not before
it. -/
structure Marker.Marks (t : Text) (q : QuickFix) (m : Marker) : Prop where
  line : m.line = q.range.startLine
  offset : t.endOfLine q.range.startLine = .ok m.offset
  notBefore : q.range.pos.toInt ≤ m.offset

namespace Bridge

theorem marks_of_fixOf? {r : Request} {entry : Payload.QuickFixEntry} {q : QuickFix}
    (fits : r.snapshot.length < 2 ^ 63) (h : fixOf? r entry = some q) :
    q.range.Within r.snapshot.length ∧
      ∃ m, markerOf? r entry = some m ∧ Marker.Marks r.snapshot q m := by
  have hmarker : markerOf? r entry = (Marker.ofQuickFix r.snapshot q).toOption := by
    simp [markerOf?, h]
  unfold fixOf? at h
  split at h
  · rename_i range hrange
    obtain rfl := Option.some.inj h
    obtain ⟨hwithin, stop, hstop, hle⟩ := Range.within_ofSpan fits hrange
    refine ⟨hwithin, ⟨range.startLine, stop, Bytes.join " " entry.suggestions⟩, ?_, rfl, hstop, hle⟩
    simp [hmarker, Marker.ofQuickFix, hstop, bind, Except.bind, Except.toOption]
  · cases h

theorem markerOf?_of_no_fix {r : Request} {entry : Payload.QuickFixEntry}
    (h : fixOf? r entry = none) : markerOf? r entry = none := by
  simp [markerOf?, h]

theorem within_of_mem_fixes {r : Request} (fits : r.snapshot.length < 2 ^ 63)
    {entries : List Payload.QuickFixEntry} {q : QuickFix}
    (h : q ∈ entries.filterMap (fixOf? r)) : q.range.Within r.snapshot.length := by
  obtain ⟨entry, -, hentry⟩ := List.mem_filterMap.mp h
  exact (marks_of_fixOf? fits hentry).1

theorem forall₂_marks {r : Request} (fits : r.snapshot.length < 2 ^ 63)
    (entries : List Payload.QuickFixEntry) :
    List.Forall₂ (Marker.Marks r.snapshot) (entries.filterMap (fixOf? r))
      (entries.filterMap (markerOf? r)) := by
  induction entries with
  | nil => exact List.Forall₂.nil
  | cons entry entries ih =>
      cases hfix : fixOf? r entry with
      | none => simpa [hfix, markerOf?_of_no_fix hfix] using ih
      | some q =>
          obtain ⟨-, m, hm, hmarks⟩ := marks_of_fixOf? fits hfix
          simpa [hfix, hm] using List.Forall₂.cons hmarks ih

end Bridge

/-! ## Replies that are applied -/

namespace Effect

def found (r : Request) (p : Payload.Errors) : Findings where
  diagnostics := p.errors.filterMap (Bridge.diagnosticOf? r)
  fixes := p.quickFixes.filterMap (Bridge.fixOf? r)

def ofPayload (r : Request) (p : Payload.Errors) : Effect where
  calls :=
    [.tasks r.path (p.errors.filterMap (Bridge.taskOf? r)),
      .highlights (r.doc.getD 0) (found r p).diagnostics
        (p.quickFixes.filterMap (Bridge.markerOf? r))]
  findings := some (found r p)

theorem ofErrors_of_payload {r : Request} {v : Option Json} {p : Payload.Errors}
    (h : Payload.Errors.ofJson v = .ok p) : ofErrors r true v = ofPayload r p := by
  unfold ofErrors
  rw [h]
  rfl

theorem ofErrors_of_success {r : Request} {focused : Bool} {v : Option Json}
    (h : (ofErrors r focused v).fault = none) : ∃ p, ofErrors r focused v = ofPayload r p := by
  cases hpayload : Payload.Errors.ofJson v with
  | error err =>
      simp only [ofErrors, hpayload] at h
      cases h
  | ok p =>
      cases focused with
      | false =>
          simp only [ofErrors, hpayload] at h
          cases h
      | true => exact ⟨p, ofErrors_of_payload hpayload⟩

theorem ofResult_of_success {settings : Settings} {opened focused : Bool} {cur : Running}
    {res : RunResult} (check : cur.request.query = .errors)
    (h : (ofResult settings opened focused cur res).fault = none) :
    ∃ v, ofResult settings opened focused cur res = ofErrors cur.request focused v := by
  unfold ofResult at h ⊢
  split at h
  · cases h
  · rename_i hopen
    rw [if_neg hopen]
    cases hfault : res.fault with
    | some f =>
        simp only [hfault, ofFault] at h
        split at h <;> cases h
    | none =>
        simp only [hfault, ofOutput] at h ⊢
        cases hreply : Envelope.decode res.output with
        | error err =>
            simp only [hreply] at h
            cases h
        | ok env =>
            simp only [hreply] at h ⊢
            cases hcomplaint : env.complaint? with
            | some c =>
                simp only [hcomplaint, ofComplaint] at h
                split at h <;> cases h
            | none => exact ⟨env.value, by simp only [ofValue, check]⟩

end Effect

theorem Bridge.applyErrors_of_payload (b : Bridge) {e : Editor} {r : Request} {v : Option Json}
    {p : Payload.Errors} (reply : Payload.Errors.ofJson v = .ok p) (focus : e.looksAt r = true) :
    (b.applyErrors e r v).2 = none ∧
      (b.applyErrors e r v).1.store.get? (Store.key r.path) = some (Effect.found r p) ∧
      (b.applyErrors e r v).1.hostCalls.getLast? =
        some (.highlights (r.doc.getD 0) (Effect.found r p).diagnostics
          (p.quickFixes.filterMap (markerOf? r))) := by
  have hperforms := applyErrors_performs b e r v
  rw [focus, Effect.ofErrors_of_payload reply] at hperforms
  have hstore : (b.applyErrors e r v).1.store =
      b.store.set (Store.key r.path) (Effect.found r p) :=
    congrArg Outside.store hperforms.outside
  have hcalls : (b.applyErrors e r v).1.hostCalls =
      b.hostCalls ++ (Effect.ofPayload r p).calls := congrArg Outside.calls hperforms.outside
  refine ⟨hperforms.fault, ?_, ?_⟩
  · rw [hstore, Store.get?_set_self]
  · rw [hcalls]
    simp [Effect.ofPayload]

/-! ## Candidates -/

namespace Console

def fixesAt (fixes : List QuickFix) (cursor : Nat) : List QuickFix :=
  fixes.filter fun q => q.range.Reaches cursor

def suggestionsAt (fixes : List QuickFix) (cursor : Nat) : List (QuickFix × Bytes) :=
  (fixesAt fixes cursor).flatMap fun q => q.suggestions.map fun s => (q, s)

def listing (suggestions : List (QuickFix × Bytes)) : Bytes :=
  (suggestions.mapIdx fun n c => Decimal.ofNat n ++ "\t" ++ c.2 ++ "\n").flatten

def suggested (c : QuickFix × Nat) : QuickFix × Bytes :=
  (c.1, c.1.suggestions[c.2]?.getD [])

theorem map_suggested_candidates (fixes : List QuickFix) :
    (candidates fixes).map suggested =
      fixes.flatMap fun q => q.suggestions.map fun s => (q, s) := by
  induction fixes with
  | nil => rfl
  | cons q fixes ih =>
      have hhead : ((List.range q.suggestions.length).map fun i => suggested (q, i)) =
          q.suggestions.map fun s => (q, s) := by
        apply List.ext_getElem
        · simp
        · intro n hn hn'
          have hlt : n < q.suggestions.length := by simpa using hn'
          simp [suggested, hlt]
      have ih' : (candidates fixes).map suggested = _ := ih
      simp only [candidates, List.flatMap_cons, List.map_append, List.map_map] at ih' ⊢
      rw [ih', ← hhead]
      rfl

theorem candidateLines_eq_listing (cands : List (QuickFix × Nat)) :
    candidateLines cands = listing (cands.map suggested) := by
  unfold candidateLines listing
  congr 1
  apply List.ext_getElem?
  intro n
  cases hn : cands[n]? with
  | none => simp [hn]
  | some c =>
      simp only [List.getElem?_mapIdx, List.getElem?_map, hn, Option.map_some]
      rfl

/-- A candidate comes no earlier than its index among the suggestions of its fix says. -/
theorem getElem?_candidates {fixes : List QuickFix} {n i : Nat} {q : QuickFix}
    (h : (candidates fixes)[n]? = some (q, i)) :
    q ∈ fixes ∧ i < q.suggestions.length ∧ i ≤ n := by
  induction fixes generalizing n with
  | nil => cases h
  | cons p fixes ih =>
      have hcons : candidates (p :: fixes) =
          (List.range p.suggestions.length).map (fun i => (p, i)) ++ candidates fixes := rfl
      rw [hcons] at h
      by_cases hn : n < p.suggestions.length
      · rw [List.getElem?_append_left (by simpa using hn)] at h
        rw [List.getElem?_map, List.getElem?_range hn, Option.map_some] at h
        obtain ⟨rfl, rfl⟩ := Prod.mk.inj (Option.some.inj h)
        exact ⟨List.mem_cons_self, hn, Nat.le_refl _⟩
      · rw [List.getElem?_append_right (by simpa using hn)] at h
        obtain ⟨hq, hi, hle⟩ := ih h
        exact ⟨List.mem_cons_of_mem p hq, hi, Nat.le_trans hle (Nat.sub_le _ _)⟩

/-- The choice of a suggestion puts it in the place of the range of its fix. -/
theorem applyChoice_of_suggestion {text choice position : Bytes} {fixes : List QuickFix}
    (within : ∀ q ∈ fixes, q.range.Within text.length) (fits : text.length < 2 ^ 63) {k : Int64}
    (read : Decimal.int64? choice = some k) (valid : 0 ≤ k) {q : QuickFix} {s : Bytes}
    (h : ((candidates fixes).map suggested)[k.toInt.toNat]? = some (q, s)) :
    applyChoice text (candidates fixes) choice position = .ok (q.splice text s) := by
  rw [List.getElem?_map] at h
  obtain ⟨⟨p, i⟩, hcandidate, hsuggested⟩ := Option.map_eq_some_iff.mp h
  obtain ⟨hmem, hlt, hle⟩ := getElem?_candidates hcandidate
  obtain ⟨rfl, hs⟩ := Prod.mk.inj hsuggested
  have hindex : (Int64.ofNat i).toInt = i := by
    have hk := k.toInt_lt
    exact Int64.toInt_ofNat_of_lt (by omega)
  have happly : p.apply text (Int64.ofNat i) = .ok (p.splice text s) := by
    apply QuickFix.apply_of_within (within p hmem) fits
    · rw [Int64.le_iff_toInt_le, hindex]
      exact Int.natCast_nonneg i
    · rw [hindex, Int.toNat_natCast, ← hs]
      simp [hlt]
  simp only [applyChoice, read, Option.filter_some, valid, decide_true, if_true, hcandidate, happly]

theorem applyChoice_of_none {text choice position : Bytes} {cands : List (QuickFix × Nat)}
    (h : ∀ k, Decimal.int64? choice = some k → 0 ≤ k → cands.length ≤ k.toInt.toNat) :
    applyChoice text cands choice position =
      .error (.noQuickFix choice position cands.length) := by
  unfold applyChoice
  cases hread : (Decimal.int64? choice).filter (0 ≤ ·) with
  | none => rfl
  | some k =>
      obtain ⟨hk, hvalid⟩ := Option.filter_eq_some_iff.mp hread
      have hbeyond := h k hk (by simpa using hvalid)
      simp only [List.getElem?_eq_none hbeyond]

def shown (text : Bytes) (fixes : List QuickFix) (position : Bytes) :
    (choice : Option Bytes) → Except Error Bytes
  | none => .ok (candidateLines (candidates fixes))
  | some n => applyChoice text (candidates fixes) n position

theorem showQuickFixes_eq (b : Bridge) (d : Document) (offset : Int64) (spot : Spot)
    (choice : Option Bytes) :
    showQuickFixes b d offset spot choice =
      shown d.text (b.quickFixesAt (some d) offset) spot.written choice := by
  cases choice <;> rfl

/-- What the quick fix command shows about the suggestions `cs` for a text: a list of
them, or the text with the one of a number, if there is one. -/
structure Presents (text : Bytes) (cs : List (QuickFix × Bytes)) (extra : List Bytes)
    (out : Report) : Prop where
  listed : extra = [] → out = { stdout := listing cs }
  applied : ∀ n k, extra = [n] → Decimal.int64? n = some k → 0 ≤ k.toInt → k.toInt < cs.length →
    ∃ q x, cs[k.toInt.toNat]? = some (q, x) ∧ out = { stdout := q.splice text x }
  refused : ∀ n, extra = [n] →
    (∀ k, Decimal.int64? n = some k → ¬ (0 ≤ k.toInt ∧ k.toInt < cs.length)) →
      out.stdout = [] ∧ out.status = 1

theorem presents_shown {text : Bytes} {fixes : List QuickFix}
    (within : ∀ q ∈ fixes, q.range.Within text.length) (fits : text.length < 2 ^ 63)
    (position : Bytes) (extra : List Bytes) :
    Presents text (fixes.flatMap fun q => q.suggestions.map fun s => (q, s)) extra
      (.ofShown (shown text fixes position extra.head?)) := by
  rw [← map_suggested_candidates]
  constructor
  · rintro rfl
    rw [← candidateLines_eq_listing]
    rfl
  · rintro n k rfl hread hvalid hlt
    cases hchosen : ((candidates fixes).map suggested)[k.toInt.toNat]? with
    | none =>
        rw [List.getElem?_eq_none_iff] at hchosen
        omega
    | some c =>
        refine ⟨c.1, c.2, rfl, ?_⟩
        rw [List.head?_cons, shown, applyChoice_of_suggestion within fits hread
          (by simpa [Int64.le_iff_toInt_le] using hvalid) hchosen]
        rfl
  · rintro n rfl hnone
    rw [List.head?_cons, shown, applyChoice_of_none]
    · exact ⟨rfl, rfl⟩
    · intro k hread hvalid
      have hk : 0 ≤ k.toInt := by simpa [Int64.le_iff_toInt_le] using hvalid
      have hbeyond := hnone k hread
      rw [List.length_map] at hbeyond
      omega

/-! ## The command -/

def quickFixJob (settings : Settings) (d : Document) (cursor : Nat) (spot : Spot)
    (choice : Option Bytes) : Job :=
  Command.singleJob (Bridge.new settings false) d .errors fun id b => do
    let _ ← orFault b id []
    showQuickFixes b d (Int64.ofNat cursor) spot choice

/-- The arguments are those of a quick fix command with `extra` after the place, which
is the offset `cursor` of the document `d`; the command starts as `j`, and its check ends
without a fault. -/
structure Checks (s : Surroundings) (t : Toolbox) (args extra : List Bytes) (d : Document)
    (cursor : Nat) (j : Job) : Prop where
  command : ∃ flags file written line col,
    Flags.parse args = .ok (flags, ("quickfix" : Bytes) :: file :: written :: extra) ∧
      openDocument s 0 file = .ok d ∧ position? written = some (line, col) ∧
        Text.offset ⟨d.text⟩ line col = .ok cursor
  started : start s args = .ok j
  succeeds : faultOf (j.done t).bridge 0 = none

theorem parse_quickFix (args : List Bytes) :
    Command.parse "quickfix" args =
      (spot "quickfix" 1 args).map fun r => .quickFix r.1 r.2.head? := rfl

theorem start_quickFix {s : Surroundings} {d : Document} {cursor : Nat} {p : Spot}
    (opened : openDocument s 0 p.file = .ok d)
    (accepted : Text.offset ⟨d.text⟩ p.line p.col = .ok cursor) (settings : Settings)
    (choice : Option Bytes) :
    (Command.quickFix p choice).start s (Bridge.new settings false) =
      .ok (quickFixJob settings d cursor p choice) := by
  have hoffset : offsetOf d p = .ok (Int64.ofNat cursor) := by
    simp only [offsetOf, accepted]
  simp only [Command.start, opened, hoffset, bind, Except.bind]
  rfl

theorem Checks.eq_quickFixJob {s : Surroundings} {t : Toolbox} {args extra : List Bytes}
    {d : Document} {cursor : Nat} {j : Job} (h : Checks s t args extra d cursor j) :
    ∃ settings spot, j = quickFixJob settings d cursor spot extra.head? := by
  obtain ⟨flags, file, written, line, col, hparse, hopen, hplace, hoffset⟩ := h.command
  obtain ⟨settings, c, -, -, hcommand, hstart⟩ := (start_eq_ok_iff hparse).mp h.started
  simp only [parse_quickFix, spot, hplace] at hcommand
  split at hcommand
  · cases hcommand
  · obtain rfl := Except.ok.inj hcommand
    have hjob := start_quickFix (p := ⟨file, line, col, written⟩) hopen hoffset settings
      extra.head?
    exact ⟨settings, _, Except.ok.inj (hstart.symm.trans hjob)⟩

/-- The quick fixes that the command chooses from are the stored ones at the cursor. -/
theorem quickFixesAt_of_get? {b : Bridge} {d : Document} {found : Findings} {cursor : Nat}
    (stored : b.store.get? (Store.key d.path) = some found)
    (within : ∀ q ∈ found.fixes, q.range.Within d.text.length) (fits : d.text.length < 2 ^ 63)
    (inside : cursor ≤ d.text.length) :
    b.quickFixesAt (some d) (Int64.ofNat cursor) = fixesAt found.fixes cursor := by
  simp only [Bridge.quickFixesAt, Store.quickFixesAt, stored, Option.map_some, Option.getD_some]
  apply List.filter_congr
  intro q hq
  rw [Bool.eq_iff_iff, (within q hq).covers_ofNat_iff fits inside, decide_eq_true_eq]

theorem applied_of_effect {t : Toolbox} {settings : Settings} {r : Request}
    (check : r.query = .errors) (h : (t.effect settings r).fault = none) :
    ∃ p, t.effect settings r = .ofPayload r p := by
  unfold Toolbox.effect at h ⊢
  obtain ⟨v, hreply⟩ := Effect.ofResult_of_success check h
  rw [hreply] at h ⊢
  exact Effect.ofErrors_of_success h

theorem report_quickFixJob {settings : Settings} {d : Document} {cursor : Nat} {spot : Spot}
    {choice : Option Bytes} {t : Toolbox}
    (succeeds : faultOf ((quickFixJob settings d cursor spot choice).done t).bridge 0 = none)
    (fits : d.text.length < 2 ^ 63) (inside : cursor ≤ d.text.length) :
    ∃ found, ((quickFixJob settings d cursor spot choice).done t).bridge.store.get?
          (Store.key d.path) = some found ∧
      (∀ q ∈ found.fixes, q.range.Within d.text.length) ∧
      ((quickFixJob settings d cursor spot choice).done t).report =
        .ofShown (shown d.text (fixesAt found.fixes cursor) spot.written choice) := by
  let r := Request.build 0 .errors (some d)
  obtain ⟨b, hdone, houtside, hfault⟩ := done_singleJob settings false d .errors (fun id b => do
    let _ ← orFault b id []
    showQuickFixes b d (Int64.ofNat cursor) spot choice) t
  replace hdone : (quickFixJob settings d cursor spot choice).done t = _ := hdone
  rw [hdone] at succeeds ⊢
  obtain ⟨p, heffect⟩ := applied_of_effect (show r.query = .errors from rfl)
    (hfault.symm.trans succeeds)
  rw [heffect] at houtside
  have hcalls : b.hostCalls = (Effect.ofPayload r p).calls := congrArg Outside.calls houtside
  have hstore : b.store = Store.set {} (Store.key d.path) (Effect.found r p) :=
    congrArg Outside.store houtside
  have hstored : b.store.get? (Store.key d.path) = some (Effect.found r p) := by
    rw [hstore, Store.get?_set_self]
  have hwithin : ∀ q ∈ (Effect.found r p).fixes, q.range.Within d.text.length :=
    fun q hq => Bridge.within_of_mem_fixes (r := r) fits hq
  refine ⟨_, hstored, hwithin, ?_⟩
  have hsilent : orFault b 0 [] = .ok [] := by
    rw [orFault, succeeds]
  rw [Job.report_of_silent (by rw [hcalls]; rfl) (by rw [hcalls]; rfl)]
  simp only [hsilent, bind, Except.bind, showQuickFixes_eq,
    quickFixesAt_of_get? hstored hwithin fits inside]

theorem Checks.presents {s : Surroundings} {t : Toolbox} {args extra : List Bytes}
    {d : Document} {cursor : Nat} {j : Job} (h : Checks s t args extra d cursor j)
    (fits : d.text.length < 2 ^ 63) :
    ∃ found, (j.done t).bridge.store.get? (Store.key d.path) = some found ∧
      Presents d.text (suggestionsAt found.fixes cursor) extra (run s t args).1 := by
  obtain ⟨settings, spot, rfl⟩ := h.eq_quickFixJob
  have hinside : cursor ≤ d.text.length := by
    obtain ⟨_, _, _, _, _, -, -, -, hoffset⟩ := h.command
    exact Text.offset_le_length hoffset
  obtain ⟨found, hstored, hwithin, hreport⟩ := report_quickFixJob h.succeeds fits hinside
  refine ⟨found, hstored, ?_⟩
  rw [run_of_start h.started, hreport]
  exact presents_shown (fun q hq => hwithin q (List.mem_filter.mp hq).1) fits spot.written extra

/-! ## From end to end -/

/-- A reply that is applied to a document with the focus leaves fixes with a marker
for each, and every suggestion of theirs can be applied to the text. The quick fix command
lists the suggestions of those that cover its place, and applies the one with the number
that it is given. -/
theorem quickFixes_marked_listed_applied :
    (∀ (b : Bridge) (e : Editor) (r : Request) (v : Option Json) (p : Payload.Errors),
      Payload.Errors.ofJson v = .ok p → e.looksAt r = true → r.snapshot.length < 2 ^ 63 →
        (b.applyErrors e r v).2 = none ∧
        ∃ found markers,
          (b.applyErrors e r v).1.store.get? (Store.key r.path) = some found ∧
          (b.applyErrors e r v).1.hostCalls.getLast? =
            some (.highlights (r.doc.getD 0) found.diagnostics markers) ∧
          List.Forall₂ (Marker.Marks r.snapshot) found.fixes markers ∧
          ∀ q ∈ found.fixes, ∀ i : Int64, 0 ≤ i.toInt → i.toInt < q.suggestions.length →
            ∃ s, q.suggestions[i.toInt.toNat]? = some s ∧
              q.apply r.snapshot.contents i = .ok (q.splice r.snapshot.contents s)) ∧
    (∀ (s : Surroundings) (t : Toolbox) (args extra : List Bytes) (d : Document) (cursor : Nat)
        (j : Job), Checks s t args extra d cursor j → d.text.length < 2 ^ 63 →
      ∃ found, (j.done t).bridge.store.get? (Store.key d.path) = some found ∧
        Presents d.text (suggestionsAt found.fixes cursor) extra (run s t args).1) ∧
    ∀ k : Int64, Decimal.int64? (Decimal.ofInt64 k) = some k := by
  refine ⟨?_, ?_, Decimal.int64?_ofInt64⟩
  · intro b e r v p hreply hfocus hfits
    obtain ⟨happlied, hstored, hshown⟩ := Bridge.applyErrors_of_payload b hreply hfocus
    refine ⟨happlied, _, _, hstored, hshown, Bridge.forall₂_marks hfits _, ?_⟩
    intro q hq i hvalid hlt
    have hlt' : i.toInt.toNat < q.suggestions.length := by omega
    refine ⟨q.suggestions[i.toInt.toNat], List.getElem?_eq_getElem hlt', ?_⟩
    exact QuickFix.apply_of_within (Bridge.within_of_mem_fixes hfits hq) hfits
      (by simpa [Int64.le_iff_toInt_le] using hvalid) (List.getElem?_eq_getElem hlt')
  · intro s t args extra d cursor j hchecks hfits
    exact hchecks.presents hfits

def plainObject (members : List (Bytes × Json)) : Json :=
  .object [] (members.map fun m => (⟨[], m.1, []⟩, ⟨[], m.2, []⟩))

def plainArray (items : List Json) : Json :=
  .array [] (items.map fun v => ⟨[], v, []⟩)

def fixEntry (start stop : Bytes) (suggestions : List Bytes) : Json :=
  let pos (col : Bytes) : Json := plainObject [("line", .number "1"), ("col", .number col)]
  plainObject
    [("start", pos start), ("end", pos stop), ("suggs", plainArray (suggestions.map .string))]

/-- Two quick fixes that overlap. The first one has no suggestions. -/
def twoFixes : Json :=
  plainObject
    [("errors", plainArray []),
      ("quickfixes", plainArray [fixEntry "2" "3" [], fixEntry "0" "3" ["c", "d"]])]

def scantDesk : Surroundings where
  disk := { files := [([("a.ml" : Bytes)], "a b\n")] }
  environment := fun _ => []
  tempDir := "/tmp"

def fixingTool : Toolbox where
  launch := fun _ => .ready
  behaviour := fun _ =>
    { stdout := "\x7b\"class\":\"return\",\"value\":" ++ twoFixes.text ++ "\x7d\n" }

def scantPage : Document where
  id := 0
  path := "a.ml"
  revision := 0
  text := "a b\n"

/-- Both fixes have a marker, and the second of the two suggestions, which are both
of the second fix, is put in place of the whole line. -/
theorem quickFixes_of_overlap :
    (∃ p, Payload.Errors.ofJson (some twoFixes) = .ok p ∧
      Editor.looksAt { documents := [scantPage] } (.build 0 .errors (some scantPage)) = true ∧
      ∃ found markers,
        ((Bridge.new World.brittle false).applyErrors { documents := [scantPage] }
          (.build 0 .errors (some scantPage)) (some twoFixes)).1.store.get? "a.ml" = some found ∧
        List.Forall₂ (Marker.Marks ⟨scantPage.text⟩) found.fixes markers) ∧
    ∃ j, Checks scantDesk fixingTool ["quickfix", "a.ml", "1:3", "1"] ["1"] scantPage 3 j ∧
      (∃ found, (j.done fixingTool).bridge.store.get? "a.ml" = some found ∧
        Presents scantPage.text (suggestionsAt found.fixes 3) ["1"]
          (run scantDesk fixingTool ["quickfix", "a.ml", "1:3", "1"]).1) ∧
      (run scantDesk fixingTool ["quickfix", "a.ml", "1:3", "1"]).1 = { stdout := "d\n" } := by
  obtain ⟨happlies, hshows, -⟩ := quickFixes_marked_listed_applied
  constructor
  · have hreply : (Payload.Errors.ofJson (some twoFixes)).toOption.isSome = true := by
      decide +kernel
    cases hpayload : Payload.Errors.ofJson (some twoFixes) with
    | error err => simp [hpayload, Except.toOption] at hreply
    | ok p =>
        obtain ⟨-, found, markers, hstored, -, hmarks, -⟩ :=
          happlies (Bridge.new World.brittle false) { documents := [scantPage] }
            (.build 0 .errors (some scantPage)) (some twoFixes) p hpayload (by decide) (by decide)
        exact ⟨p, rfl, by decide, found, markers, hstored, hmarks⟩
  · have hrun : (match start scantDesk ["quickfix", "a.ml", "1:3", "1"] with
        | .ok j => decide (faultOf (j.done fixingTool).bridge 0 = none ∧
            (j.done fixingTool).report = { stdout := "d\n" })
        | .error _ => false) = true := by decide +kernel
    cases hstart : start scantDesk ["quickfix", "a.ml", "1:3", "1"] with
    | error err => simp [hstart] at hrun
    | ok j =>
        simp only [hstart, decide_eq_true_eq] at hrun
        have hchecks : Checks scantDesk fixingTool ["quickfix", "a.ml", "1:3", "1"] ["1"]
            scantPage 3 j :=
          ⟨⟨{}, "a.ml", "1:3", 1, 3, by decide +kernel⟩, hstart, hrun.1⟩
        refine ⟨j, hchecks, hshows _ _ _ _ _ _ _ hchecks (by decide), ?_⟩
        rw [run_of_start hstart, hrun.2]

end Console

end MerlinBridge
