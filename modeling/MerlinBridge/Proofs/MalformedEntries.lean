import MerlinBridge.Proofs.EntryShapes

/-!
# Malformed entries are left out one by one

An array of entries is the value of a reply itself or stands in one of its members. Here it is said
where the diagnostics, quick fixes, candidates and occurrences of a value stand, and shown that a
value is accepted if it holds such an array, that the entries are sifted by their shape, and that
malformed entries change nothing about what is kept. The diagnostics do not depend on what stands
for the quick fixes.
-/

namespace MerlinBridge

open Json

namespace Payload

/-! ## Where the entries stand -/

/-- The diagnostics that a value holds: it is the array of them, or an object whose first `errors`
is such an array. -/
inductive HoldsErrors : Json → List Json → Prop where
  | bare {blank : Bytes} {items : List (Spaced Json)} :
      HoldsErrors (.array blank items) (items.map Spaced.value)
  | member {v : Json} {blank : Bytes} {items : List (Spaced Json)}
      (first : IsFirst v.members "errors" (.array blank items)) :
      HoldsErrors v (items.map Spaced.value)

/-- The quick fixes that a value with diagnostics holds. There are none in an array, nor in an
object whose first `quickfixes` is missing or is no array. -/
inductive HoldsQuickFixes : Json → List Json → Prop where
  | bare {blank : Bytes} {items : List (Spaced Json)} : HoldsQuickFixes (.array blank items) []
  | member {v : Json} {errors : List Json} {blank : Bytes} {items : List (Spaced Json)}
      (errors : HoldsErrors v errors)
      (first : IsFirst v.members "quickfixes" (.array blank items)) :
      HoldsQuickFixes v (items.map Spaced.value)
  | missing {v : Json} {errors : List Json} (shape : v.isObject = true)
      (errors : HoldsErrors v errors)
      (first : ∀ w, IsFirst v.members "quickfixes" w → w.isArray = false) : HoldsQuickFixes v []

/-- The candidates that a value holds: it is an object whose first `entries` is an array of them. -/
inductive HoldsCandidates : Json → List Json → Prop where
  | member {v : Json} {blank : Bytes} {items : List (Spaced Json)}
      (first : IsFirst v.members "entries" (.array blank items)) :
      HoldsCandidates v (items.map Spaced.value)

/-- The occurrences that a value holds: it is the array of them, or an object that is the only
one. -/
inductive HoldsOccurrences : Json → List Json → Prop where
  | many {blank : Bytes} {items : List (Spaced Json)} :
      HoldsOccurrences (.array blank items) (items.map Spaced.value)
  | single {v : Json} (shape : v.isObject = true) : HoldsOccurrences v [v]

theorem HoldsErrors.exists_quickFixes {v : Json} (h : Legal v) {es : List Json}
    (hes : HoldsErrors v es) : ∃ qs, HoldsQuickFixes v qs := by
  cases hes with
  | bare => exact ⟨[], .bare⟩
  | member first =>
      cases hget : v.get? "quickfixes" with
      | none =>
          have hnone := (get?_eq_none_iff h).mp hget
          exact ⟨[], .missing (isObject_of_isFirst first) (.member first)
            fun w hw => absurd hw (hnone w)⟩
      | some w =>
          have hfirst := (get?_eq_some_iff h).mp hget
          cases hw : w.isArray with
          | true =>
              obtain ⟨blank, items, rfl⟩ := isArray_eq_true_iff.mp hw
              exact ⟨_, .member (.member first) hfirst⟩
          | false =>
              refine ⟨[], .missing (isObject_of_isFirst first) (.member first) ?_⟩
              intro u hu
              rw [(get?_eq_some_iff h).mpr hu] at hget
              rwa [Option.some.inj hget]

/-- A value that holds diagnostics is read as their payload. The only note beside those about
entries is that the quick fixes are no array. -/
theorem Errors.ofJson_of_holds {v : Json} (h : Legal v) {es qs : List Json}
    (hes : HoldsErrors v es) (hqs : HoldsQuickFixes v qs) :
    ∃ notes, Errors.ofJson (some v) = .ok (ofEntries es qs notes) ∧
      ∀ n ∈ notes, ∃ text, n = .quickFixes text := by
  cases hes with
  | bare =>
      cases hqs with
      | bare => exact ⟨[], rfl, nofun⟩
      | member _ first => exact absurd (isObject_of_isFirst first) (by simp [isObject])
      | missing shape _ _ => exact absurd shape (by simp [isObject])
  | member first =>
      obtain ⟨blank, members, rfl⟩ := isObject_eq_true_iff.mp (isObject_of_isFirst first)
      have herrors := (get?_eq_some_iff h).mpr first
      cases hqs with
      | member _ first' =>
          have hfixes := (get?_eq_some_iff h).mpr first'
          exact ⟨[], by simp only [Errors.ofJson, herrors, hfixes, items], nofun⟩
      | missing _ _ first' =>
          cases hfixes : get? (.object blank members) "quickfixes" with
          | none => exact ⟨[], by simp only [Errors.ofJson, herrors, hfixes, items], nofun⟩
          | some w =>
              have hw := first' w ((get?_eq_some_iff h).mp hfixes)
              refine ⟨[.quickFixes w.text], ?_, by simp⟩
              simp only [Errors.ofJson, herrors, hfixes, items]
              cases w with
              | array _ _ => cases hw
              | _ => rfl

theorem Errors.holds_of_ofJson {v : Json} (h : Legal v) {p : Errors}
    (hp : Errors.ofJson (some v) = .ok p) : ∃ es, HoldsErrors v es := by
  cases v with
  | array blank items => exact ⟨_, .bare⟩
  | object blank members =>
      simp only [Errors.ofJson] at hp
      split at hp
      · rename_i hget
        exact ⟨_, .member ((get?_eq_some_iff h).mp hget)⟩
      · cases hp
  | _ => cases hp

theorem HoldsErrors.legal {v : Json} (h : Legal v) {es : List Json} (hes : HoldsErrors v es) :
    ∀ e ∈ es, Legal e := by
  cases hes with
  | bare => exact fun e he => h.of_mem_items he
  | member first => exact fun e he => (h.of_isFirst first).of_mem_items he

theorem HoldsQuickFixes.legal {v : Json} (h : Legal v) {qs : List Json}
    (hqs : HoldsQuickFixes v qs) : ∀ q ∈ qs, Legal q := by
  cases hqs with
  | bare => exact nofun
  | member _ first => exact fun q hq => (h.of_isFirst first).of_mem_items hq
  | missing _ _ _ => exact nofun

theorem HoldsQuickFixes.exists_errors {v : Json} {qs : List Json} (h : HoldsQuickFixes v qs) :
    ∃ es, HoldsErrors v es := by
  cases h with
  | bare => exact ⟨_, .bare⟩
  | member errors _ => exact ⟨_, errors⟩
  | missing _ errors _ => exact ⟨_, errors⟩

/-! ## Results -/

def resultsOf {ρ α : Type} (read : Option Json → Except Error ρ) (kept : ρ → List α)
    (skipped : ρ → List Skip) (v : Json) : Option (List α × List Skip) :=
  (read (some v)).toOption.map fun p => (kept p, skipped p)

section ResultsOf

variable {ρ α : Type} {read : Option Json → Except Error ρ} {kept : ρ → List α}
  {skipped : ρ → List Skip} {v : Json}

theorem resultsOf_eq_some_iff {r : List α × List Skip} :
    resultsOf read kept skipped v = some r ↔
      ∃ p, read (some v) = .ok p ∧ r = (kept p, skipped p) := by
  unfold resultsOf
  cases read (some v) <;> simp [Except.toOption, eq_comm]

theorem exists_resultsOf_iff : (∃ r, resultsOf read kept skipped v = some r) ↔
    ∃ p, read (some v) = .ok p := by
  simp only [resultsOf_eq_some_iff]
  constructor
  · rintro ⟨r, p, hp, -⟩
    exact ⟨p, hp⟩
  · rintro ⟨p, hp⟩
    exact ⟨_, p, hp, rfl⟩

end ResultsOf

theorem exists_read_of_mem_siftFrom {α : Type} {read : Nat → Json → Except Skip α} {n : Skip}
    {entries : List Json} {i : Nat} (h : n ∈ (siftFrom read i entries).2) :
    ∃ j v, read j v = .error n := by
  induction entries generalizing i with
  | nil => cases h
  | cons v rest ih =>
      cases hread : read i v with
      | ok a =>
          simp only [siftFrom, hread] at h
          exact ih h
      | error m =>
          simp only [siftFrom, hread] at h
          rcases List.mem_cons.mp h with rfl | hrest
          · exact ⟨i, v, hread⟩
          · exact ih hrest

theorem errorIndex?_of_mem_quickFixes {n : Skip} {qs : List Json}
    (h : n ∈ (sift QuickFixEntry.read qs).2) : n.errorIndex? = none := by
  obtain ⟨i, v, hread⟩ := exists_read_of_mem_siftFrom h
  have hindex := quickFixShape_follows.index_of_error hread
  cases n with
  | error _ _ => cases hindex
  | _ => rfl

theorem quickFixIndex?_of_mem_errors {n : Skip} {es : List Json}
    (h : n ∈ (sift ErrorEntry.read es).2) : n.quickFixIndex? = none := by
  obtain ⟨i, v, hread⟩ := exists_read_of_mem_siftFrom h
  have hindex := errorShape_follows.index_of_error hread
  cases n with
  | error _ _ => rfl
  | _ => cases hindex

theorem Errors.accepted_iff {v : Json} (h : Legal v) :
    (∃ p, Errors.ofJson (some v) = .ok p) ↔ ∃ es, HoldsErrors v es := by
  constructor
  · rintro ⟨p, hp⟩
    exact holds_of_ofJson h hp
  · rintro ⟨es, hes⟩
    obtain ⟨qs, hqs⟩ := hes.exists_quickFixes h
    obtain ⟨notes, hp, -⟩ := ofJson_of_holds h hes hqs
    exact ⟨_, hp⟩

theorem errorShape_isolates :
    errorShape.Isolates HoldsErrors (resultsOf Errors.ofJson Errors.errors Errors.skipped) := by
  apply errorShape_follows.isolates
  · intro v hv
    exact exists_resultsOf_iff.trans (Errors.accepted_iff hv)
  · exact fun hv hes => hes.legal hv
  · intro v es r hv hes hr
    obtain ⟨p, hp, rfl⟩ := resultsOf_eq_some_iff.mp hr
    obtain ⟨qs, hqs⟩ := hes.exists_quickFixes hv
    obtain ⟨notes, hp', hnotes⟩ := Errors.ofJson_of_holds hv hes hqs
    obtain rfl := Except.ok.inj (hp.symm.trans hp')
    refine ⟨notes, (sift QuickFixEntry.read qs).2, ?_, fun n => errorIndex?_of_mem_quickFixes, rfl⟩
    intro n hn
    obtain ⟨text, rfl⟩ := hnotes n hn
    rfl

theorem quickFixShape_isolates :
    quickFixShape.Isolates HoldsQuickFixes
      (resultsOf Errors.ofJson Errors.quickFixes Errors.skipped) := by
  apply quickFixShape_follows.isolates
  · intro v hv
    rw [exists_resultsOf_iff, Errors.accepted_iff hv]
    constructor
    · rintro ⟨es, hes⟩
      exact hes.exists_quickFixes hv
    · rintro ⟨qs, hqs⟩
      exact hqs.exists_errors
  · exact fun hv hqs => hqs.legal hv
  · intro v qs r hv hqs hr
    obtain ⟨p, hp, rfl⟩ := resultsOf_eq_some_iff.mp hr
    obtain ⟨es, hes⟩ := hqs.exists_errors
    obtain ⟨notes, hp', hnotes⟩ := Errors.ofJson_of_holds hv hes hqs
    obtain rfl := Except.ok.inj (hp.symm.trans hp')
    refine ⟨notes ++ (sift ErrorEntry.read es).2, [], ?_, nofun, by simp [Errors.ofEntries]⟩
    intro n hn
    rcases List.mem_append.mp hn with hnote | herror
    · obtain ⟨text, rfl⟩ := hnotes n hnote
      rfl
    · exact quickFixIndex?_of_mem_errors herror

/-- A value that holds candidates is an object that is read by them. -/
theorem HoldsCandidates.ofJson_eq {v : Json} (h : Legal v) {es : List Json}
    (hes : HoldsCandidates v es) :
    Completions.ofJson (some v) = .ok ⟨(sift Candidate.read es).1, (sift Candidate.read es).2⟩ := by
  cases hes with
  | member first =>
      obtain ⟨blank, members, rfl⟩ := isObject_eq_true_iff.mp (isObject_of_isFirst first)
      simp only [Completions.ofJson, (get?_eq_some_iff h).mpr first, items]

theorem candidateShape_isolates :
    candidateShape.Isolates HoldsCandidates
      (resultsOf Completions.ofJson Completions.entries Completions.skipped) := by
  apply candidateShape_follows.isolates
  · intro v hv
    rw [exists_resultsOf_iff]
    constructor
    · rintro ⟨p, hp⟩
      cases v with
      | object blank members =>
          simp only [Completions.ofJson] at hp
          split at hp
          · rename_i hget
            exact ⟨_, .member ((get?_eq_some_iff hv).mp hget)⟩
          · cases hp
      | _ => cases hp
    · rintro ⟨es, hes⟩
      exact ⟨_, hes.ofJson_eq hv⟩
  · rintro v es hv ⟨first⟩
    exact fun e he => (hv.of_isFirst first).of_mem_items he
  · intro v es r hv hes hr
    obtain ⟨p, hp, rfl⟩ := resultsOf_eq_some_iff.mp hr
    obtain rfl := Except.ok.inj (hp.symm.trans (hes.ofJson_eq hv))
    exact ⟨[], [], nofun, nofun, by simp⟩

theorem HoldsOccurrences.ofJson_eq {v : Json} {es : List Json} (hes : HoldsOccurrences v es) :
    Occurrences.ofJson (some v) = .ok (Occurrences.ofEntries es) := by
  cases hes with
  | many => rfl
  | single shape =>
      obtain ⟨blank, members, rfl⟩ := isObject_eq_true_iff.mp shape
      rfl

theorem HoldsOccurrences.legal {v : Json} (h : Legal v) {es : List Json}
    (hes : HoldsOccurrences v es) : ∀ e ∈ es, Legal e := by
  cases hes with
  | many => exact fun e he => h.of_mem_items he
  | single _ => exact List.forall_mem_singleton.mpr h

theorem occurrenceShape_isolates :
    occurrenceShape.Isolates HoldsOccurrences
      (resultsOf Occurrences.ofJson Occurrences.spans Occurrences.skipped) := by
  apply occurrenceShape_follows.isolates
  · intro v hv
    rw [exists_resultsOf_iff]
    constructor
    · rintro ⟨p, hp⟩
      cases v with
      | array _ _ => exact ⟨_, .many⟩
      | object _ _ => exact ⟨_, .single rfl⟩
      | _ => cases hp
    · rintro ⟨es, hes⟩
      exact ⟨_, hes.ofJson_eq⟩
  · exact fun hv hes => hes.legal hv
  · intro v es r hv hes hr
    obtain ⟨p, hp, rfl⟩ := resultsOf_eq_some_iff.mp hr
    obtain rfl := Except.ok.inj (hp.symm.trans hes.ofJson_eq)
    exact ⟨[], [], nofun, nofun, by simp [Occurrences.ofEntries]⟩

theorem holdsErrors_iff_of_object {v : Json} (h : v.isObject = true) {es : List Json} :
    HoldsErrors v es ↔
      ∃ blank items, IsFirst v.members "errors" (.array blank items) ∧
        es = items.map Spaced.value := by
  constructor
  · intro hes
    cases hes with
    | bare => cases h
    | member first => exact ⟨_, _, first, rfl⟩
  · rintro ⟨blank, items, first, rfl⟩
    exact .member first

theorem errors_eq_of_isFirst_iff {v w : Json} (hv : Legal v) (hw : Legal w)
    (hobject : v.isObject = true) (hobject' : w.isObject = true)
    (h : ∀ u, IsFirst v.members "errors" u ↔ IsFirst w.members "errors" u) :
    (Errors.ofJson (some v)).toOption.map Errors.errors =
      (Errors.ofJson (some w)).toOption.map Errors.errors := by
  have hholds : ∀ es, HoldsErrors v es ↔ HoldsErrors w es := by
    intro es
    simp only [holdsErrors_iff_of_object hobject, holdsErrors_iff_of_object hobject', h]
  cases hp : Errors.ofJson (some v) with
  | ok p =>
      obtain ⟨es, hes⟩ := Errors.holds_of_ofJson hv hp
      obtain ⟨q, hq⟩ := (Errors.accepted_iff hw).mpr ⟨es, (hholds es).mp hes⟩
      have hsame := errorShape_isolates.unpadded hv hw hes ((hholds es).mp hes) (.refl es)
        (resultsOf_eq_some_iff.mpr ⟨p, hp, rfl⟩) (resultsOf_eq_some_iff.mpr ⟨q, hq, rfl⟩)
      rw [hq]
      exact congrArg some hsame
  | error err =>
      cases hq : Errors.ofJson (some w) with
      | error err' => rfl
      | ok q =>
          obtain ⟨es, hes⟩ := Errors.holds_of_ofJson hw hq
          obtain ⟨p, hp'⟩ := (Errors.accepted_iff hv).mpr ⟨es, (hholds es).mpr hes⟩
          rw [hp] at hp'
          cases hp'

/-- Malformed entries are left out each by itself: of the arrays of diagnostics, quick fixes,
candidates and occurrences what is kept is read from the well-formed entries in order, every other
entry is noted with its index, and putting malformed entries in or taking them out changes nothing.
What stands for the quick fixes has no part in the diagnostics. -/
theorem malformed_entries_isolated :
    errorShape.Isolates HoldsErrors (resultsOf Errors.ofJson Errors.errors Errors.skipped) ∧
    quickFixShape.Isolates HoldsQuickFixes
      (resultsOf Errors.ofJson Errors.quickFixes Errors.skipped) ∧
    candidateShape.Isolates HoldsCandidates
      (resultsOf Completions.ofJson Completions.entries Completions.skipped) ∧
    occurrenceShape.Isolates HoldsOccurrences
      (resultsOf Occurrences.ofJson Occurrences.spans Occurrences.skipped) ∧
    ∀ v w : Json, Legal v → Legal w → v.isObject = true → w.isObject = true →
      (∀ u, IsFirst v.members "errors" u ↔ IsFirst w.members "errors" u) →
      (Errors.ofJson (some v)).toOption.map Errors.errors =
        (Errors.ofJson (some w)).toOption.map Errors.errors :=
  ⟨errorShape_isolates, quickFixShape_isolates, candidateShape_isolates, occurrenceShape_isolates,
    fun _ _ => errors_eq_of_isFirst_iff⟩

open Console (plainObject plainArray fixEntry)

def paddedReply : Json :=
  plainObject
    [("errors", plainArray [fixEntry "0" "1" [], .null, fixEntry "0" "1" []]),
      ("quickfixes", .string "none")]

def plainReply : Json :=
  plainArray [fixEntry "0" "1" [], fixEntry "0" "1" []]

/-- The null in the middle is noted with its index, and the diagnostics are those of the array
without it. -/
theorem results_of_paddedReply :
    ∃ kept skipped skipped',
      resultsOf Errors.ofJson Errors.errors Errors.skipped paddedReply = some (kept, skipped) ∧
      resultsOf Errors.ofJson Errors.errors Errors.skipped plainReply = some (kept, skipped') ∧
      kept.length = 2 ∧ skipped.filterMap Skip.errorIndex? = [1] := by
  have hzero : IsWhole "0" := .zero
  have hone : IsWhole "1" := isWhole_of_all (by decide) (by decide)
  have hentry := legal_fixEntry hzero hone
  have hpadded : Legal paddedReply := by
    refine legal_plainObject (by decide) (List.forall_mem_cons.mpr ⟨legal_plainArray ?_,
      List.forall_mem_singleton.mpr (.string (.of_plain (by decide)))⟩)
    exact List.forall_mem_cons.mpr ⟨hentry, List.forall_mem_cons.mpr ⟨.null,
      List.forall_mem_singleton.mpr hentry⟩⟩
  have hplain : Legal plainReply :=
    legal_plainArray (List.forall_mem_cons.mpr ⟨hentry, List.forall_mem_singleton.mpr hentry⟩)
  have hnull : ¬ IsPlaced .null := by
    rintro ⟨⟨p, hp, -⟩, -⟩
    exact absurd (isObject_of_isFirst hp) (by decide)
  have hholds : HoldsErrors paddedReply [fixEntry "0" "1" [], .null, fixEntry "0" "1" []] :=
    .member (isFirst_plainObject (by decide))
  have hpads : errorShape.Pads [fixEntry "0" "1" [], fixEntry "0" "1" []]
      [fixEntry "0" "1" [], .null, fixEntry "0" "1" []] :=
    .insert (l := [fixEntry "0" "1" []]) (r := [fixEntry "0" "1" []]) hnull
  obtain ⟨hisolates, -⟩ := malformed_entries_isolated
  obtain ⟨⟨kept, skipped⟩, hr⟩ := (hisolates.accepted_iff hpadded).mpr ⟨_, hholds⟩
  obtain ⟨⟨kept', skipped'⟩, hr'⟩ := (hisolates.accepted_iff hplain).mpr ⟨_, .bare⟩
  have hsame : kept' = kept :=
    hisolates.unpadded hplain hpadded .bare hholds (.rel _ _ hpads) hr' hr
  have hskipped : (resultsOf Errors.ofJson Errors.errors Errors.skipped paddedReply).map
      (fun r => (r.1.length, r.2.filterMap Skip.errorIndex?)) = some (2, [1]) := by decide +kernel
  rw [hr] at hskipped
  obtain ⟨hlength, hindices⟩ := Prod.mk.inj (Option.some.inj hskipped)
  exact ⟨kept, skipped, skipped', hr, hsame ▸ hr', hlength, hindices⟩

end Payload

end MerlinBridge
