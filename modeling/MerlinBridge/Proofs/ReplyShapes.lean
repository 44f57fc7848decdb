import MerlinBridge.Proofs.MalformedEntries

/-!
# The other shapes of a reply

The diagnostics of a reply are an array by itself or the member of an object, and an occurrence
stands by itself or in an array. Here a text is put into the brackets and braces of the other
shape: what it is read as is found there again, with nothing changed inside, so both shapes have
the same entries and are read as the same payload.
-/

namespace MerlinBridge

open Json

namespace Json

theorem parse?_text {v : Json} (h : Legal v) : parse? v.text = some v :=
  parse?_eq_some_iff.mpr ⟨h, [], [], nofun, nofun, by rw [List.nil_append, List.append_nil]⟩

/-- A text that is read as a value can stand in the place of a part. -/
theorem exists_spaced_of_parse? {s : Bytes} {v : Json} (h : parse? s = some v) :
    ∃ i : Spaced Json, i.value = v ∧ i.Good Legal ∧ i.written text = s := by
  obtain ⟨hlegal, before, after, hbefore, hafter, rfl⟩ := parse?_eq_some_iff.mp h
  exact ⟨⟨before, v, after⟩, rfl, ⟨hbefore, hlegal, hafter⟩, rfl⟩

/-- A text in brackets is read as the array of what it is read as. -/
theorem parse?_brackets {s : Bytes} {v : Json} (h : parse? s = some v) :
    ∃ i : Spaced Json, i.value = v ∧ parse? ("[" ++ s ++ "]") = some (.array [] [i]) := by
  obtain ⟨i, hvalue, hgood, rfl⟩ := exists_spaced_of_parse? h
  have hlegal : Legal (.array [] [i]) :=
    .array nofun (Or.inr rfl) (List.forall_mem_singleton.mpr ⟨hgood.before, hgood.after⟩)
      (List.forall_mem_singleton.mpr hgood.value)
  have htext : (array [] [i]).text = "[" ++ i.written text ++ "]" := by
    rw [text_array, listed_singleton]
    rfl
  exact ⟨i, hvalue, htext ▸ parse?_text hlegal⟩

def errorsMember (i : Spaced Json) : Spaced Bytes × Spaced Json :=
  (⟨[], "errors", []⟩, i)

def noQuickFixes : Spaced Bytes × Spaced Json :=
  (⟨[], "quickfixes", []⟩, ⟨[], .array [] [], []⟩)

theorem isMember_errorsMember {i : Spaced Json} (h : i.Good Legal) :
    IsMember Legal (errorsMember i) :=
  ⟨Spaced.good_of_plain (by decide), h⟩

theorem isMember_noQuickFixes : IsMember Legal noQuickFixes :=
  ⟨Spaced.good_of_plain (by decide), nofun, .array nofun (Or.inl rfl) nofun nofun, nofun⟩

theorem legal_of_isMember {members : List (Spaced Bytes × Spaced Json)}
    (h : ∀ m ∈ members, IsMember Legal m) : Legal (.object [] members) :=
  Legal.of_members fun m hm => ⟨(h m hm).key, (h m hm).value⟩

/-- A text in braces after the name `errors` is read as that member. -/
theorem parse?_errorsMember {s : Bytes} {v : Json} (h : parse? s = some v) :
    ∃ i : Spaced Json, i.value = v ∧
      parse? ("\x7b\"errors\":" ++ s ++ "\x7d") = some (.object [] [errorsMember i]) ∧
      parse? ("\x7b\"errors\":" ++ s ++ ",\"quickfixes\":[]\x7d") =
        some (.object [] [errorsMember i, noQuickFixes]) := by
  obtain ⟨i, hvalue, hgood, rfl⟩ := exists_spaced_of_parse? h
  have herrors := isMember_errorsMember hgood
  have halone : (object [] [errorsMember i]).text =
      "\x7b\"errors\":" ++ i.written text ++ "\x7d" := by
    rw [text_object, listed_singleton, memberText_eq]
    rfl
  have hboth : (object [] [errorsMember i, noQuickFixes]).text =
      "\x7b\"errors\":" ++ i.written text ++ ",\"quickfixes\":[]\x7d" := by
    rw [text_object, listed_cons_cons, listed_singleton, memberText_eq]
    simp only [List.nil_append, List.append_assoc]
    rfl
  refine ⟨i, hvalue, halone ▸ parse?_text (legal_of_isMember ?_),
    hboth ▸ parse?_text (legal_of_isMember ?_)⟩
  · exact List.forall_mem_singleton.mpr herrors
  · exact List.forall_mem_cons.mpr
      ⟨herrors, List.forall_mem_singleton.mpr isMember_noQuickFixes⟩

theorem isFirst_errorsMember (i : Spaced Json) (rest : List (Spaced Bytes × Spaced Json)) :
    IsFirst (object [] (errorsMember i :: rest)).members "errors" i.value := by
  have hname : StandsFor (Bytes.ofString "errors") "errors" := standsFor_self (by decide)
  exact isFirst_cons.mpr (Or.inl ⟨hname, rfl⟩)

theorem isFirst_quickFixes_iff {i : Spaced Json} {rest : List (Spaced Bytes × Spaced Json)}
    {w : Json} :
    IsFirst (object [] (errorsMember i :: rest)).members "quickfixes" w ↔
      IsFirst (object [] rest).members "quickfixes" w := by
  have hname : ¬ StandsFor (Bytes.ofString "errors") "quickfixes" :=
    fun h => absurd h.unescape_eq (by decide)
  refine isFirst_cons.trans ⟨?_, fun hrest => Or.inr ⟨hname, hrest⟩⟩
  rintro (⟨h, -⟩ | ⟨-, hrest⟩)
  · exact absurd h hname
  · exact hrest

theorem eq_of_isFirst_noQuickFixes {w : Json}
    (h : IsFirst (object [] [noQuickFixes]).members "quickfixes" w) : w = .array [] [] := by
  obtain ⟨-, rfl⟩ | ⟨hname, -⟩ := isFirst_cons.mp h
  · rfl
  · exact absurd (standsFor_self (by decide)) hname

end Json

namespace Payload

/-- The diagnostics of an object with no quick fixes are read as if they stood by themselves. -/
theorem Errors.ofJson_of_member {v : Json} (h : Legal v) {blank : Bytes}
    {items : List (Spaced Json)} (errors : IsFirst v.members "errors" (.array blank items))
    (fixes : ∀ w, IsFirst v.members "quickfixes" w → ∃ blank, w = .array blank []) :
    Errors.ofJson (some v) = Errors.ofJson (some (.array blank items)) := by
  obtain ⟨space, members, rfl⟩ := isObject_eq_true_iff.mp (isObject_of_isFirst errors)
  have herrors := (get?_eq_some_iff h).mpr errors
  cases hfixes : get? (.object space members) "quickfixes" with
  | none => simp only [Errors.ofJson, herrors, hfixes]
  | some w =>
      obtain ⟨blank', rfl⟩ := fixes w ((get?_eq_some_iff h).mp hfixes)
      simp only [Errors.ofJson, herrors, hfixes]
      rfl

theorem length_siftFrom {α : Type} (read : Nat → Json → Except Skip α) (i : Nat)
    (entries : List Json) :
    (siftFrom read i entries).1.length + (siftFrom read i entries).2.length = entries.length := by
  induction entries generalizing i with
  | nil => rfl
  | cons v rest ih =>
      have hrest := ih (i + 1)
      cases hread : read i v <;>
        (simp only [siftFrom, hread, List.length_cons]; omega)

/-- What comes of an array of diagnostics: each of them is kept or noted, and nothing else is. -/
structure ReadsDiagnostics (entries : List Json) (p : Errors) : Prop where
  sifted : errorShape.Sifted entries p.errors p.skipped
  complete : p.errors.length + p.skipped.length = entries.length
  quickFixes : p.quickFixes = []

theorem readsDiagnostics_of_array {blank : Bytes} {items : List (Spaced Json)}
    (h : Legal (.array blank items)) :
    ∃ p, Errors.ofJson (some (.array blank items)) = .ok p ∧
      ReadsDiagnostics (Json.array blank items).items p := by
  refine ⟨_, rfl, ?_, ?_, rfl⟩
  · exact errorShape_follows.sifted (fun v hv => h.of_mem_items hv) (by simp) (by simp [sift])
  · simp only [Errors.ofEntries, sift, siftFrom_nil, List.nil_append, List.append_nil]
    exact length_siftFrom _ _ _

/-- An object by itself is the only occurrence, or the only one that is left out. -/
inductive ReadsOccurrence (v : Json) : Occurrences → Prop where
  | kept {s : Span} (span : HasSpan v s) : ReadsOccurrence v ⟨[s], []⟩
  | skipped {cause : Pos.Error} (malformed : ¬ IsPlaced v) :
      ReadsOccurrence v ⟨[], [.occurrence 0 cause]⟩

theorem readsOccurrence_ofEntries {v : Json} (h : Legal v) :
    ReadsOccurrence v (Occurrences.ofEntries [v]) := by
  cases hspan : Span.ofJson v with
  | ok s =>
      have hentries : Occurrences.ofEntries [v] = ⟨[s], []⟩ := by
        simp [Occurrences.ofEntries, sift, siftFrom, Occurrences.read, hspan]
      rw [hentries]
      exact .kept ((Span.ofJson_eq_ok_iff h).mp hspan)
  | error cause =>
      have hentries : Occurrences.ofEntries [v] = ⟨[], [.occurrence 0 cause]⟩ := by
        simp [Occurrences.ofEntries, sift, siftFrom, Occurrences.read, hspan]
      rw [hentries]
      refine .skipped fun hplaced => ?_
      obtain ⟨s, hs⟩ := isPlaced_iff.mp hplaced
      rw [(Span.ofJson_eq_ok_iff h).mpr hs] at hspan
      cases hspan

/-- An array of diagnostics is read alike by itself, as the member of an object, and beside an
empty array of quick fixes, and a single occurrence is read alike with and without brackets. -/
theorem reply_shapes_agree :
    (∀ (s : Bytes) (v : Json), parse? s = some v → v.isArray = true →
      ∃ alone beside p,
        parse? ("\x7b\"errors\":" ++ s ++ "\x7d") = some alone ∧
        parse? ("\x7b\"errors\":" ++ s ++ ",\"quickfixes\":[]\x7d") = some beside ∧
        Errors.ofJson (some v) = .ok p ∧ Errors.ofJson (some alone) = .ok p ∧
        Errors.ofJson (some beside) = .ok p ∧ ReadsDiagnostics v.items p) ∧
    ∀ (s : Bytes) (v : Json), parse? s = some v → v.isObject = true →
      ∃ bracketed p, parse? ("[" ++ s ++ "]") = some bracketed ∧
        Occurrences.ofJson (some v) = .ok p ∧ Occurrences.ofJson (some bracketed) = .ok p ∧
        ReadsOccurrence v p := by
  constructor
  · intro s v hread harray
    obtain ⟨blank, items, rfl⟩ := isArray_eq_true_iff.mp harray
    obtain ⟨i, hvalue, halone, hbeside⟩ := parse?_errorsMember hread
    obtain ⟨p, hp, hreads⟩ := readsDiagnostics_of_array (parse?_eq_some_iff.mp hread).1
    have herrors := isFirst_errorsMember i
    rw [hvalue] at herrors
    refine ⟨_, _, p, halone, hbeside, hp, ?_, ?_, hreads⟩
    · rw [← hp]
      refine Errors.ofJson_of_member (parse?_eq_some_iff.mp halone).1 (herrors _) fun w hw => ?_
      obtain ⟨before, key, after, hnil, -⟩ := isFirst_quickFixes_iff.mp hw
      simp [members] at hnil
    · rw [← hp]
      refine Errors.ofJson_of_member (parse?_eq_some_iff.mp hbeside).1 (herrors _) fun w hw => ?_
      exact ⟨[], eq_of_isFirst_noQuickFixes (isFirst_quickFixes_iff.mp hw)⟩
  · intro s v hread hobject
    obtain ⟨i, rfl, hbracketed⟩ := parse?_brackets hread
    have hmany : HoldsOccurrences (.array [] [i]) [i.value] := .many
    exact ⟨_, _, hbracketed, (HoldsOccurrences.single hobject).ofJson_eq, hmany.ofJson_eq,
      readsOccurrence_ofEntries (parse?_eq_some_iff.mp hread).1⟩

open Console (plainObject plainArray fixEntry)

def mixedArray : Json :=
  plainArray [fixEntry "0" "1" [], .null]

theorem legal_mixedArray : Legal mixedArray := by
  have hone : IsWhole "1" := isWhole_of_all (by decide) (by decide)
  exact legal_plainArray
    (List.forall_mem_cons.mpr ⟨legal_fixEntry .zero hone, List.forall_mem_singleton.mpr .null⟩)

/-- The null is noted in each shape, and so is an occurrence that has no place. -/
theorem reply_shapes_of_mixedArray :
    (∃ alone p,
      parse? ("\x7b\"errors\":" ++ mixedArray.text ++ "\x7d") = some alone ∧
      Errors.ofJson (some mixedArray) = .ok p ∧ Errors.ofJson (some alone) = .ok p ∧
      p.errors.length = 1 ∧ p.skipped.map Skip.errorIndex? = [some 1]) ∧
    ∃ bracketed cause, parse? ("[" ++ (plainObject []).text ++ "]") = some bracketed ∧
      Occurrences.ofJson (some bracketed) = .ok ⟨[], [.occurrence 0 cause]⟩ := by
  obtain ⟨herrors, hoccurrences⟩ := reply_shapes_agree
  constructor
  · obtain ⟨alone, -, p, halone, -, hp, hsame, -⟩ :=
      herrors _ _ (parse?_text legal_mixedArray) rfl
    have hresults : (Errors.ofJson (some mixedArray)).toOption.map
        (fun p => (p.errors.length, p.skipped.map Skip.errorIndex?)) = some (1, [some 1]) := by
      decide +kernel
    rw [hp] at hresults
    obtain ⟨hlength, hindices⟩ := Prod.mk.inj (Option.some.inj hresults)
    exact ⟨alone, p, halone, hp, hsame, hlength, hindices⟩
  · have hlegal : Legal (plainObject []) := legal_plainObject rfl (by simp)
    obtain ⟨bracketed, p, hbracketed, -, hp, hreads⟩ :=
      hoccurrences _ _ (parse?_text hlegal) rfl
    cases hreads with
    | kept span =>
        obtain ⟨⟨w, hw, -⟩, -⟩ := isPlaced_iff.mpr ⟨_, span⟩
        obtain ⟨before, key, after, hmembers, -⟩ := hw
        simp [plainObject, members] at hmembers
    | skipped malformed => exact ⟨bracketed, _, hbracketed, hp⟩

end Payload

end MerlinBridge
