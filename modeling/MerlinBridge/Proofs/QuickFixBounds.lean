import MerlinBridge.Proofs.TextSpans

/-!
# Ranges that a quick fix refuses

A quick fix is meant for spans of a text. The check on its range looks at the word
where it starts and at the word where it stops, so there are two kinds of range that
get past it without being spans (`Range.Slips`): those of negative length, which stop
before they start, and those whose end is 2^63 or more, for which the stop wraps
around. `applies_to_spans_iff` says that these are all. Of a range of the first kind
that starts and stops in the text, what lies between is written twice; for all others
the text is cut where it has no bytes.
-/

namespace MerlinBridge

namespace Range

def finish (r : Range) : Int :=
  r.pos.toInt + r.length.toInt

theorem toInt_stop_of_lt {r : Range} (start : 0 ≤ r.pos.toInt) (fits : r.finish < 2 ^ 63) :
    r.stop.toInt = r.finish := by
  have hlow := r.length.le_toInt
  unfold finish at fits ⊢
  rw [Range.stop, Int64.toInt_add]
  exact Int.bmod_eq_of_le (by omega) (by omega)

/-- An end that does not fit a word is taken for a negative one. -/
theorem toInt_stop_of_le {r : Range} (beyond : 2 ^ 63 ≤ r.finish) : r.stop.toInt < 0 := by
  have hpos := r.pos.toInt_lt
  have hlength := r.length.toInt_lt
  unfold finish at beyond
  have hwrap : r.stop.toInt = r.pos.toInt + r.length.toInt - 2 ^ 64 := by
    rw [Range.stop, Int64.toInt_add, ← Int.sub_bmod_right]
    exact Int.bmod_eq_of_le (by omega) (by omega)
  omega

/-- A range that the check lets through although it may be no span of a text of length `n`: it
does not start before the text, and either it has a negative length and stops in the text or before
it, or the number where it stops does not fit a word. -/
def Slips (r : Range) (n : Nat) : Prop :=
  0 ≤ r.pos.toInt ∧ (r.length.toInt < 0 ∧ r.finish ≤ n ∨ 2 ^ 63 ≤ r.finish)

/-- A range of a text of length `n` that stops before it starts. -/
def Backward (r : Range) (n : Nat) : Prop :=
  r.length.toInt < 0 ∧ r.pos.toInt ≤ n ∧ 0 ≤ r.finish

end Range

namespace QuickFix

variable {q : QuickFix} {contents s : Bytes} {index : Int64}

def Offers (q : QuickFix) (index : Int64) (s : Bytes) : Prop :=
  0 ≤ index.toInt ∧ q.suggestions[index.toInt.toNat]? = some s

theorem suggestion_of_offers (h : q.Offers index s) : q.suggestion index = .ok s :=
  suggestion_of_getElem? (Int64.le_iff_toInt_le.mpr h.1) h.2

theorem suggestion_of_not_offers (h : ∀ s, ¬ q.Offers index s) :
    q.suggestion index = .error (.noSuggestion q.suggestions.length index) := by
  unfold suggestion
  split
  · rfl
  · rename_i hindex
    have hnonneg : 0 ≤ index.toInt := Int64.le_iff_toInt_le.mp (Int64.not_lt.mp hindex)
    split
    · rename_i s hs
      exact absurd ⟨hnonneg, hs⟩ (h s)
    · rfl

theorem apply_of_not_offers (h : ∀ s, ¬ q.Offers index s) (contents : Bytes) :
    q.apply contents index = .error (.noSuggestion q.suggestions.length index) := by
  simp only [apply, suggestion_of_not_offers h, bind, Except.bind]

/-- The checks on the range of a fix, in order, once there is a suggestion. -/
theorem apply_of_offers (h : q.Offers index s) (contents : Bytes) :
    q.apply contents index =
      if q.range.pos.toInt < 0 ∨ (contents.length : Int) < q.range.stop.toInt then
        .error (.outside q.range contents.length)
      else if (contents.length : Int) < q.range.pos.toInt ∨ q.range.stop.toInt < 0 then
        .error (.noSlice q.range contents.length)
      else
        .ok (contents.take q.range.pos.toInt.toNat ++ s ++
          contents.drop q.range.stop.toInt.toNat) := by
  simp only [apply, suggestion_of_offers h, bind, Except.bind, Int64.lt_iff_toInt_lt,
    Int64.toInt_zero]

/-- The range starts and stops in the text, in this order or the other. -/
theorem apply_of_inside (h : q.Offers index s) (start : 0 ≤ q.range.pos.toInt)
    (inside : q.range.pos.toInt ≤ contents.length) (stop : 0 ≤ q.range.finish)
    (before : q.range.finish ≤ contents.length) (fits : q.range.finish < 2 ^ 63) :
    q.apply contents index = .ok (q.splice contents s) := by
  have hstop := Range.toInt_stop_of_lt start fits
  rw [apply_of_offers h, hstop, if_neg (by omega), if_neg (by omega)]
  rfl

theorem length_splice (start : 0 ≤ q.range.pos.toInt)
    (inside : q.range.pos.toInt ≤ contents.length) (stop : 0 ≤ q.range.finish)
    (before : q.range.finish ≤ contents.length) (s : Bytes) :
    ((q.splice contents s).length : Int) =
      contents.length - q.range.length.toInt + s.length := by
  unfold Range.finish at stop before
  simp only [splice, List.length_append, List.length_take, List.length_drop]
  omega

/-- A range that is no span is refused, unless it slips through. -/
theorem apply_of_not_within (h : q.Offers index s) (stray : ¬ q.range.Within contents.length)
    (held : ¬ q.range.Slips contents.length) :
    q.apply contents index = .error (.outside q.range contents.length) := by
  rw [apply_of_offers h]
  by_cases hstart : q.range.pos.toInt < 0
  · rw [if_pos (Or.inl hstart)]
  · have hheld : ¬ (q.range.length.toInt < 0 ∧ q.range.finish ≤ contents.length ∨
        2 ^ 63 ≤ q.range.finish) := fun hslips => held ⟨by omega, hslips⟩
    have hstop := Range.toInt_stop_of_lt (r := q.range) (by omega) (by omega)
    have hfar : (contents.length : Int) < q.range.finish := by
      by_contra hnear
      refine stray ⟨by omega, by omega, ?_⟩
      change q.range.finish ≤ contents.length
      omega
    rw [hstop, if_pos (Or.inr hfar)]

theorem apply_of_slips (h : q.Offers index s) (slips : q.range.Slips contents.length)
    (torn : ¬ q.range.Backward contents.length) :
    q.apply contents index = .error (.noSlice q.range contents.length) := by
  obtain ⟨hstart, hslips⟩ := slips
  rw [apply_of_offers h]
  rcases hslips with ⟨hneg, hbefore⟩ | hbeyond
  · have hfits : q.range.finish < 2 ^ 63 := by
      have := q.range.pos.toInt_lt
      unfold Range.finish
      omega
    have hstop := Range.toInt_stop_of_lt hstart hfits
    have houtside : (contents.length : Int) < q.range.pos.toInt ∨ q.range.finish < 0 := by
      by_contra hinside
      exact torn ⟨hneg, by omega, by omega⟩
    rw [hstop, if_neg (by omega), if_pos houtside]
  · have hstop := Range.toInt_stop_of_le hbeyond
    rw [if_neg (by omega), if_pos (Or.inr hstop)]

/-- An error that is returned before the text is cut. -/
def Error.IsRefusal : Error → Prop
  | noSuggestion .. => True
  | outside .. => True
  | noSlice .. => False

/-- The fix is applied to spans only: a suggestion stands in place of the range if that is a span
of the text, and in every other case the fix is refused. -/
structure AppliesToSpans (q : QuickFix) (contents : Bytes) (index : Int64) : Prop where
  applied : ∀ s, q.Offers index s → q.range.Within contents.length →
    q.apply contents index = .ok (q.splice contents s) ∧
      ((q.splice contents s).length : Int) =
        contents.length - q.range.length.toInt + s.length
  refused : ¬ ((∃ s, q.Offers index s) ∧ q.range.Within contents.length) →
    ∃ e, q.apply contents index = .error e ∧ e.IsRefusal

theorem appliesToSpans_of_not_slips
    (h : ¬ ((∃ s, q.Offers index s) ∧ q.range.Slips contents.length)) :
    q.AppliesToSpans contents index := by
  constructor
  · intro s hs hwithin
    have hheld : ¬ q.range.Slips contents.length := fun hslips => h ⟨⟨s, hs⟩, hslips⟩
    obtain ⟨hpos, hlength, hstop⟩ := hwithin
    change q.range.finish ≤ contents.length at hstop
    have hfits : q.range.finish < 2 ^ 63 := by
      by_contra hbeyond
      exact hheld ⟨hpos, Or.inr (by omega)⟩
    have hafter : q.range.pos.toInt ≤ q.range.finish := by
      unfold Range.finish
      omega
    exact ⟨apply_of_inside hs hpos (by omega) (by omega) hstop hfits,
      length_splice hpos (by omega) (by omega) hstop s⟩
  · intro hstray
    by_cases hoffers : ∃ s, q.Offers index s
    · obtain ⟨s, hs⟩ := hoffers
      exact ⟨_, apply_of_not_within hs (fun hwithin => hstray ⟨⟨s, hs⟩, hwithin⟩)
        (fun hslips => h ⟨⟨s, hs⟩, hslips⟩), trivial⟩
    · exact ⟨_, apply_of_not_offers (not_exists.mp hoffers) contents, trivial⟩

/-- The suggestion is put at the start of the range, and the text goes on from its stop. -/
theorem apply_of_backward (h : q.Offers index s) (start : 0 ≤ q.range.pos.toInt)
    (back : q.range.Backward contents.length) :
    q.apply contents index =
      .ok (contents.take q.range.pos.toInt.toNat ++ s ++
        Text.slice ⟨contents⟩ q.range.finish.toNat q.range.pos.toInt.toNat ++
        contents.drop q.range.pos.toInt.toNat) := by
  obtain ⟨hneg, hinside, hstop⟩ := back
  have hbefore : q.range.finish < q.range.pos.toInt := by
    unfold Range.finish
    omega
  have hfits : q.range.finish < 2 ^ 63 := Int.lt_trans hbefore q.range.pos.toInt_lt
  have hsum : q.range.finish.toNat + (q.range.pos.toInt.toNat - q.range.finish.toNat) =
      q.range.pos.toInt.toNat := by omega
  have htwice : contents.drop q.range.finish.toNat =
      Text.slice ⟨contents⟩ q.range.finish.toNat q.range.pos.toInt.toNat ++
        contents.drop q.range.pos.toInt.toNat := by
    conv_rhs => rw [← hsum, ← List.drop_drop]
    rw [Text.slice, hsum, List.take_append_drop]
  rw [apply_of_inside h start hinside hstop (by omega) hfits,
    List.append_assoc _ (Text.slice _ _ _), ← htwice]
  rfl

theorem not_appliesToSpans_of_slips (h : q.Offers index s)
    (slips : q.range.Slips contents.length) : ¬ q.AppliesToSpans contents index := by
  intro happlies
  by_cases hback : q.range.Backward contents.length
  · have hstray : ¬ q.range.Within contents.length := fun hwithin =>
      absurd hwithin.length (Int.not_le.mpr hback.1)
    obtain ⟨e, he, -⟩ := happlies.refused fun hboth => hstray hboth.2
    rw [apply_of_backward h slips.1 hback] at he
    cases he
  · have htorn := apply_of_slips h slips hback
    by_cases hwithin : q.range.Within contents.length
    · rw [(happlies.applied s h hwithin).1] at htorn
      cases htorn
    · obtain ⟨e, he, hrefusal⟩ := happlies.refused fun hboth => hwithin hboth.2
      rw [htorn] at he
      cases he
      exact hrefusal

/-- A fix is applied to spans of the text only, unless its range slips through the check. If that
starts and stops in the text, what lies between its stop and its start is there twice, and otherwise
the text is cut where it has no bytes. -/
theorem applies_to_spans_iff (q : QuickFix) (contents : Bytes) (index : Int64) :
    (q.AppliesToSpans contents index ↔
      ¬ ((∃ s, q.Offers index s) ∧ q.range.Slips contents.length)) ∧
    ∀ s, q.Offers index s → q.range.Slips contents.length →
      (q.range.Backward contents.length → q.apply contents index =
        .ok (contents.take q.range.pos.toInt.toNat ++ s ++
          Text.slice ⟨contents⟩ q.range.finish.toNat q.range.pos.toInt.toNat ++
          contents.drop q.range.pos.toInt.toNat)) ∧
      (¬ q.range.Backward contents.length →
        q.apply contents index = .error (.noSlice q.range contents.length)) := by
  refine ⟨⟨?_, appliesToSpans_of_not_slips⟩, ?_⟩
  · rintro happlies ⟨⟨s, hs⟩, hslips⟩
    exact not_appliesToSpans_of_slips hs hslips happlies
  · intro s hs hslips
    exact ⟨apply_of_backward hs hslips.1, apply_of_slips hs hslips⟩

def wordFix : QuickFix :=
  ⟨"a.ml", { pos := 6, length := 5 }, ["there"]⟩

/-- It is applied to the two words, and refused once the text has become shorter. -/
theorem wordFix_applied_then_refused :
    wordFix.Offers 0 "there" ∧ wordFix.range.Within (Bytes.ofString "hello world").length ∧
    wordFix.apply "hello world" 0 = .ok "hello there" ∧
    ∃ e, wordFix.apply "hello" 0 = .error e ∧ e.IsRefusal := by
  have hoffers : wordFix.Offers 0 "there" := ⟨by decide, by decide⟩
  have hwithin : wordFix.range.Within (Bytes.ofString "hello world").length :=
    ⟨by decide, by decide, by decide⟩
  have hheld : ∀ contents : Bytes, ¬ ((∃ s, wordFix.Offers 0 s) ∧
      wordFix.range.Slips contents.length) := by
    rintro contents ⟨-, -, ⟨hneg, -⟩ | hbeyond⟩
    · exact absurd hneg (by decide)
    · exact absurd hbeyond (by decide)
  have happlied := (applies_to_spans_iff wordFix "hello world" 0).1.mpr (hheld _)
  have hrefused := (applies_to_spans_iff wordFix "hello" 0).1.mpr (hheld _)
  refine ⟨hoffers, hwithin, (happlied.applied _ hoffers hwithin).1, hrefused.refused ?_⟩
  rintro ⟨-, hshort⟩
  exact absurd hshort.stop (by decide)

def backwardFix : QuickFix :=
  ⟨"a.ml", { pos := 5, length := -3 }, ["X"]⟩

def endlessFix : QuickFix :=
  ⟨"a.ml", { pos := Int64.maxValue, length := 1 }, ["X"]⟩

/-- The one doubles three bytes of the text, and the other cuts the text where it has no bytes. -/
theorem strayFixes_not_refused :
    ¬ backwardFix.AppliesToSpans "hello world" 0 ∧
    ¬ backwardFix.range.Within (Bytes.ofString "hello world").length ∧
    backwardFix.apply "hello world" 0 = .ok "helloXllo world" ∧
    ¬ endlessFix.AppliesToSpans "hello world" 0 ∧
    ¬ endlessFix.range.Within (Bytes.ofString "hello world").length ∧
    endlessFix.apply "hello world" 0 = .error (.noSlice endlessFix.range 11) := by
  have hback : backwardFix.range.Slips (Bytes.ofString "hello world").length :=
    ⟨by decide, Or.inl ⟨by decide, by decide⟩⟩
  have hendless : endlessFix.range.Slips (Bytes.ofString "hello world").length :=
    ⟨by decide, Or.inr (by decide)⟩
  refine ⟨not_appliesToSpans_of_slips (s := "X") ⟨by decide, by decide⟩ hback, ?_, by decide,
    not_appliesToSpans_of_slips (s := "X") ⟨by decide, by decide⟩ hendless, ?_, by decide⟩
  · exact fun hwithin => absurd hwithin.length (by decide)
  · exact fun hwithin => absurd hwithin.stop (by decide)

end QuickFix

end MerlinBridge
