import Mathlib.Algebra.Order.Ring.Int
import MerlinBridge.QuickFix
import MerlinBridge.Reply.Placement

/-!
# Spans lie in the text

The table of line starts holds offsets of the text only, and a line without its
end stops within the text. So every position that a text accepts has an offset
between the start of the line and its end, and the range of a span lies in the
text (`Range.Within`). In a text whose length fits a word, nothing wraps around in
such a range, and a quick fix with it can be applied.
-/

namespace MerlinBridge

theorem Bytes.length_dropEnd_le (b tail : Bytes) : (b.dropEnd tail).length ≤ b.length := by
  unfold Bytes.dropEnd
  split
  · exact List.length_take_le' _ _
  · exact Nat.le_refl _

namespace Text

variable {t : Text} {line col : Int64} {o : Nat}

theorem le_of_mem_startsFrom {b : Bytes} {pos x : Nat} (h : x ∈ startsFrom b pos) :
    x ≤ pos + b.length := by
  induction b generalizing pos with
  | nil => cases h
  | cons c rest ih =>
      have hrest : x ∈ startsFrom rest (pos + 1) → x ≤ pos + (c :: rest).length := by
        intro hx
        have := ih hx
        rw [List.length_cons]
        omega
      rw [startsFrom_cons] at h
      split at h
      · rcases List.mem_cons.mp h with hhead | htail
        · rw [hhead, List.length_cons]
          omega
        · exact hrest htail
      · exact hrest h

theorem startOf_le_length (t : Text) (i : Nat) : t.startOf i ≤ t.length := by
  unfold startOf
  cases hstart : t.lineStarts[i]? with
  | none => exact Nat.zero_le _
  | some x =>
      have hmem : x ∈ 0 :: startsFrom t.contents 0 := by
        simpa [lineStarts] using Array.mem_of_getElem? hstart
      rcases List.mem_cons.mp hmem with hzero | hx
      · simp [hzero]
      · simpa [length] using le_of_mem_startsFrom hx

theorem startOf_add_length_lineAt_le (t : Text) (i : Nat) :
    t.startOf i + (t.lineAt i).length ≤ t.length := by
  have hstart := t.startOf_le_length i
  have hslice : ∀ stop, (t.slice (t.startOf i) stop).length ≤ t.length - t.startOf i := by
    intro stop
    simp only [slice, length, List.length_take, List.length_drop]
    omega
  have hline : (t.lineAt i).length ≤ t.length - t.startOf i :=
    Nat.le_trans (Bytes.length_dropEnd_le _ _) (hslice _)
  omega

theorem offset_eq_ok_iff :
    t.offset line col = .ok o ↔
      ∃ i, t.index line = .ok i ∧ 0 ≤ col ∧
        o = t.startOf i + min col.toInt.toNat (t.lineAt i).length := by
  unfold offset
  cases t.index line with
  | error e => simp [bind, Except.bind]
  | ok i =>
      by_cases hcol : col < 0
      · simp [bind, Except.bind, hcol, Int64.not_le.mpr hcol]
      · simp [bind, Except.bind, hcol, Int64.not_lt.mp hcol, eq_comm]

/-- A position has its offset at the end of its line or before, and that end is in
the text. -/
theorem exists_endOfLine_of_offset (h : t.offset line col = .ok o) :
    ∃ stop, t.endOfLine line = .ok stop ∧ o ≤ stop ∧ stop ≤ t.length := by
  obtain ⟨i, hindex, -, ho⟩ := offset_eq_ok_iff.mp h
  refine ⟨t.startOf i + (t.lineAt i).length, ?_, ?_, t.startOf_add_length_lineAt_le i⟩
  · simp [endOfLine, hindex, bind, Except.bind]
  · omega

theorem offset_le_length (h : t.offset line col = .ok o) : o ≤ t.length := by
  obtain ⟨stop, -, hle, hstop⟩ := exists_endOfLine_of_offset h
  exact Nat.le_trans hle hstop

end Text

/-! ## Ranges -/

namespace Range

/-- A range lies in a text of length `n`, with its offset and its length taken as
numbers. -/
structure Within (r : Range) (n : Nat) : Prop where
  pos : 0 ≤ r.pos.toInt
  length : 0 ≤ r.length.toInt
  stop : r.pos.toInt + r.length.toInt ≤ n

variable {r : Range} {n : Nat}

/-- In a text whose length fits a word the sum does not wrap around. -/
theorem Within.toInt_stop (h : r.Within n) (fits : n < 2 ^ 63) :
    r.stop.toInt = r.pos.toInt + r.length.toInt := by
  have hpos := h.pos
  have hlength := h.length
  have hstop := h.stop
  rw [Range.stop, Int64.toInt_add]
  exact Int.bmod_eq_of_le (by omega) (by omega)

/-- A cursor stands in the range or just after it, with the offset and the length
of the range taken as numbers. -/
def Reaches (r : Range) (cursor : Nat) : Prop :=
  r.pos.toInt ≤ cursor ∧ (cursor : Int) ≤ r.pos.toInt + r.length.toInt

instance (r : Range) (cursor : Nat) : Decidable (r.Reaches cursor) :=
  inferInstanceAs (Decidable (_ ∧ _))

theorem Within.covers_ofNat_iff (h : r.Within n) (fits : n < 2 ^ 63) {cursor : Nat}
    (inside : cursor ≤ n) : r.covers (Int64.ofNat cursor) = true ↔ r.Reaches cursor := by
  have hcursor : (Int64.ofNat cursor).toInt = cursor := Int64.toInt_ofNat_of_lt (by omega)
  unfold Reaches
  rw [← h.toInt_stop fits, ← hcursor]
  simp [covers, Int64.le_iff_toInt_le]

/-- The range of a span in a text lies in it, and its first line has an end, which
is not before the range. -/
theorem within_ofSpan {t : Text} {s : Span} (fits : t.length < 2 ^ 63)
    (h : ofSpan t s = .ok r) :
    r.Within t.length ∧
      ∃ stop, t.endOfLine r.startLine = .ok stop ∧ r.pos.toInt ≤ stop := by
  unfold ofSpan at h
  split at h
  · cases h
  · rename_i start hstart
    split at h
    · cases h
    · rename_i stop hstop
      obtain rfl := Except.ok.inj h
      have hstartLe := Text.offset_le_length hstart
      have hstopLe := Text.offset_le_length hstop
      have hpos : (Int64.ofNat start).toInt = start := Int64.toInt_ofNat_of_lt (by omega)
      have hlength : (Int64.ofNat (stop - start)).toInt = (stop - start : Nat) :=
        Int64.toInt_ofNat_of_lt (by omega)
      refine ⟨⟨?_, ?_, ?_⟩, ?_⟩
      · simp only [hpos]
        omega
      · simp only [hlength]
        omega
      · simp only [hpos, hlength]
        omega
      · obtain ⟨last, hlast, hle, -⟩ := Text.exists_endOfLine_of_offset hstart
        refine ⟨last, hlast, ?_⟩
        simp only [hpos]
        omega

end Range

/-! ## Applying a quick fix -/

namespace QuickFix

def splice (q : QuickFix) (contents s : Bytes) : Bytes :=
  contents.take q.range.pos.toInt.toNat ++ s ++
    contents.drop (q.range.pos.toInt + q.range.length.toInt).toNat

theorem suggestion_of_getElem? {q : QuickFix} {index : Int64} {s : Bytes} (valid : 0 ≤ index)
    (h : q.suggestions[index.toInt.toNat]? = some s) : q.suggestion index = .ok s := by
  rw [suggestion, if_neg (Int64.not_lt.mpr valid), h]

/-- A fix whose range lies in the text can be applied with each of its suggestions. -/
theorem apply_of_within {q : QuickFix} {contents : Bytes} (within : q.range.Within contents.length)
    (fits : contents.length < 2 ^ 63) {index : Int64} {s : Bytes} (valid : 0 ≤ index)
    (h : q.suggestions[index.toInt.toNat]? = some s) :
    q.apply contents index = .ok (q.splice contents s) := by
  have hpos := within.pos
  have hlength := within.length
  have hstop := within.stop
  have hsum := within.toInt_stop fits
  have hinside : ¬ (q.range.pos < 0 ∨ (contents.length : Int) < q.range.stop.toInt) := by
    rw [Int64.lt_iff_toInt_lt, Int64.toInt_zero]
    omega
  have hslice : ¬ ((contents.length : Int) < q.range.pos.toInt ∨ q.range.stop < 0) := by
    rw [Int64.lt_iff_toInt_lt, Int64.toInt_zero]
    omega
  rw [splice, ← hsum]
  simp only [apply, suggestion_of_getElem? valid h, bind, Except.bind, if_neg hinside,
    if_neg hslice]

end QuickFix

end MerlinBridge
