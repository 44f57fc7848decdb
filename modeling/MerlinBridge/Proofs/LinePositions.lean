import MerlinBridge.Proofs.CleanPath
import MerlinBridge.Proofs.TextSpans

/-!
# Positions and offsets

A line of a text is given by cutting the text around it: what stands before it is
empty or ends in a newline, and what follows is empty or starts with one
(`IsCut`). The number of newlines before the line is its index in the table of line
starts, the length of what stands before it is the entry there, and the next entry
is one past its end. There is a cut for every line, and one around every offset.

Looking up a position and searching for an offset are read off such a cut, so that
they undo each other, but for an offset that stands inside a line end.
-/

namespace MerlinBridge

namespace Bytes

theorem split_of_notMem {sep : UInt8} {b : Bytes} (h : sep ∉ b) : split sep b = [b] := by
  have hpieces : ∀ c ∈ [b], sep ∉ c := by simpa using h
  simpa using split_join hpieces (List.cons_ne_nil b [])

theorem length_split (sep : UInt8) (b : Bytes) : (split sep b).length = b.count sep + 1 := by
  induction b with
  | nil => rfl
  | cons x rest ih =>
      rw [split, List.count_cons]
      by_cases hx : x = sep
      · simp [hx, ih]
      · cases hsplit : split sep rest with
        | nil => simp [hsplit] at ih
        | cons piece pieces => simpa [hx, hsplit] using ih

theorem dropEnd_return_append (b : Bytes) : (b ++ "\r").dropEnd "\r" = b := by
  simp [dropEnd, endsWith]

theorem dropEnd_return_of_getLast? {b : Bytes} (h : b.getLast? ≠ some (byte '\r')) :
    b.dropEnd "\r" = b := by
  have hends : b.endsWith "\r" = false := by
    rw [endsWith, ← Bool.not_eq_true, List.isSuffixOf_iff_suffix]
    rintro ⟨a, rfl⟩
    have hreturn : ofString "\r" = [byte '\r'] := by decide
    exact h (by rw [hreturn, List.getLast?_concat])
  rw [dropEnd, hends]
  rfl

/-- A line is what is left of it and a carriage return, or it has none at its end. -/
theorem eq_append_return_or (b : Bytes) :
    (∃ a, b = a ++ [byte '\r'] ∧ b.dropEnd "\r" = a) ∨
      b.getLast? ≠ some (byte '\r') ∧ b.dropEnd "\r" = b := by
  by_cases hlast : b.getLast? = some (byte '\r')
  · obtain ⟨a, rfl⟩ := List.getLast?_eq_some_iff.mp hlast
    exact Or.inl ⟨a, rfl, dropEnd_return_append a⟩
  · exact Or.inr ⟨hlast, dropEnd_return_of_getLast? hlast⟩

end Bytes

namespace Text

open Bytes (newline)

/-! ## The table of line starts -/

theorem startsFrom_append (a b : Bytes) (pos : Nat) :
    startsFrom (a ++ b) pos = startsFrom a pos ++ startsFrom b (pos + a.length) := by
  induction a generalizing pos with
  | nil => rfl
  | cons c rest ih =>
      have hpos : pos + 1 + rest.length = pos + (c :: rest).length := by
        rw [List.length_cons]
        omega
      rw [List.cons_append, startsFrom_cons, startsFrom_cons, ih, hpos]
      split <;> rfl

theorem startsFrom_of_notMem {b : Bytes} (h : newline ∉ b) (pos : Nat) :
    startsFrom b pos = [] := by
  induction b generalizing pos with
  | nil => rfl
  | cons c rest ih =>
      rw [List.mem_cons, not_or] at h
      rw [startsFrom_cons, if_neg (Ne.symm h.1), ih h.2]

theorem length_startsFrom (b : Bytes) (pos : Nat) :
    (startsFrom b pos).length = b.count newline := by
  induction b generalizing pos with
  | nil => rfl
  | cons c rest ih =>
      rw [startsFrom_cons, List.count_cons]
      by_cases hc : c = newline
      · simp [hc, ih]
      · simp [hc, ih]

theorem lt_of_mem_startsFrom {b : Bytes} {pos x : Nat} (h : x ∈ startsFrom b pos) : pos < x := by
  induction b generalizing pos with
  | nil => cases h
  | cons c rest ih =>
      rw [startsFrom_cons] at h
      split at h
      · rcases List.mem_cons.mp h with rfl | htail
        · exact Nat.lt_succ_self pos
        · exact Nat.lt_of_succ_lt (ih htail)
      · exact Nat.lt_of_succ_lt (ih h)

theorem pairwise_startsFrom (b : Bytes) (pos : Nat) : (startsFrom b pos).Pairwise (· < ·) := by
  induction b generalizing pos with
  | nil => exact List.Pairwise.nil
  | cons c rest ih =>
      rw [startsFrom_cons]
      split
      · exact List.pairwise_cons.mpr ⟨fun x hx => lt_of_mem_startsFrom hx, ih (pos + 1)⟩
      · exact ih (pos + 1)

theorem lineCount_eq (t : Text) : t.lineCount = t.contents.count newline + 1 := by
  simp [lineCount, lineStarts, length_startsFrom]

theorem startOf_lt_startOf (t : Text) {i j : Nat} (hij : i < j) (hj : j < t.lineCount) :
    t.startOf i < t.startOf j := by
  have hsorted : (0 :: startsFrom t.contents 0).Pairwise (· < ·) :=
    List.pairwise_cons.mpr ⟨fun x hx => lt_of_mem_startsFrom hx, pairwise_startsFrom _ _⟩
  have hj' : j < (0 :: startsFrom t.contents 0).length := by
    simpa [lineCount, lineStarts] using hj
  have hlt := List.pairwise_iff_getElem.mp hsorted i j (Nat.lt_trans hij hj') hj' hij
  simpa only [startOf, lineStarts, List.getElem?_toArray,
    List.getElem?_eq_getElem (Nat.lt_trans hij hj'), List.getElem?_eq_getElem hj',
    Option.getD_some] using hlt

/-! ## Cutting a text around a line -/

/-- The text `b` is the line `line` between what stands before and after it. -/
structure IsCut (b before line after : Bytes) : Prop where
  eq : b = before ++ line ++ after
  before_end : before = [] ∨ ∃ a, before = a ++ [newline]
  notMem : newline ∉ line
  after_start : after = [] ∨ ∃ a, after = newline :: a

namespace IsCut

variable {b before line after : Bytes}

/-- A line and a newline in front of a text are in front of all its lines but the first. -/
theorem cons_line (h : IsCut b before line after) (first : Bytes) :
    IsCut (first ++ newline :: b) (first ++ newline :: before) line after where
  eq := by simp [h.eq]
  before_end := by
    rcases h.before_end with rfl | ⟨a, rfl⟩
    · exact Or.inr ⟨first, rfl⟩
    · exact Or.inr ⟨first ++ newline :: a, by simp⟩
  notMem := h.notMem
  after_start := h.after_start

theorem divide (h : IsCut b before line after) (k : Nat) :
    IsCut b before (line.take k ++ line.drop k) after := by
  rwa [List.take_append_drop]

theorem lineStarts_eq (h : IsCut b before line after) :
    0 :: startsFrom b 0 =
      (0 :: startsFrom before 0) ++ startsFrom after (before.length + line.length) := by
  rw [h.eq, startsFrom_append, startsFrom_append, startsFrom_of_notMem h.notMem]
  simp

theorem getElem?_starts (h : IsCut b before line after) :
    (0 :: startsFrom b 0)[before.count newline]? = some before.length := by
  rw [h.lineStarts_eq, List.getElem?_append_left (by simp [length_startsFrom])]
  rcases h.before_end with rfl | ⟨a, rfl⟩
  · rfl
  · rw [List.count_append, List.count_singleton_self, List.getElem?_cons_succ, startsFrom_append,
      List.getElem?_append_right (by simp [length_startsFrom])]
    simp [length_startsFrom, startsFrom_cons]

theorem getElem?_starts_succ (h : IsCut b before line after) :
    (0 :: startsFrom b 0)[before.count newline + 1]? =
      if after = [] then none else some (before.length + line.length + 1) := by
  rw [h.lineStarts_eq, List.getElem?_append_right (by simp [length_startsFrom])]
  rcases h.after_start with rfl | ⟨a, rfl⟩
  · rfl
  · simp [length_startsFrom, startsFrom_cons]

theorem getElem?_split (h : IsCut b before line after) :
    (Bytes.split newline b)[before.count newline]? = some line := by
  have hsplit : Bytes.split newline line = [line] := Bytes.split_of_notMem h.notMem
  have hfirst : (Bytes.split newline (line ++ after))[0]? = some line := by
    rcases h.after_start with rfl | ⟨a, rfl⟩
    · simp [hsplit]
    · simp [Bytes.split_append_cons, hsplit]
  rw [h.eq, List.append_assoc]
  rcases h.before_end with rfl | ⟨a, rfl⟩
  · exact hfirst
  · rw [List.append_assoc, List.singleton_append, Bytes.split_append_cons,
      List.getElem?_append_right (by simp [Bytes.length_split])]
    simpa [Bytes.length_split] using hfirst

end IsCut

theorem exists_first_line (b : Bytes) :
    ∃ line after, b = line ++ after ∧ newline ∉ line ∧
      (after = [] ∨ ∃ a, after = newline :: a) := by
  by_cases hmem : newline ∈ b
  · obtain ⟨line, a, rfl, hline⟩ := List.eq_append_cons_of_mem hmem
    exact ⟨line, newline :: a, rfl, hline, Or.inr ⟨a, rfl⟩⟩
  · exact ⟨b, [], by simp, hmem, Or.inl rfl⟩

theorem exists_last_line (b : Bytes) :
    ∃ before line, b = before ++ line ∧ newline ∉ line ∧
      (before = [] ∨ ∃ a, before = a ++ [newline]) := by
  obtain ⟨line, after, hb, hline, hafter⟩ := exists_first_line b.reverse
  refine ⟨after.reverse, line.reverse, ?_, by simpa using hline, ?_⟩
  · rw [← List.reverse_append, ← hb, List.reverse_reverse]
  · rcases hafter with rfl | ⟨a, rfl⟩
    · exact Or.inl rfl
    · exact Or.inr ⟨a.reverse, by simp⟩

theorem exists_cut_of_index {b : Bytes} {i : Nat} (h : i ≤ b.count newline) :
    ∃ before line after, IsCut b before line after ∧ before.count newline = i := by
  induction i generalizing b with
  | zero =>
      obtain ⟨line, after, hb, hline, hafter⟩ := exists_first_line b
      exact ⟨[], line, after, ⟨by simpa using hb, Or.inl rfl, hline, hafter⟩, rfl⟩
  | succ i ih =>
      have hmem : newline ∈ b := List.count_pos_iff.mp (Nat.lt_of_lt_of_le (Nat.succ_pos i) h)
      obtain ⟨first, rest, rfl, hfirst⟩ := List.eq_append_cons_of_mem hmem
      have hcount : first.count newline = 0 := List.count_eq_zero.mpr hfirst
      rw [List.count_append, List.count_cons_self, hcount] at h
      obtain ⟨before, line, after, hcut, hi⟩ := ih (b := rest) (by omega)
      refine ⟨first ++ newline :: before, line, after, hcut.cons_line first, ?_⟩
      rw [List.count_append, List.count_cons_self, hcount, hi]
      omega

/-- There is a cut around every offset: `left` and `right` are what the line has on either
side of it. -/
theorem exists_cut_of_offset {b : Bytes} {o : Nat} (h : o ≤ b.length) :
    ∃ before left right after, IsCut b before (left ++ right) after ∧
      o = before.length + left.length ∧ before.count newline = (b.take o).count newline := by
  obtain ⟨before, left, htake, hleft, hbefore⟩ := exists_last_line (b.take o)
  obtain ⟨right, after, hdrop, hright, hafter⟩ := exists_first_line (b.drop o)
  refine ⟨before, left, right, after, ⟨?_, hbefore, ?_, hafter⟩, ?_, ?_⟩
  · rw [← List.take_append_drop o b, htake, hdrop]
    simp
  · rw [List.mem_append, not_or]
    exact ⟨hleft, hright⟩
  · rw [← List.length_append, ← htake, List.length_take, Nat.min_eq_left h]
  · rw [htake, List.count_append, List.count_eq_zero.mpr hleft, Nat.add_zero]

section Cut

variable {t : Text} {before line after : Bytes}

theorem index_lt_lineCount (h : IsCut t.contents before line after) :
    before.count newline < t.lineCount := by
  rw [lineCount_eq, h.eq, List.count_append, List.count_append]
  omega

theorem startOf_of_cut (h : IsCut t.contents before line after) :
    t.startOf (before.count newline) = before.length := by
  simp only [startOf, lineStarts, List.getElem?_toArray, h.getElem?_starts, Option.getD_some]

theorem lineAt_of_cut (h : IsCut t.contents before line after) :
    t.lineAt (before.count newline) = line.dropEnd "\r" := by
  have hlength : t.length = before.length + line.length + after.length := by
    simp [length, h.eq, Nat.add_assoc]
  have hslice : t.slice before.length (before.length + line.length) = line := by
    simp [slice, h.eq, List.append_assoc]
  simp only [lineAt, startOf_of_cut h, lineStarts, List.getElem?_toArray, h.getElem?_starts_succ]
  rcases h.after_start with rfl | ⟨a, rfl⟩
  · simp only [if_true, hlength, List.length_nil, Nat.add_zero, hslice]
  · simp only [reduceCtorEq, if_false, Nat.add_sub_cancel, hslice]

theorem lt_startOf_succ (h : IsCut t.contents before line after)
    (hnext : before.count newline + 1 < t.lineCount) :
    before.length + line.length < t.startOf (before.count newline + 1) := by
  have hafter : after ≠ [] := by
    rintro rfl
    rw [lineCount_eq, h.eq, List.count_append, List.count_append,
      List.count_eq_zero.mpr h.notMem] at hnext
    simp at hnext
  simp only [startOf, lineStarts, List.getElem?_toArray, h.getElem?_starts_succ, if_neg hafter,
    Option.getD_some]
  omega

end Cut

/-! ## Binary search -/

/-- The search ends at the last line that starts at or before the offset, since all lines
after `hi` start after it and the line `lo` does not. -/
theorem lastAtMost_spec (t : Text) {offset lo hi : Nat} (hlohi : lo ≤ hi) (hhi : hi < t.lineCount)
    (hlo : t.startOf lo ≤ offset)
    (habove : ∀ j, hi < j → j < t.lineCount → offset < t.startOf j) :
    let i := lastAtMost t.lineStarts offset lo hi
    i < t.lineCount ∧ t.startOf i ≤ offset ∧
      ∀ j, i < j → j < t.lineCount → offset < t.startOf j := by
  fun_induction lastAtMost t.lineStarts offset lo hi with
  | case1 lo hi hlt mid hmid ih => exact ih (by omega) hhi hmid habove
  | case2 lo hi hlt mid hmid ih =>
      refine ih (by omega) (by omega) hlo ?_
      intro j hj hcount
      have hmid' : offset < t.startOf mid := Nat.lt_of_not_le hmid
      rcases Nat.lt_or_ge mid j with hlt' | hge
      · exact Nat.lt_trans hmid' (t.startOf_lt_startOf hlt' hcount)
      · have : j = mid := by omega
        rwa [this]
  | case3 lo hi hge =>
      have : lo = hi := by omega
      subst this
      exact ⟨hhi, hlo, habove⟩

/-- The line of an offset is the one that it stands in. -/
theorem lastAtMost_of_cut {t : Text} {before left right after : Bytes}
    (h : IsCut t.contents before (left ++ right) after) :
    lastAtMost t.lineStarts (before.length + left.length) 0 (t.lineStarts.size - 1) =
      before.count newline := by
  have hpos := t.lineCount_pos
  have hcount := index_lt_lineCount h
  have hzero : t.startOf 0 ≤ before.length + left.length := Nat.zero_le _
  obtain ⟨hlt, hle, habove⟩ := t.lastAtMost_spec (Nat.zero_le _) (Nat.sub_lt hpos Nat.one_pos) hzero
    (by omega)
  change lastAtMost t.lineStarts _ 0 (t.lineCount - 1) = _
  generalize lastAtMost t.lineStarts (before.length + left.length) 0 (t.lineCount - 1) = i at *
  rcases Nat.lt_trichotomy i (before.count newline) with hbelow | heq | hover
  · have := habove _ hbelow hcount
    rw [startOf_of_cut h] at this
    omega
  · exact heq
  · have hnext := lt_startOf_succ h (by omega)
    rw [List.length_append] at hnext
    have hmono : t.startOf (before.count newline + 1) ≤ t.startOf i := by
      rcases Nat.eq_or_lt_of_le hover with heq | hlt'
      · rw [← heq]
      · exact Nat.le_of_lt (t.startOf_lt_startOf hlt' hlt)
    omega

/-! ## Looking up positions and offsets -/

/-- The numbers of bytes and of lines of a text are words. -/
structure Fits (t : Text) : Prop where
  length : t.length < 2 ^ 63
  lines : t.lineCount < 2 ^ 63

def StartsLine (b : Bytes) (s : Nat) : Prop :=
  s = 0 ∨ b[s - 1]? = some newline

/-- The line in which the offset `o` stands starts at `s`: it is the last one that starts at or
before `o`. -/
structure IsStartFor (b : Bytes) (o s : Nat) : Prop where
  le : s ≤ o
  starts : StartsLine b s
  last : ∀ s', s < s' → s' ≤ o → ¬ StartsLine b s'

/-- The offset `o` stands behind the carriage return of a line end, where no line has a
column. -/
def InsideLineEnd (b : Bytes) (o : Nat) : Prop :=
  0 < o ∧ b[o - 1]? = some (Bytes.byte '\r') ∧ (o = b.length ∨ b[o]? = some newline)

instance (b : Bytes) (o : Nat) : Decidable (InsideLineEnd b o) :=
  inferInstanceAs (Decidable (_ ∧ _ ∧ (_ ∨ _)))

/-- Whether an offset is inside a line end is seen from the bytes on either side of it. -/
theorem insideLineEnd_append_iff (x y : Bytes) :
    InsideLineEnd (x ++ y) x.length ↔
      x.getLast? = some (Bytes.byte '\r') ∧ (y = [] ∨ y.head? = some newline) := by
  have hnext : (x ++ y)[x.length]? = y.head? := by
    rw [List.getElem?_append_right (Nat.le_refl _), Nat.sub_self, List.head?_eq_getElem?]
  have hstop : x.length = (x ++ y).length ↔ y = [] := by simp
  unfold InsideLineEnd
  rw [hnext, hstop]
  rcases List.eq_nil_or_concat x with rfl | ⟨l, c, rfl⟩
  · simp
  · simp

namespace IsCut

variable {b before left right line after : Bytes}

theorem isStartFor (h : IsCut b before (left ++ right) after) :
    IsStartFor b (before.length + left.length) before.length := by
  refine ⟨Nat.le_add_right _ _, ?_, ?_⟩
  · rcases h.before_end with rfl | ⟨a, rfl⟩
    · exact Or.inl rfl
    · refine Or.inr ?_
      simp [h.eq]
  · rintro s' hlt hle (rfl | hs')
    · omega
    · have hk : s' - 1 - before.length < left.length := by omega
      rw [h.eq, List.append_assoc, List.getElem?_append_right (by omega), List.append_assoc,
        List.getElem?_append_left hk] at hs'
      exact h.notMem (List.mem_append_left right (List.mem_of_getElem? hs'))

/-- The offset behind `left` is inside a line end if the line stops there with a carriage
return. -/
theorem insideLineEnd_iff (h : IsCut b before (left ++ right) after) :
    InsideLineEnd b (before.length + left.length) ↔
      right = [] ∧ left.getLast? = some (Bytes.byte '\r') := by
  have hb : b = (before ++ left) ++ (right ++ after) := by simp [h.eq]
  have hlast : (before ++ left).getLast? = some (Bytes.byte '\r') ↔
      left.getLast? = some (Bytes.byte '\r') := by
    rcases List.eq_nil_or_concat left with rfl | ⟨l, c, rfl⟩
    · rcases h.before_end with rfl | ⟨a, rfl⟩
      · rfl
      · have hne : newline ≠ Bytes.byte '\r' := by decide
        simp [hne]
    · rw [List.concat_eq_append, ← List.append_assoc]
      simp
  have hnext : right ++ after = [] ∨ (right ++ after).head? = some newline ↔ right = [] := by
    cases right with
    | nil => rcases h.after_start with rfl | ⟨a, rfl⟩ <;> simp
    | cons c r =>
        have hc : c ≠ newline := by
          rintro rfl
          exact h.notMem (by simp)
        simp [hc]
  rw [hb, ← List.length_append, insideLineEnd_append_iff, hlast, hnext, and_comm]

end IsCut

theorem beyond_iff (t : Text) (line : Int64) :
    (line < 1 ∨ (t.lineCount : Int) < line.toInt) ↔
      ¬ (1 ≤ line.toInt ∧ line.toInt ≤ t.lineCount) := by
  rw [Int64.lt_iff_toInt_lt, Int64.toInt_one]
  omega

theorem index_eq_error {t : Text} {line : Int64}
    (h : ¬ (1 ≤ line.toInt ∧ line.toInt ≤ t.lineCount)) :
    t.index line = .error (.noLine line t.lineCount) := by
  rw [index, if_pos ((t.beyond_iff line).mpr h)]

theorem index_eq_ok_iff {t : Text} {line : Int64} {i : Nat} :
    t.index line = .ok i ↔ i < t.lineCount ∧ line.toInt = i + 1 := by
  by_cases h : 1 ≤ line.toInt ∧ line.toInt ≤ t.lineCount
  · rw [index, if_neg (fun hbeyond => (t.beyond_iff line).mp hbeyond h), Except.ok.injEq]
    omega
  · rw [index_eq_error h]
    simp only [reduceCtorEq, false_iff]
    omega

section Lookup

variable {t : Text} {before left right line after : Bytes}

theorem position_of_cut (h : IsCut t.contents before (left ++ right) after) {o : Int64}
    (ho : o.toInt = before.length + left.length) :
    t.position o = .ok (before.count newline + 1, left.length) := by
  have hlength : t.length = before.length + (left.length + right.length) + after.length := by
    simp [length, h.eq]
    omega
  have hinside : ¬ (o < 0 ∨ (t.length : Int) < o.toInt) := by
    rw [Int64.lt_iff_toInt_lt, Int64.toInt_zero]
    omega
  have hnat : o.toInt.toNat = before.length + left.length := by omega
  rw [position, if_neg hinside]
  simp only [hnat, lastAtMost_of_cut h, startOf_of_cut h, Nat.add_sub_cancel_left]

theorem line_of_cut (h : IsCut t.contents before line after) {n : Int64}
    (hn : n.toInt = before.count newline + 1) : t.line n = .ok (line.dropEnd "\r") := by
  have hindex : t.index n = .ok (before.count newline) :=
    index_eq_ok_iff.mpr ⟨index_lt_lineCount h, hn⟩
  simp only [Text.line, hindex, bind, Except.bind, lineAt_of_cut h]

theorem offset_of_cut (h : IsCut t.contents before line after) {n col : Int64}
    (hn : n.toInt = before.count newline + 1) (hcol : 0 ≤ col.toInt) :
    t.offset n col = .ok (before.length + min col.toInt.toNat (line.dropEnd "\r").length) := by
  refine offset_eq_ok_iff.mpr ⟨before.count newline, ?_, ?_, ?_⟩
  · exact index_eq_ok_iff.mpr ⟨index_lt_lineCount h, hn⟩
  · rwa [Int64.le_iff_toInt_le, Int64.toInt_zero]
  · rw [startOf_of_cut h, lineAt_of_cut h]

/-- The position of an offset has that offset, unless it is inside a line end. -/
theorem offset_position_of_cut (h : IsCut t.contents before (left ++ right) after) {n col : Int64}
    (hn : n.toInt = before.count newline + 1) (hcol : col.toInt = left.length) :
    t.offset n col =
      .ok (if InsideLineEnd t.contents (before.length + left.length)
        then before.length + left.length - 1 else before.length + left.length) := by
  have hnat : col.toInt.toNat = left.length := by omega
  rw [offset_of_cut h hn (by omega), hnat]
  congr 1
  rcases Bytes.eq_append_return_or (left ++ right) with ⟨a, ha, hdrop⟩ | ⟨hlast, hdrop⟩
  · have hlength := congrArg List.length ha
    simp only [List.length_append, List.length_singleton] at hlength
    rw [hdrop]
    cases right with
    | nil =>
        rw [List.append_nil] at ha
        rw [if_pos (h.insideLineEnd_iff.mpr ⟨rfl, by simp [ha]⟩)]
        rw [List.length_nil] at hlength
        omega
    | cons c r =>
        rw [if_neg (by simp [h.insideLineEnd_iff])]
        rw [List.length_cons] at hlength
        omega
  · have hinside : ¬ InsideLineEnd t.contents (before.length + left.length) := by
      intro hinside
      obtain ⟨rfl, hleft⟩ := h.insideLineEnd_iff.mp hinside
      exact hlast (by simpa using hleft)
    rw [hdrop, if_neg hinside, List.length_append]
    omega

theorem slice_of_cut (h : IsCut t.contents before line after) :
    (t.contents.drop before.length).take (line.dropEnd "\r").length = line.dropEnd "\r" := by
  obtain ⟨rest, hrest⟩ : ∃ rest, line = line.dropEnd "\r" ++ rest := by
    rcases Bytes.eq_append_return_or line with ⟨a, ha, hdrop⟩ | ⟨-, hdrop⟩
    · exact ⟨[Bytes.byte '\r'], by rw [hdrop, ha]⟩
    · exact ⟨[], by rw [hdrop, List.append_nil]⟩
  rw [h.eq, List.append_assoc, List.drop_left]
  generalize line.dropEnd "\r" = kept at hrest ⊢
  rw [hrest, List.append_assoc, List.take_left]

end Lookup

theorem offset_eq_error {t : Text} {line col : Int64}
    (h : ¬ (1 ≤ line.toInt ∧ line.toInt ≤ t.lineCount ∧ 0 ≤ col.toInt)) :
    ∃ e, t.offset line col = .error e := by
  cases hoffset : t.offset line col with
  | error e => exact ⟨e, rfl⟩
  | ok o =>
      obtain ⟨i, hindex, hcol, -⟩ := offset_eq_ok_iff.mp hoffset
      obtain ⟨hi, hline⟩ := index_eq_ok_iff.mp hindex
      rw [Int64.le_iff_toInt_le, Int64.toInt_zero] at hcol
      omega

theorem offset_mono {t : Text} {line col line' col' : Int64} {o o' : Nat}
    (h : t.offset line col = .ok o) (h' : t.offset line' col' = .ok o')
    (hle : line < line' ∨ line = line' ∧ col ≤ col') : o ≤ o' := by
  obtain ⟨i, hindex, hcol, ho⟩ := offset_eq_ok_iff.mp h
  obtain ⟨i', hindex', hcol', ho'⟩ := offset_eq_ok_iff.mp h'
  obtain ⟨hi, hline⟩ := index_eq_ok_iff.mp hindex
  obtain ⟨hi', hline'⟩ := index_eq_ok_iff.mp hindex'
  rcases hle with hlt | ⟨rfl, hcols⟩
  · rw [Int64.lt_iff_toInt_lt] at hlt
    obtain ⟨before, piece, after, hcut, rfl⟩ := exists_cut_of_index (b := t.contents) (i := i)
      (by rw [lineCount_eq] at hi; omega)
    have hnext := lt_startOf_succ hcut (by omega)
    have hline := Bytes.length_dropEnd_le piece "\r"
    rw [startOf_of_cut hcut, lineAt_of_cut hcut] at ho
    have hstart : t.startOf (before.count newline + 1) ≤ t.startOf i' := by
      rcases Nat.eq_or_lt_of_le (show before.count newline + 1 ≤ i' by omega) with heq | hless
      · rw [heq]
      · exact Nat.le_of_lt (t.startOf_lt_startOf hless hi')
    omega
  · rw [Int64.le_iff_toInt_le] at hcols
    obtain rfl : i = i' := by omega
    omega

/-- Every offset in the text has a position, which has that offset again unless it is inside a
line end; every position on a line of the text has an offset, which has that position again but
for columns past the end of the line; nothing else has one; and offsets follow the order of
positions. -/
theorem position_offset_inverse (t : Text) (fits : t.Fits) :
    (∀ o : Int64, 0 ≤ o.toInt → o.toInt ≤ t.length →
      ∃ start, IsStartFor t.contents o.toInt.toNat start ∧
        t.position o =
          .ok (1 + (t.contents.take o.toInt.toNat).count newline, o.toInt.toNat - start) ∧
        t.offset (.ofNat (1 + (t.contents.take o.toInt.toNat).count newline))
            (.ofNat (o.toInt.toNat - start)) =
          .ok (if InsideLineEnd t.contents o.toInt.toNat then o.toInt.toNat - 1
            else o.toInt.toNat)) ∧
    (∀ o : Int64, ¬ (0 ≤ o.toInt ∧ o.toInt ≤ t.length) → ∃ e, t.position o = .error e) ∧
    (∀ line col : Int64, 1 ≤ line.toInt → line.toInt ≤ t.lineCount → 0 ≤ col.toInt →
      ∃ o start written piece, t.offset line col = .ok o ∧ o ≤ t.length ∧
        t.line line = .ok written ∧
        t.position (.ofNat o) = .ok (line.toInt.toNat, min col.toInt.toNat written.length) ∧
        t.offset line 0 = .ok start ∧ IsStartFor t.contents o start ∧
        (t.contents.drop start).take written.length = written ∧
        (Bytes.split newline t.contents)[line.toInt.toNat - 1]? = some piece ∧
        written = piece.dropEnd "\r") ∧
    (∀ line col : Int64, ¬ (1 ≤ line.toInt ∧ line.toInt ≤ t.lineCount ∧ 0 ≤ col.toInt) →
      ∃ e, t.offset line col = .error e) ∧
    (∀ (line col line' col' : Int64) (o o' : Nat), t.offset line col = .ok o →
      t.offset line' col' = .ok o' → line < line' ∨ line = line' ∧ col ≤ col' → o ≤ o') := by
  refine ⟨?_, ?_, ?_, fun line col => offset_eq_error, fun _ _ _ _ _ _ => offset_mono⟩
  · intro o hzero hlength
    obtain ⟨before, left, right, after, hcut, ho, hcount⟩ :=
      exists_cut_of_offset (b := t.contents) (o := o.toInt.toNat) (by rw [length] at hlength; omega)
    have hline := index_lt_lineCount hcut
    have hfits := fits.lines
    have hcol : o.toInt.toNat - before.length = left.length := by omega
    rw [← hcount]
    refine ⟨before.length, ho ▸ hcut.isStartFor, ?_⟩
    rw [hcol]
    constructor
    · rw [position_of_cut hcut (by omega), Nat.add_comm]
    · rw [ho]
      apply offset_position_of_cut hcut
      · rw [Int64.toInt_ofNat_of_lt (by omega)]
        omega
      · exact Int64.toInt_ofNat_of_lt (by have := fits.length; omega)
  · intro o houtside
    refine ⟨.offsetOutside o t.length, ?_⟩
    rw [position, if_pos]
    rw [Int64.lt_iff_toInt_lt, Int64.toInt_zero]
    omega
  · intro line col hfirst hlast hcol
    obtain ⟨before, piece, after, hcut, hindex⟩ :=
      exists_cut_of_index (b := t.contents) (i := line.toInt.toNat - 1)
        (by rw [lineCount_eq] at hlast; omega)
    have hline : line.toInt = before.count newline + 1 := by omega
    have hoffset := offset_of_cut hcut hline hcol
    obtain ⟨k, hk⟩ : ∃ k, min col.toInt.toNat (piece.dropEnd "\r").length = k := ⟨_, rfl⟩
    have hlength := Bytes.length_dropEnd_le piece "\r"
    have hleft : (piece.take k).length = k := by
      rw [List.length_take]
      omega
    rw [hk] at hoffset
    have hin := offset_le_length hoffset
    have hword := Int64.toInt_ofNat_of_lt (Nat.lt_of_le_of_lt hin fits.length)
    have hstart := (hcut.divide k).isStartFor
    rw [hleft] at hstart
    refine ⟨_, before.length, _, piece, hoffset, hin, line_of_cut hcut hline, ?_, ?_, hstart,
      slice_of_cut hcut, ?_, rfl⟩
    · rw [hk, position_of_cut (hcut.divide k) (by rw [hleft, hword]; omega), hleft]
      congr 2
      omega
    · rw [offset_of_cut hcut hline (by decide)]
      simp
    · rw [← hindex]
      exact hcut.getElem?_split

/-- The offset between the two bytes of a line end has the position after the carriage return,
and that has the offset before it. -/
theorem position_offset_of_lineEnd :
    (Text.mk "a\r\nb").Fits ∧
      ∃ start, IsStartFor "a\r\nb" 2 start ∧
        (Text.mk "a\r\nb").position 2 = .ok (1, 2 - start) ∧
        (Text.mk "a\r\nb").offset 1 (.ofNat (2 - start)) = .ok 1 :=
  have fits : (Text.mk "a\r\nb").Fits := ⟨by decide, by decide⟩
  ⟨fits, (position_offset_inverse _ fits).1 2 (by decide) (by decide)⟩

end Text

end MerlinBridge
