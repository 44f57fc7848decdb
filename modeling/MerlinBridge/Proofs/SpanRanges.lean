import MerlinBridge.Proofs.LinePositions
import MerlinBridge.Proofs.QuickFixCommand

/-!
# Ranges agree with their spans

A range says where a span stands in a text twice, by lines and columns and by an offset with a
length. `Range.Places` says that both are the same place: the offset is that of the start, and the
length reaches the offset of the end, or is zero if the end comes before the start. On one line the
bytes of the range are the line cut at the two columns, each taken as the end of the line if it is
past that. A span has a range if both its positions stand on lines of the text.

A usage is shown with a range and the text of a line, so the two agree.
-/

namespace MerlinBridge

namespace Pos

def OnLine (t : Text) (p : Pos) : Prop :=
  1 ≤ p.line.toInt ∧ p.line.toInt ≤ t.lineCount ∧ 0 ≤ p.col.toInt

/-- The position is not after `q`, by lines first and then by columns. -/
def NotAfter (p q : Pos) : Prop :=
  p.line < q.line ∨ p.line = q.line ∧ p.col ≤ q.col

instance (p q : Pos) : Decidable (p.NotAfter q) :=
  inferInstanceAs (Decidable (_ ∨ _))

theorem notAfter_of_not {p q : Pos} (h : ¬ p.NotAfter q) : q.NotAfter p := by
  simp only [NotAfter, Int64.lt_iff_toInt_lt, Int64.le_iff_toInt_le, ← Int64.toInt_inj] at h ⊢
  omega

end Pos

namespace Text

/-- A column of a line, or the end of the line if the column is past that. -/
def clamp (line : Bytes) (col : Int64) : Nat :=
  min col.toInt.toNat line.length

def between (line : Bytes) (left right : Int64) : Bytes :=
  slice ⟨line⟩ (clamp line left) (clamp line right)

theorem exists_offset_iff {t : Text} {p : Pos} :
    (∃ o, t.offset p.line p.col = .ok o) ↔ p.OnLine t := by
  constructor
  · rintro ⟨o, ho⟩
    obtain ⟨i, hindex, hcol, -⟩ := offset_eq_ok_iff.mp ho
    obtain ⟨hi, hline⟩ := index_eq_ok_iff.mp hindex
    rw [Int64.le_iff_toInt_le, Int64.toInt_zero] at hcol
    exact ⟨by omega, by omega, hcol⟩
  · rintro ⟨hfirst, hlast, hcol⟩
    have hindex : t.index p.line = .ok (p.line.toInt.toNat - 1) :=
      index_eq_ok_iff.mpr ⟨by omega, by omega⟩
    rw [← Int64.toInt_zero, ← Int64.le_iff_toInt_le] at hcol
    exact ⟨_, offset_eq_ok_iff.mpr ⟨_, hindex, hcol, rfl⟩⟩

/-- A slice of a piece of the text is a slice of the text. -/
theorem slice_add_add {t : Text} {start : Nat} {piece : Bytes}
    (h : (t.contents.drop start).take piece.length = piece) {a b : Nat} (hb : b ≤ piece.length) :
    t.slice (start + a) (start + b) = slice ⟨piece⟩ a b := by
  have hlength : start + b - (start + a) = min (b - a) (piece.length - a) := by omega
  calc t.slice (start + a) (start + b)
    _ = ((t.contents.drop (start + a)).take (piece.length - a)).take (b - a) := by
        rw [slice, List.take_take, hlength]
    _ = (((t.contents.drop start).take piece.length).drop a).take (b - a) := by
        rw [List.drop_take, List.drop_drop]
    _ = slice ⟨piece⟩ a b := by rw [h, slice]

/-- Between two positions of one line stands a part of the line. -/
theorem slice_offset_offset {t : Text} {line left right : Int64} {start stop : Nat}
    (hstart : t.offset line left = .ok start) (hstop : t.offset line right = .ok stop) :
    ∃ written, t.line line = .ok written ∧ t.slice start stop = between written left right := by
  obtain ⟨i, hindex, hleft, -⟩ := offset_eq_ok_iff.mp hstart
  obtain ⟨-, -, hright, -⟩ := offset_eq_ok_iff.mp hstop
  obtain ⟨hi, hline⟩ := index_eq_ok_iff.mp hindex
  rw [Int64.le_iff_toInt_le, Int64.toInt_zero] at hleft hright
  obtain ⟨before, piece, after, hcut, rfl⟩ := exists_cut_of_index (b := t.contents) (i := i)
    (by rw [lineCount_eq] at hi; omega)
  rw [offset_of_cut hcut hline hleft] at hstart
  rw [offset_of_cut hcut hline hright] at hstop
  obtain rfl := Except.ok.inj hstart
  obtain rfl := Except.ok.inj hstop
  exact ⟨_, line_of_cut hcut hline, slice_add_add (slice_of_cut hcut) (Nat.min_le_right _ _)⟩

end Text

namespace Range

structure Places (t : Text) (s : Span) (r : Range) : Prop where
  within : r.Within t.length
  start : t.offset s.start.line s.start.col = .ok r.pos.toInt.toNat
  forward : s.start.NotAfter s.stop →
    t.offset s.stop.line s.stop.col = .ok (r.pos.toInt + r.length.toInt).toNat
  backward : ¬ s.start.NotAfter s.stop → r.length = 0
  oneLine : s.start.line = s.stop.line → s.start.col ≤ s.stop.col →
    ∃ written, t.line s.start.line = .ok written ∧
      t.slice r.pos.toInt.toNat (r.pos.toInt + r.length.toInt).toNat =
        Text.between written s.start.col s.stop.col

theorem ofSpan_eq_ok_iff {t : Text} {s : Span} {r : Range} :
    ofSpan t s = .ok r ↔
      ∃ start stop, t.offset s.start.line s.start.col = .ok start ∧
        t.offset s.stop.line s.stop.col = .ok stop ∧
        r = ⟨s.start.line, s.start.col + 1, s.stop.line, s.stop.col + 1, .ofNat start,
          .ofNat (stop - start)⟩ := by
  unfold ofSpan
  cases t.offset s.start.line s.start.col with
  | error e => simp
  | ok start =>
      cases t.offset s.stop.line s.stop.col with
      | error e => simp
      | ok stop => simp [eq_comm]

theorem exists_ofSpan_iff {t : Text} {s : Span} :
    (∃ r, ofSpan t s = .ok r) ↔ s.start.OnLine t ∧ s.stop.OnLine t := by
  rw [← Text.exists_offset_iff, ← Text.exists_offset_iff]
  constructor
  · rintro ⟨r, hr⟩
    obtain ⟨start, stop, hstart, hstop, -⟩ := ofSpan_eq_ok_iff.mp hr
    exact ⟨⟨start, hstart⟩, ⟨stop, hstop⟩⟩
  · rintro ⟨⟨start, hstart⟩, ⟨stop, hstop⟩⟩
    exact ⟨_, ofSpan_eq_ok_iff.mpr ⟨start, stop, hstart, hstop, rfl⟩⟩

theorem places_of_ofSpan {t : Text} {s : Span} {r : Range} (fits : t.length < 2 ^ 63)
    (h : ofSpan t s = .ok r) : Places t s r := by
  have hwithin := (within_ofSpan fits h).1
  obtain ⟨start, stop, hstart, hstop, rfl⟩ := ofSpan_eq_ok_iff.mp h
  have hstartLe := Text.offset_le_length hstart
  have hstopLe := Text.offset_le_length hstop
  have hpos : (Int64.ofNat start).toInt = start := Int64.toInt_ofNat_of_lt (by omega)
  have hlength : (Int64.ofNat (stop - start)).toInt = (stop - start : Nat) :=
    Int64.toInt_ofNat_of_lt (by omega)
  -- Offsets follow the order of positions, so the difference is cut off at zero only if the end
  -- comes before the start.
  have hend : s.start.NotAfter s.stop →
      ((Int64.ofNat start).toInt + (Int64.ofNat (stop - start)).toInt).toNat = stop := by
    intro horder
    have hle := Text.offset_mono hstart hstop horder
    rw [hpos, hlength]
    omega
  refine ⟨hwithin, ?_, ?_, ?_, ?_⟩
  · simp only [hpos, Int.toNat_natCast, hstart]
  · intro horder
    simp only [hend horder, hstop]
  · intro horder
    have hle := Text.offset_mono hstop hstart (Pos.notAfter_of_not horder)
    simp only [Nat.sub_eq_zero_of_le hle]
    rfl
  · intro hline hcols
    have hslice := Text.slice_offset_offset hstart (hline ▸ hstop)
    rw [← hend (Or.inr ⟨hline, hcols⟩)] at hslice
    simpa only [hpos, Int.toNat_natCast] using hslice

end Range

/-! ## Usages -/

/-- The line of a usage is the one where its range starts, and a range on that line is the line
cut at its columns, counted from zero. -/
structure Usage.Agrees (t : Text) (u : Usage) : Prop where
  line : t.line u.range.startLine = .ok u.lineText
  oneLine : u.range.startLine = u.range.endLine → u.range.startCol - 1 ≤ u.range.endCol - 1 →
    t.slice u.range.pos.toInt.toNat (u.range.pos.toInt + u.range.length.toInt).toNat =
      Text.between u.lineText (u.range.startCol - 1) (u.range.endCol - 1)

namespace Bridge

theorem range_usageOf? (r : Request) (s : Span) :
    (usageOf? r s).map Usage.range = (Range.ofSpan r.snapshot s).toOption := by
  unfold usageOf?
  cases Range.ofSpan r.snapshot s <;> rfl

theorem agrees_of_usageOf? {r : Request} {s : Span} {u : Usage} (fits : r.snapshot.length < 2 ^ 63)
    (h : usageOf? r s = some u) : u.Agrees r.snapshot := by
  unfold usageOf? at h
  split at h
  · rename_i range hrange
    obtain rfl := Option.some.inj h
    have hplaces := Range.places_of_ofSpan fits hrange
    obtain ⟨start, stop, hstart, -, rfl⟩ := Range.ofSpan_eq_ok_iff.mp hrange
    obtain ⟨written, hline, -⟩ := Text.slice_offset_offset hstart hstart
    simp only [hline, Except.toOption, Option.getD_some]
    refine ⟨hline, ?_⟩
    simp only [Int64.add_sub_cancel]
    intro hlines hcols
    obtain ⟨written', hline', hslice⟩ := hplaces.oneLine hlines hcols
    rw [hline] at hline'
    obtain rfl := Except.ok.inj hline'
    exact hslice
  · cases h

theorem hostCalls_applyUsages (b : Bridge) (r : Request) {v : Option Json}
    {p : Payload.Occurrences} (h : Payload.Occurrences.ofJson v = .ok p) :
    (b.applyUsages r v).1.hostCalls =
      b.hostCalls ++ [.usages (p.spans.filterMap (usageOf? r))] := by
  have hperforms := congrArg Outside.calls (applyUsages_performs b r v).outside
  simp only [Effect.ofUsages, h] at hperforms
  exact hperforms

end Bridge

namespace Range

/-- A span has a range if both its positions stand on lines of the text, and the range is its
place there. The usages that are shown have the ranges of the spans that have one, in order, and
the line of each agrees with its range. -/
theorem ofSpan_places_and_usages_agree :
    (∀ (t : Text) (s : Span), (∃ r, ofSpan t s = .ok r) ↔ s.start.OnLine t ∧ s.stop.OnLine t) ∧
    (∀ (t : Text) (s : Span) (r : Range), t.length < 2 ^ 63 → ofSpan t s = .ok r → Places t s r) ∧
    ∀ (b : Bridge) (r : Request) (v : Option Json) (p : Payload.Occurrences),
      Payload.Occurrences.ofJson v = .ok p → r.snapshot.length < 2 ^ 63 →
        ∃ us, (b.applyUsages r v).1.hostCalls = b.hostCalls ++ [.usages us] ∧
          us.map Usage.range = p.spans.filterMap (fun s => (ofSpan r.snapshot s).toOption) ∧
          ∀ u ∈ us, u.Agrees r.snapshot := by
  refine ⟨fun t s => exists_ofSpan_iff, fun t s r => places_of_ofSpan, ?_⟩
  intro b r v p hreply hfits
  refine ⟨_, b.hostCalls_applyUsages r hreply, ?_, ?_⟩
  · simp only [List.map_filterMap, Bridge.range_usageOf?]
  · intro u hu
    obtain ⟨s, -, hs⟩ := List.mem_filterMap.mp hu
    exact Bridge.agrees_of_usageOf? hfits hs

def crossedPage : Document where
  id := 0
  path := "a.ml"
  revision := 0
  text := "ab\r\ncd"

/-- A column past the end of a line stands for the end, which is before the carriage return; a span
that goes backwards is empty; and the usage at the first of the two has the line `ab`. -/
theorem places_of_lineEnd_and_reversed :
    (∃ r, ofSpan ⟨crossedPage.text⟩ ⟨⟨1, 1⟩, ⟨1, 9⟩⟩ = .ok r ∧ r.pos = 1 ∧ r.length = 1 ∧
      Places ⟨crossedPage.text⟩ ⟨⟨1, 1⟩, ⟨1, 9⟩⟩ r) ∧
    (∃ r, ofSpan ⟨crossedPage.text⟩ ⟨⟨2, 1⟩, ⟨1, 0⟩⟩ = .ok r ∧ r.pos = 5 ∧ r.length = 0 ∧
      Places ⟨crossedPage.text⟩ ⟨⟨2, 1⟩, ⟨1, 0⟩⟩ r) ∧
    ∃ us, ((Bridge.new World.brittle false).applyUsages (.build 0 (.usages 1 1) (some crossedPage))
        (some (Console.fixEntry "1" "9" []))).1.hostCalls = [.usages us] ∧ us.length = 1 ∧
      ∀ u ∈ us, u.lineText = "ab" ∧ u.Agrees ⟨crossedPage.text⟩ := by
  obtain ⟨-, hplaces, husages⟩ := ofSpan_places_and_usages_agree
  have hforward : ofSpan ⟨crossedPage.text⟩ ⟨⟨1, 1⟩, ⟨1, 9⟩⟩ = .ok ⟨1, 2, 1, 10, 1, 1⟩ := by decide
  have hbackward : ofSpan ⟨crossedPage.text⟩ ⟨⟨2, 1⟩, ⟨1, 0⟩⟩ = .ok ⟨2, 2, 1, 1, 5, 0⟩ := by decide
  have hreply : Payload.Occurrences.ofJson (some (Console.fixEntry "1" "9" [])) =
      .ok ⟨[⟨⟨1, 1⟩, ⟨1, 9⟩⟩], []⟩ := by decide +kernel
  have hline : Text.line ⟨crossedPage.text⟩ 1 = .ok "ab" := by decide
  refine ⟨⟨_, hforward, rfl, rfl, hplaces _ _ _ (by decide) hforward⟩,
    ⟨_, hbackward, rfl, rfl, hplaces _ _ _ (by decide) hbackward⟩, ?_⟩
  obtain ⟨us, hcalls, hranges, hagree⟩ := husages (Bridge.new World.brittle false)
    (.build 0 (.usages 1 1) (some crossedPage)) _ _ hreply (by decide)
  have hranges' : us.map Usage.range = [⟨1, 2, 1, 10, 1, 1⟩] := hranges
  refine ⟨us, hcalls, by simpa using congrArg List.length hranges', ?_⟩
  intro u hu
  have hstart : u.range.startLine = 1 := by
    have hrange : u.range ∈ us.map Usage.range := List.mem_map_of_mem hu
    rw [hranges', List.mem_singleton] at hrange
    rw [hrange]
  have hwritten := (hagree u hu).line
  rw [hstart] at hwritten
  exact ⟨(Except.ok.inj (hline.symm.trans hwritten)).symm, hagree u hu⟩

end Range

end MerlinBridge
