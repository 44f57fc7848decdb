import Mathlib.Data.List.TakeWhile
import MerlinBridge.Duration
import MerlinBridge.Proofs.ExactDoubles
import MerlinBridge.Proofs.Numerals

/-!
# Durations are read back

A duration that is written is read as that duration (`parse_text`), from one end of the
range to the other. What is written is a list of numbers with their units, each of them
read for what it stands for (`Part`). The decimals of a number are a fraction of a unit
that is itself a power of ten, so working them out in double precision is exact: both
factors and their product are integers that a double can hold.
-/

namespace MerlinBridge

namespace Decimal

theorem le_valueFrom (acc : Nat) (ds : Bytes) : acc ≤ valueFrom acc ds := by
  induction ds generalizing acc with
  | nil => exact Nat.le_refl acc
  | cons d ds ih =>
      rw [valueFrom_cons]
      have := ih (acc * 10 + (d.toNat - 48))
      omega

theorem valueFrom_append (acc : Nat) (a b : Bytes) :
    valueFrom acc (a ++ b) = valueFrom (valueFrom acc a) b := by
  simp only [valueFrom, List.foldl_append]

theorem valueFrom_zeros (acc k : Nat) :
    valueFrom acc (List.replicate k (Bytes.byte '0')) = acc * tenTo k := by
  induction k generalizing acc with
  | zero => simp [valueFrom]
  | succ k ih =>
      have hzero : (Bytes.byte '0').toNat - 48 = 0 := by decide
      rw [List.replicate_succ, valueFrom_cons, ih, hzero, tenTo_succ]
      simp only [Nat.add_zero]
      ac_rfl

theorem length_digitsOnto_le {fuel n k : Nat} {ds : Bytes} (h : n < tenTo (k + 1)) :
    (digitsOnto fuel n ds).length ≤ k + 1 + ds.length := by
  induction fuel generalizing n k ds with
  | zero => exact Nat.le_add_left _ _
  | succ fuel ih =>
      unfold digitsOnto
      split
      · simp only [List.length_cons]
        omega
      · rename_i hlarge
        cases k with
        | zero => exact absurd h (by simpa [tenTo_succ] using hlarge)
        | succ k =>
            rw [tenTo_succ] at h
            have hle : (digitsOnto fuel (n / 10) (digit (n % 10) :: ds)).length ≤
                k + 1 + (digit (n % 10) :: ds).length := ih (by omega)
            simp only [List.length_cons] at hle
            omega

end Decimal

namespace Duration

theorem whole?_eq {ds : Bytes} {acc : Nat} (h : Decimal.valueFrom acc ds ≤ 0x8000000000000000) :
    whole? ds acc = some (Decimal.valueFrom acc ds) := by
  induction ds generalizing acc with
  | nil => rfl
  | cons d ds ih =>
      rw [Decimal.valueFrom_cons] at h
      have hle := Decimal.le_valueFrom (acc * 10 + (d.toNat - 48)) ds
      rw [whole?, if_neg (by omega), Decimal.valueFrom_cons]
      simp only
      rw [if_neg (by omega), ih h]

theorem tenTo_lt {j : Nat} (h : j ≤ 9) : tenTo j < 2 ^ 53 := by
  calc tenTo j ≤ tenTo 9 := Nat.pow_le_pow_right (by decide) h
    _ < 2 ^ 53 := by decide

/-- As long as there are no more than nine digits, the scale is exact. -/
theorem fractionDigits_eq {ds : Bytes} {acc j : Nat} {scale : Binary64}
    (hscale : scale.IsNat (tenTo j)) (few : j + ds.length ≤ 9)
    (h : Decimal.valueFrom acc ds < 0x8000000000000000) :
    ∃ scale', fractionDigits ds acc scale = (Decimal.valueFrom acc ds, scale') ∧
      scale'.IsNat (tenTo (j + ds.length)) := by
  induction ds generalizing acc j scale with
  | nil => exact ⟨scale, rfl, hscale⟩
  | cons d ds ih =>
      rw [Decimal.valueFrom_cons] at h ⊢
      rw [List.length_cons] at few
      have hle := Decimal.le_valueFrom (acc * 10 + (d.toNat - 48)) ds
      have hten : tenTo j * 10 < 2 ^ 53 := tenTo_lt (j := j + 1) (by omega)
      have hnext := hscale.mul (Binary64.isNat_ofNat (n := 10) (by decide))
        (Binary64.isRepresentable_of_lt hten) (by omega)
      obtain ⟨scale', hdigits, hscale'⟩ := ih (j := j + 1) hnext (by omega) h
      refine ⟨scale', ?_, ?_⟩
      · rw [fractionDigits, if_neg (by omega)]
        simp only
        rw [if_neg (by omega), hdigits]
      · rwa [List.length_cons, Nat.add_comm ds.length, ← Nat.add_assoc]

theorem value_padded (k n : Nat) :
    Decimal.value (List.replicate k (Bytes.byte '0') ++ Decimal.ofNat n) = n := by
  rw [Decimal.value, Decimal.valueFrom_append, Decimal.valueFrom_zeros, Nat.zero_mul]
  exact Decimal.value_ofNat n

/-- Zeros at the end of a run of digits are a power of ten. -/
theorem exists_trailing_zeros (ds : Bytes) :
    ∃ zeros, (ds.reverse.dropWhile (· = Bytes.byte '0')).reverse ++
      List.replicate zeros (Bytes.byte '0') = ds := by
  refine ⟨(ds.reverse.takeWhile (· = Bytes.byte '0')).length, ?_⟩
  have hzeros : ds.reverse.takeWhile (· = Bytes.byte '0') =
      List.replicate (ds.reverse.takeWhile (· = Bytes.byte '0')).length (Bytes.byte '0') := by
    refine List.eq_replicate_iff.mpr ⟨rfl, fun d hd => ?_⟩
    simpa using List.mem_takeWhile_imp hd
  calc (ds.reverse.dropWhile (· = Bytes.byte '0')).reverse ++ List.replicate _ (Bytes.byte '0')
      = (ds.reverse.dropWhile (· = Bytes.byte '0')).reverse ++
          (ds.reverse.takeWhile (· = Bytes.byte '0')).reverse := by
        rw [← List.reverse_replicate, ← hzeros]
    _ = ds := by
        rw [← List.reverse_append, List.takeWhile_append_dropWhile, List.reverse_reverse]

/-- What is written after the point are digits that stand for the fraction, and nothing is
written if there are none. -/
theorem fraction_cases (n places : Nat) :
    ∃ kept zeros, kept.length + zeros = places ∧ (∀ d ∈ kept, Bytes.isDigit d = true) ∧
      n % tenTo places = Decimal.value kept * tenTo zeros ∧
      fraction n places = if kept = [] then [] else Bytes.byte '.' :: kept := by
  cases places with
  | zero => exact ⟨[], 0, rfl, nofun, Nat.mod_one n, by simp [fraction]⟩
  | succ places =>
      let digits := Decimal.ofNat (n % tenTo (places + 1))
      let padded := List.replicate (places + 1 - digits.length) (Bytes.byte '0') ++ digits
      have hdigits : digits.length ≤ places + 1 :=
        Decimal.length_digitsOnto_le (Nat.mod_lt n (tenTo_pos _))
      have hlength : padded.length = places + 1 := by
        simp only [padded, List.length_append, List.length_replicate]
        omega
      have hall : ∀ d ∈ padded, Bytes.isDigit d = true := by
        intro d hd
        rcases List.mem_append.mp hd with hd | hd
        · rw [List.eq_of_mem_replicate hd]
          decide
        · exact Decimal.isDigit_of_mem_ofNat hd
      obtain ⟨zeros, hpadded⟩ := exists_trailing_zeros padded
      refine ⟨(padded.reverse.dropWhile (· = Bytes.byte '0')).reverse, zeros, ?_, ?_, ?_, ?_⟩
      · rw [← hlength, ← congrArg List.length hpadded, List.length_append, List.length_replicate]
      · intro d hd
        apply hall
        rw [← hpadded]
        exact List.mem_append_left _ hd
      · rw [← Decimal.valueFrom_zeros, Decimal.value, ← Decimal.valueFrom_append, hpadded]
        exact (value_padded _ _).symm
      · simp only [fraction, Nat.add_one_ne_zero, false_or]
        rfl

/-- The part of a unit that decimals stand for is worked out exactly if the unit is a power of
ten with that many zeros. -/
theorem fractionOf_eq {f j z : Nat} {scale : Binary64} (hscale : scale.IsNat (tenTo j))
    (few : z + j ≤ 9) (h : f * tenTo z < 2 ^ 53) :
    fractionOf f scale (tenTo (z + j)) = f * tenTo z := by
  have hten : tenTo (z + j) = tenTo z * tenTo j := Nat.pow_add 10 z j
  have hzeros : tenTo z < 2 ^ 53 := tenTo_lt (by omega)
  have hf : f < 2 ^ 53 := Nat.lt_of_le_of_lt (Nat.le_mul_of_pos_right f (tenTo_pos z)) h
  have hunit := Binary64.isNat_ofNat (tenTo_lt few)
  rw [hten] at hunit
  have hquotient := hunit.div hscale (tenTo_pos j) (Binary64.isRepresentable_of_lt hzeros)
    (by omega)
  have hproduct := (Binary64.isNat_ofNat hf).mul hquotient (Binary64.isRepresentable_of_lt h)
    (by omega)
  rw [fractionOf, hten, hproduct.floor?]
  rfl

/-! ## Numbers with their units -/

/-- A number with a unit, as it is written: a whole number, and of `rest` the decimals. -/
structure Part where
  whole : Nat
  rest : Nat
  places : Nat
  name : Bytes
  unit : Nat

namespace Part

def text (t : Part) : Bytes :=
  Decimal.ofNat t.whole ++ fraction t.rest t.places ++ t.name

def value (t : Part) : Nat :=
  t.whole * t.unit + t.rest % tenTo t.places

def units : List (Bytes × Nat) :=
  [("ns", 1), ("µs", microsecond), ("ms", millisecond), ("s", second), ("m", minute), ("h", hour)]

/-- The name is that of the unit, and if there are decimals, then the last of them is a
nanosecond. -/
structure Good (t : Part) : Prop where
  named : (t.name, t.unit) ∈ units
  decimals : t.places = 0 ∨ t.unit = tenTo t.places
  few : t.places ≤ 9

end Part

theorem of_mem_units {name : Bytes} {unit : Nat} (h : (name, unit) ∈ Part.units) :
    unit? name = some unit ∧ name ≠ [] ∧ (∀ b ∈ name, isNumeric b = false) ∧ 0 < unit := by
  have hall : ∀ u ∈ Part.units, unit? u.1 = some u.2 ∧ u.1 ≠ [] ∧ u.1.any isNumeric = false ∧
      0 < u.2 := by decide
  obtain ⟨hunit, hne, hany, hpos⟩ := hall _ h
  exact ⟨hunit, hne, fun b hb => by simpa using List.any_eq_false.mp hany b hb, hpos⟩

/-- A number, with decimals or without, and a unit are read together. -/
theorem term_append (input : Bytes) {digits kept name rest : Bytes} {v unit : Nat}
    (hdigits : ∀ d ∈ digits, Bytes.isDigit d = true) (hne : digits ≠ [])
    (hwhole : whole? digits 0 = some v) (hkept : ∀ d ∈ kept, Bytes.isDigit d = true)
    (named : (name, unit) ∈ Part.units)
    (hrest : ∀ b, rest.head? = some b → isNumeric b = true) {f n : Nat} {scale : Binary64}
    (hscale : fractionDigits kept 0 (.ofNat 1) = (f, scale))
    (hn : n = v * unit + if f = 0 then 0 else fractionOf f scale unit)
    (hbound : n ≤ 0x8000000000000000) :
    term input (digits ++ (if kept = [] then [] else Bytes.byte '.' :: kept) ++ name ++ rest) =
      .ok (n, rest) := by
  obtain ⟨hunit, hname, hletters, hpos⟩ := of_mem_units named
  have hletter : ∀ b ∈ name, Bytes.isDigit b = false ∧ b ≠ Bytes.byte '.' := by
    intro b hb
    have := hletters b hb
    simpa [isNumeric, and_comm] using this
  have hstart : ∀ b, (name ++ rest).head? = some b → b ∈ name := by
    intro b hb
    cases name with
    | nil => exact absurd rfl hname
    | cons c name =>
        obtain rfl : c = b := by simpa using hb
        exact List.mem_cons_self
  have hunitName := Bytes.takeWhile_dropWhile_append (p := (!isNumeric ·)) (a := name) (b := rest)
    (fun b hb => by simp [hletters b hb]) (fun b hb => by simp [hrest b hb])
  have hfits : ¬ 0x8000000000000000 / unit < v := by
    rw [Nat.not_lt, Nat.le_div_iff_mul_le hpos]
    omega
  have hlast : ¬ (f ≠ 0 ∧ 0x8000000000000000 < n) := fun h => absurd h.2 (by omega)
  by_cases hempty : kept = []
  · have hsplit := Bytes.takeWhile_dropWhile_append (p := Bytes.isDigit) (b := name ++ rest) hdigits
      (fun b hb => (hletter b (hstart b hb)).1)
    have hpoint : (name ++ rest).head? ≠ some (Bytes.byte '.') :=
      fun hb => (hletter _ (hstart _ hb)).2 rfl
    subst hempty
    simp only [if_true, List.append_nil, List.append_assoc, term, hsplit, hwhole, hpoint, if_false,
      hne, false_and, hunitName, hname, hunit, hfits, hscale, ← hn, hlast]
    rfl
  · have hsplit := Bytes.takeWhile_dropWhile_append (p := Bytes.isDigit)
      (b := Bytes.byte '.' :: (kept ++ (name ++ rest))) hdigits
      (fun b hb => by obtain rfl : Bytes.byte '.' = b := by simpa using hb
                      decide)
    have hplaces := Bytes.takeWhile_dropWhile_append (p := Bytes.isDigit) (b := name ++ rest) hkept
      (fun b hb => (hletter b (hstart b hb)).1)
    simp only [if_neg hempty, List.append_assoc, List.cons_append, term, hsplit, hwhole,
      List.head?_cons, if_true, List.drop_succ_cons, List.drop_zero, hplaces, if_false,
      hne, false_and, hunitName, hname, hunit, hfits, hscale, ← hn, hlast]
    rfl

/-- A part is read for what it stands for, whatever part follows. -/
theorem term_part (input : Bytes) {t : Part} (h : t.Good) (hbound : t.value ≤ 0x8000000000000000)
    {rest : Bytes} (hrest : ∀ b, rest.head? = some b → isNumeric b = true) :
    term input (t.text ++ rest) = .ok (t.value, rest) := by
  obtain ⟨w, n, places, name, unit⟩ := t
  obtain ⟨named, decimals, few⟩ := h
  obtain ⟨kept, zeros, hlength, hkept, hfraction, htext⟩ := fraction_cases n places
  simp only [Part.value] at hbound decimals few ⊢
  have hsmall : Decimal.value kept * tenTo zeros < 2 ^ 53 := by
    calc Decimal.value kept * tenTo zeros = n % tenTo places := hfraction.symm
      _ < tenTo places := Nat.mod_lt n (tenTo_pos places)
      _ < 2 ^ 53 := tenTo_lt few
  have hwhole : whole? (Decimal.ofNat w) 0 = some w := by
    have hvalue : Decimal.valueFrom 0 (Decimal.ofNat w) = w := Decimal.value_ofNat w
    have hle : w ≤ w * unit := Nat.le_mul_of_pos_right w (of_mem_units named).2.2.2
    rw [whole?_eq (by omega), hvalue]
  obtain ⟨scale, hdigits, hscale⟩ : ∃ scale,
      fractionDigits kept 0 (.ofNat 1) = (Decimal.value kept, scale) ∧
        scale.IsNat (tenTo kept.length) := by
    have hle : Decimal.value kept ≤ Decimal.value kept * tenTo zeros :=
      Nat.le_mul_of_pos_right _ (tenTo_pos zeros)
    have hvalue : Decimal.valueFrom 0 kept < 0x8000000000000000 :=
      Nat.lt_trans (Nat.lt_of_le_of_lt hle hsmall) (by decide)
    have hone := Binary64.isNat_ofNat (tenTo_lt (Nat.zero_le 9))
    have hdigits := fractionDigits_eq hone (by omega) hvalue
    rwa [Nat.zero_add] at hdigits
  have hpart : n % tenTo places =
      if Decimal.value kept = 0 then 0
      else fractionOf (Decimal.value kept) scale unit := by
    by_cases hzero : Decimal.value kept = 0
    · rw [if_pos hzero, hfraction, hzero, Nat.zero_mul]
    · have hplaces : places ≠ 0 := by
        rintro rfl
        have hnil : kept = [] := List.length_eq_zero_iff.mp (by omega)
        exact hzero (by rw [hnil]; rfl)
      have hunit : unit = tenTo (zeros + kept.length) := by
        rw [decimals.resolve_left hplaces, ← hlength, Nat.add_comm]
      rw [if_neg hzero, hunit, fractionOf_eq hscale (by omega) hsmall, hfraction]
  rw [Part.text, htext]
  exact term_append input (fun d hd => Decimal.isDigit_of_mem_ofNat hd) (Decimal.ofNat_ne_nil w)
    hwhole hkept named hrest hdigits (by rw [← hpart]) hbound

theorem Part.exists_text_cons (t : Part) :
    ∃ c tail, t.text = c :: tail ∧ isNumeric c = true := by
  cases hdigits : Decimal.ofNat t.whole with
  | nil => exact absurd hdigits (Decimal.ofNat_ne_nil _)
  | cons c tail =>
      have hc : Bytes.isDigit c = true :=
        Decimal.isDigit_of_mem_ofNat (by rw [hdigits]; exact List.mem_cons_self)
      exact ⟨c, tail ++ fraction t.rest t.places ++ t.name, by rw [Part.text, hdigits]; rfl,
        by simp [isNumeric, hc]⟩

/-- Parts are added up as long as the sum is no more than 2^63. -/
theorem sum_parts (input : Bytes) {ts : List Part} (hgood : ∀ t ∈ ts, t.Good) {fuel acc : Nat}
    (hfuel : ts.length ≤ fuel) (hbound : acc + (ts.map Part.value).sum ≤ 0x8000000000000000) :
    sum input fuel (ts.flatMap Part.text) acc = .ok (acc + (ts.map Part.value).sum) := by
  induction ts generalizing fuel acc with
  | nil => simp [sum]
  | cons t ts ih =>
      obtain ⟨ht, hts⟩ := List.forall_mem_cons.mp hgood
      simp only [List.map_cons, List.sum_cons] at hbound ⊢
      have hrest : ∀ b, (ts.flatMap Part.text).head? = some b → isNumeric b = true := by
        intro b hb
        cases ts with
        | nil => cases hb
        | cons u ts =>
            obtain ⟨c, tail, htext, hc⟩ := u.exists_text_cons
            rw [List.flatMap_cons, htext] at hb
            obtain rfl : c = b := by simpa using hb
            exact hc
      have hterm := term_part input ht (by omega) hrest
      obtain ⟨c, tail, htext, hc⟩ := t.exists_text_cons
      cases fuel with
      | zero => exact absurd hfuel (by simp)
      | succ fuel =>
          have htotal : (acc + t.value) % 0x10000000000000000 = acc + t.value :=
            Nat.mod_eq_of_lt (by omega)
          have hfits : ¬ 0x8000000000000000 < acc + t.value := by omega
          rw [List.flatMap_cons, htext, List.cons_append, sum.eq_def]
          rw [htext, List.cons_append] at hterm
          simp only [hc, Bool.not_true, Bool.false_eq_true, if_false, hterm, bind, Except.bind,
            htotal, hfits]
          rw [← Nat.add_assoc]
          exact ih hts (by simpa using hfuel) (by omega)

/-! ## The text of a duration -/

def AddsUpTo (s : Bytes) (n : Nat) : Prop :=
  ∃ ts : List Part, ts ≠ [] ∧ (∀ t ∈ ts, t.Good) ∧ s = ts.flatMap Part.text ∧
    (ts.map Part.value).sum = n

theorem addsUpTo_part {w n places unit : Nat} {name : Bytes} (named : (name, unit) ∈ Part.units)
    (decimals : places = 0 ∨ unit = tenTo places) (few : places ≤ 9) :
    AddsUpTo (Decimal.ofNat w ++ fraction n places ++ name) (w * unit + n % tenTo places) := by
  refine ⟨[⟨w, n, places, name, unit⟩], by simp, ?_, by simp [Part.text], by simp [Part.value]⟩
  exact List.forall_mem_singleton.mpr ⟨named, decimals, few⟩

theorem AddsUpTo.append {s : Bytes} {n w unit : Nat} {name : Bytes} (h : AddsUpTo s n)
    (named : (name, unit) ∈ Part.units) :
    AddsUpTo (Decimal.ofNat w ++ name ++ s) (w * unit + n) := by
  obtain ⟨ts, -, hgood, rfl, rfl⟩ := h
  refine ⟨⟨w, 0, 0, name, unit⟩ :: ts, by simp, ?_, ?_, by simp [Part.value]⟩
  · exact List.forall_mem_cons.mpr ⟨⟨named, Or.inl rfl, by simp⟩, hgood⟩
  · simp [Part.text, fraction]

theorem addsUpTo_decimal {n places unit : Nat} {name : Bytes} (named : (name, unit) ∈ Part.units)
    (hunit : unit = tenTo places) (few : places ≤ 9) : AddsUpTo (decimal n places ++ name) n := by
  have hparts : AddsUpTo (decimal n places ++ name) (n / tenTo places * unit + n % tenTo places) :=
    addsUpTo_part named (Or.inr hunit) few
  rwa [hunit, Nat.div_add_mod'] at hparts

theorem addsUpTo_belowSecond (n : Nat) : AddsUpTo (belowSecond n) n := by
  unfold belowSecond
  split
  · rename_i hzero
    have hparts : AddsUpTo (Decimal.ofNat 0 ++ fraction 0 0 ++ "s") (0 * second + 0 % tenTo 0) :=
      addsUpTo_part (by decide) (Or.inl rfl) (by decide)
    rw [hzero]
    exact hparts
  split
  · exact addsUpTo_decimal (by decide) rfl (by decide)
  split
  · exact addsUpTo_decimal (by decide) rfl (by decide)
  · exact addsUpTo_decimal (by decide) rfl (by decide)

theorem split_units (n : Nat) :
    n / minute / 60 * hour +
      (n / minute % 60 * minute + (n / second % 60 * second + n % tenTo 9)) = n := by
  change n / 60000000000 / 60 * 3600000000000 +
    (n / 60000000000 % 60 * 60000000000 + (n / 1000000000 % 60 * 1000000000 + n % 1000000000)) = n
  omega

theorem addsUpTo_fromSecond (n : Nat) : AddsUpTo (fromSecond n) n := by
  have hm : (Bytes.ofString "m", minute) ∈ Part.units := by decide
  have hh : (Bytes.ofString "h", hour) ∈ Part.units := by decide
  have hseconds : AddsUpTo (Decimal.ofNat (n / second % 60) ++ fraction n 9 ++ "s")
      (n / second % 60 * second + n % tenTo 9) :=
    addsUpTo_part (by decide) (Or.inr rfl) (by decide)
  have hsplit := split_units n
  unfold fromSecond
  simp only
  split
  · rename_i hminutes
    rw [hminutes] at hsplit
    simp only [Nat.zero_div, Nat.zero_mod, Nat.zero_mul, Nat.zero_add] at hsplit
    rwa [hsplit] at hseconds
  split
  · rename_i hhours
    have hminutes : AddsUpTo _ (n / minute * minute + _) := hseconds.append hm
    rw [hhours, Nat.mod_eq_of_lt (by omega), Nat.zero_mul, Nat.zero_add] at hsplit
    rwa [hsplit] at hminutes
  · have hhours : AddsUpTo _ (n / minute / 60 * hour + (n / minute % 60 * minute + _)) :=
      (hseconds.append hm).append hh
    rw [hsplit] at hhours
    simpa using hhours

theorem addsUpTo_magnitudeText (n : Nat) : AddsUpTo (magnitudeText n) n := by
  unfold magnitudeText
  split
  · exact addsUpTo_belowSecond n
  · exact addsUpTo_fromSecond n

theorem AddsUpTo.exists_cons {s : Bytes} {n : Nat} (h : AddsUpTo s n) :
    ∃ c tail, s = c :: tail ∧ isNumeric c = true := by
  obtain ⟨ts, hne, -, rfl, -⟩ := h
  cases ts with
  | nil => exact absurd rfl hne
  | cons t ts =>
      obtain ⟨c, tail, htext, hc⟩ := t.exists_text_cons
      exact ⟨c, tail ++ ts.flatMap Part.text, by rw [List.flatMap_cons, htext]; rfl, hc⟩

theorem Part.Good.two_le_length {t : Part} (h : t.Good) : 2 ≤ t.text.length := by
  have hdigits := List.length_pos_iff.mpr (Decimal.ofNat_ne_nil t.whole)
  have hname := List.length_pos_iff.mpr (of_mem_units h.named).2.1
  simp only [Part.text, List.length_append]
  omega

theorem two_mul_length_le {ts : List Part} (h : ∀ t ∈ ts, t.Good) :
    2 * ts.length ≤ (ts.flatMap Part.text).length := by
  induction ts with
  | nil => exact Nat.zero_le _
  | cons t ts ih =>
      obtain ⟨ht, hts⟩ := List.forall_mem_cons.mp h
      have hhead := ht.two_le_length
      have htail := ih hts
      simp only [List.flatMap_cons, List.length_append, List.length_cons]
      omega

theorem AddsUpTo.sum_eq {s : Bytes} {n : Nat} (h : AddsUpTo s n) (input : Bytes)
    (hbound : n ≤ 0x8000000000000000) : sum input s.length s 0 = .ok n := by
  obtain ⟨ts, -, hgood, rfl, rfl⟩ := h
  have hfuel := two_mul_length_le hgood
  rw [sum_parts input hgood (by omega) (by omega), Nat.zero_add]

theorem AddsUpTo.ne_zero {s : Bytes} {n : Nat} (h : AddsUpTo s n) : s ≠ "0" := by
  obtain ⟨ts, hne, hgood, rfl, -⟩ := h
  have hlength := two_mul_length_le hgood
  have hpos := List.length_pos_iff.mpr hne
  intro hzero
  rw [hzero] at hlength
  have hone : (Bytes.ofString "0").length = 1 := by decide
  omega

theorem parse_text (d : Duration) : parse (text d) = .ok d := by
  have hadds := addsUpTo_magnitudeText d.toInt.natAbs
  obtain ⟨c, tail, hcons, hc⟩ := hadds.exists_cons
  have hlow : -0x8000000000000000 ≤ d.toInt := d.le_toInt
  have hhigh : d.toInt < 0x8000000000000000 := d.toInt_lt
  have hsum := fun input => hadds.sum_eq input (by omega)
  have hzero := hadds.ne_zero
  have hne : magnitudeText d.toInt.natAbs ≠ [] := by simp [hcons]
  by_cases hneg : d < 0
  · have hint : d.toInt < 0 := Int64.lt_iff_toInt_lt.mp hneg
    have hback : -(Int64.ofNat d.toInt.natAbs) = d := by
      have habs : -((d.toInt.natAbs : Nat) : Int) = d.toInt := by omega
      rw [← Int64.ofInt_eq_ofNat, ← Int64.ofInt_neg, habs, Int64.ofInt_toInt]
    simp only [text, if_pos hneg, parse, List.head?_cons, decide_true, Bool.true_or, if_true,
      List.drop_succ_cons, List.drop_zero, if_neg hzero, if_neg hne, hsum, bind, Except.bind, hback]
    rfl
  · have hint : ¬ d.toInt < 0 := fun h => hneg (Int64.lt_iff_toInt_lt.mpr h)
    have hback : Int64.ofNat d.toInt.natAbs = d := by
      have habs : ((d.toInt.natAbs : Nat) : Int) = d.toInt := by omega
      rw [← Int64.ofInt_eq_ofNat, habs, Int64.ofInt_toInt]
    have hfits : ¬ 0x7FFFFFFFFFFFFFFF < d.toInt.natAbs := by omega
    have hminus : c ≠ Bytes.byte '-' := by
      rintro rfl
      exact absurd hc (by decide)
    have hplus : c ≠ Bytes.byte '+' := by
      rintro rfl
      exact absurd hc (by decide)
    have hhead : (magnitudeText d.toInt.natAbs).head? = some c := by rw [hcons]; rfl
    simp only [text, if_neg hneg, parse, hhead, Option.some.injEq, hminus, hplus, decide_false,
      Bool.or_self, Bool.false_eq_true, if_false, if_neg hzero, if_neg hne, hsum, bind, Except.bind,
      if_neg hfits, hback]
    rfl

end Duration

end MerlinBridge
