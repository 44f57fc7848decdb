import MerlinBridge.Json.Number
import MerlinBridge.Proofs.ExactDoubles
import MerlinBridge.Proofs.JsonGrammar
import MerlinBridge.Proofs.Numerals

/-!
# Numbers as they are written and as words

A number of a reply `Denotes` a decimal fraction, and a word is passed on for it
(`PassesOn`). It is read as a double first. Up to 2^53 - 1 the double of an integer
literal is the integer itself; from 2^53 on it is 2^53 at least, however it was
rounded, so the digits are read into a word that wraps around. Either way an integer
literal is passed on as the word of its value, for a value of any size. A number with
a point or an exponent is passed on as the integer part of its double.

So the word is the number that was written exactly if that is an integer that fits a
word and, unless it is written as one, fits a double (`Keeps`).
-/

namespace MerlinBridge

namespace Decimal

theorem value_dropWhile (ds : Bytes) : value (ds.dropWhile (· = Bytes.byte '0')) = value ds := by
  induction ds with
  | nil => rfl
  | cons d ds ih =>
      by_cases hd : d = Bytes.byte '0'
      · subst hd
        have hzero : (Bytes.byte '0').toNat - 48 = 0 := by decide
        simpa [value, valueFrom_cons, hzero] using ih
      · simp [hd]

theorem valueFrom_bounds {ds : Bytes} (h : ∀ d ∈ ds, Bytes.isDigit d = true) (acc : Nat) :
    acc * 10 ^ ds.length ≤ valueFrom acc ds ∧ valueFrom acc ds < (acc + 1) * 10 ^ ds.length := by
  induction ds generalizing acc with
  | nil => simp [valueFrom]
  | cons d ds ih =>
      obtain ⟨hd, hds⟩ := List.forall_mem_cons.mp h
      obtain ⟨hlow, hhigh⟩ := ih hds (acc * 10 + (d.toNat - 48))
      have hdigit : d.toNat - 48 ≤ 9 := by
        simp only [Bytes.isDigit, Bool.and_eq_true, decide_eq_true_eq, UInt8.le_iff_toNat_le] at hd
        have hnine : d.toNat ≤ 57 := hd.2
        omega
      rw [valueFrom_cons, List.length_cons, Nat.pow_succ]
      constructor
      · refine le_trans ?_ hlow
        rw [Nat.mul_comm (10 ^ ds.length), ← Nat.mul_assoc]
        exact Nat.mul_le_mul_right _ (by omega)
      · refine lt_of_lt_of_le hhigh ?_
        rw [Nat.mul_comm (10 ^ ds.length), ← Nat.mul_assoc]
        exact Nat.mul_le_mul_right _ (by omega)

/-- A number without zeros in front has as many digits as it takes. -/
theorem value_bounds {ds : Bytes} (h : ∀ d ∈ ds, Bytes.isDigit d = true)
    (first : ds.head? ≠ some (Bytes.byte '0')) (nonempty : ds ≠ []) :
    10 ^ ds.length ≤ value ds * 10 ∧ value ds < 10 ^ ds.length := by
  refine ⟨?_, by simpa [value] using (valueFrom_bounds h 0).2⟩
  cases ds with
  | nil => exact absurd rfl nonempty
  | cons d ds =>
      obtain ⟨hd, hds⟩ := List.forall_mem_cons.mp h
      have hpos : 1 ≤ 0 * 10 + (d.toNat - 48) := by
        have hne : d.toNat ≠ 48 := fun heq => first (by
          rw [List.head?_cons]
          exact congrArg some (UInt8.toNat_inj.mp heq))
        simp only [Bytes.isDigit, Bool.and_eq_true, decide_eq_true_eq, UInt8.le_iff_toNat_le] at hd
        have hzero : 48 ≤ d.toNat := hd.1
        omega
      rw [value, valueFrom_cons, List.length_cons, Nat.pow_succ]
      refine Nat.mul_le_mul_right 10 (le_trans ?_ (valueFrom_bounds hds _).1)
      exact Nat.le_mul_of_pos_left _ hpos

end Decimal

namespace Json

theorem isWhole_of_all {d : UInt8} {ds : Bytes} (first : d ≠ Bytes.byte '0')
    (digits : (d :: ds).all Bytes.isDigit = true) : IsWhole (d :: ds) :=
  .run first ⟨List.cons_ne_nil d ds, List.all_eq_true.mp digits⟩

theorem IsWhole.isLiteral {ds : Bytes} (h : IsWhole ds) : IsLiteral ds := by
  simpa using IsLiteral.mk (Or.inl rfl) h .none .none

theorem IsWhole.isDigits {ds : Bytes} (h : IsWhole ds) : IsDigits ds := by
  cases h with
  | zero => exact ⟨List.cons_ne_nil _ _, List.forall_mem_singleton.mpr (by decide)⟩
  | run _ digits => exact digits

theorem IsWhole.head?_ne {ds : Bytes} (h : IsWhole ds) {c : UInt8} (hc : Bytes.isDigit c = false) :
    ds.head? ≠ some c := by
  intro hhead
  have hdigit := h.isDigits.2 c (List.mem_of_head? hhead)
  rw [hc] at hdigit
  cases hdigit

/-! ## Values -/

inductive IsSign : Bytes → Bool → Prop where
  | plain : IsSign [] false
  | minus : IsSign [Bytes.byte '-'] true

inductive HasPlaces : Bytes → Bytes → Prop where
  | none : HasPlaces [] []
  | point {ds : Bytes} (digits : IsDigits ds) : HasPlaces (Bytes.byte '.' :: ds) ds

inductive HasExponent : Bytes → Int → Prop where
  | none : HasExponent [] 0
  | bare {c : UInt8} {ds : Bytes} (mark : IsMark c) (digits : IsDigits ds) :
      HasExponent (c :: ds) (Decimal.value ds)
  | plus {c : UInt8} {ds : Bytes} (mark : IsMark c) (digits : IsDigits ds) :
      HasExponent (c :: Bytes.byte '+' :: ds) (Decimal.value ds)
  | minus {c : UInt8} {ds : Bytes} (mark : IsMark c) (digits : IsDigits ds) :
      HasExponent (c :: Bytes.byte '-' :: ds) (-Decimal.value ds)

/-- The number that is written: its digits with those after the point count a power of ten that is
lower by one for each of the latter. -/
inductive Denotes : Bytes → ℚ → Prop where
  | mk {sign whole part places power : Bytes} {negative : Bool} {k : Int}
      (isSign : IsSign sign negative) (isWhole : IsWhole whole) (hasPlaces : HasPlaces part places)
      (hasExponent : HasExponent power k) :
      Denotes (sign ++ whole ++ part ++ power)
        ((if negative then -1 else 1) * Decimal.value (whole ++ places) *
          10 ^ (k - places.length))

/-- An integer literal with its value. -/
inductive IsNumeral : Bytes → Int → Prop where
  | plain {ds : Bytes} (whole : IsWhole ds) : IsNumeral ds (Decimal.value ds)
  | minus {ds : Bytes} (whole : IsWhole ds) : IsNumeral (Bytes.byte '-' :: ds) (-Decimal.value ds)

theorem isFraction_iff {part : Bytes} : IsFraction part ↔ ∃ places, HasPlaces part places := by
  constructor
  · intro h
    cases h with
    | none => exact ⟨_, .none⟩
    | point digits => exact ⟨_, .point digits⟩
  · rintro ⟨places, h⟩
    cases h with
    | none => exact .none
    | point digits => exact .point digits

theorem isExponent_iff {power : Bytes} : IsExponent power ↔ ∃ k, HasExponent power k := by
  constructor
  · intro h
    cases h with
    | none => exact ⟨_, .none⟩
    | bare mark digits => exact ⟨_, .bare mark digits⟩
    | signed mark sign digits =>
        rcases sign with rfl | rfl
        · exact ⟨_, .plus mark digits⟩
        · exact ⟨_, .minus mark digits⟩
  · rintro ⟨k, h⟩
    cases h with
    | none => exact .none
    | bare mark digits => exact .bare mark digits
    | plus mark digits => exact .signed mark (Or.inl rfl) digits
    | minus mark digits => exact .signed mark (Or.inr rfl) digits

/-- The numbers that can be written are those that stand for one. -/
theorem isLiteral_iff_denotes {literal : Bytes} : IsLiteral literal ↔ ∃ q, Denotes literal q := by
  constructor
  · rintro ⟨sign, isWhole, isFraction, isExponent⟩
    obtain ⟨places, hasPlaces⟩ := isFraction_iff.mp isFraction
    obtain ⟨k, hasExponent⟩ := isExponent_iff.mp isExponent
    rcases sign with rfl | rfl
    · exact ⟨_, .mk .plain isWhole hasPlaces hasExponent⟩
    · exact ⟨_, .mk .minus isWhole hasPlaces hasExponent⟩
  · rintro ⟨q, isSign, isWhole, hasPlaces, hasExponent⟩
    have isFraction := isFraction_iff.mpr ⟨_, hasPlaces⟩
    have isExponent := isExponent_iff.mpr ⟨_, hasExponent⟩
    cases isSign with
    | plain => exact .mk (Or.inl rfl) isWhole isFraction isExponent
    | minus => exact .mk (Or.inr rfl) isWhole isFraction isExponent

theorem HasPlaces.drop_one {part places : Bytes} (h : HasPlaces part places) :
    part.drop 1 = places := by
  cases h with
  | none => rfl
  | point _ => rfl

theorem HasPlaces.isDigit {part places : Bytes} (h : HasPlaces part places) :
    ∀ d ∈ places, Bytes.isDigit d = true := by
  cases h with
  | none => simp
  | point digits => exact digits.2

theorem HasExponent.begins {power : Bytes} {k : Int} (h : HasExponent power k) :
    Begins IsMark power := by
  cases h with
  | none => simp [Begins]
  | bare mark _ => exact .cons mark
  | plus mark _ => exact .cons mark
  | minus mark _ => exact .cons mark

theorem HasExponent.int?_drop_one {power : Bytes} {k : Int} (h : HasExponent power k) :
    (Decimal.int? (power.drop 1)).getD 0 = k := by
  cases h with
  | none => rfl
  | bare _ digits =>
      rw [List.drop_succ_cons, List.drop_zero, Decimal.int?_of_digits digits.1 digits.2]
      rfl
  | plus _ digits =>
      rw [List.drop_succ_cons, List.drop_zero, Decimal.int?, if_neg (by decide), if_pos rfl,
        Decimal.nat?_of_digits digits.1 digits.2]
      rfl
  | minus _ digits =>
      rw [List.drop_succ_cons, List.drop_zero, Decimal.int?, if_pos rfl,
        Decimal.nat?_of_digits digits.1 digits.2]
      rfl

theorem not_isMark_of_isDigit {d : UInt8} (h : Bytes.isDigit d = true) : ¬ IsMark d := by
  intro hmark
  rw [hmark.noDigit.1] at h
  cases h

theorem parts_eq {sign whole part places power : Bytes} {negative : Bool} {k : Int}
    (isSign : IsSign sign negative) (isWhole : IsWhole whole) (hasPlaces : HasPlaces part places)
    (hasExponent : HasExponent power k) :
    parts (sign ++ whole ++ part ++ power) = ⟨negative, whole ++ places, k - places.length⟩ := by
  have hnoMark : ∀ d ∈ whole ++ part,
      (!(decide (d = Bytes.byte 'e') || decide (d = Bytes.byte 'E'))) = true := by
    intro d hd
    have hmark : ¬ IsMark d := by
      rcases List.mem_append.mp hd with hd | hd
      · exact not_isMark_of_isDigit (isWhole.isDigits.2 d hd)
      · cases hasPlaces with
        | none => cases hd
        | point digits =>
            rcases List.mem_cons.mp hd with rfl | hd
            · exact fun h => absurd rfl h.noDigit.2
            · exact not_isMark_of_isDigit (digits.2 d hd)
    simpa [IsMark, not_or] using hmark
  obtain ⟨hsignificand, hpower⟩ := Bytes.takeWhile_dropWhile_append (b := power) hnoMark
    (fun c hc => by simpa [IsMark, or_iff_not_imp_left] using hasExponent.begins c hc)
  obtain ⟨hwhole, hpart⟩ := Bytes.takeWhile_dropWhile_append (b := part) isWhole.isDigits.2
    (isFraction_iff.mpr ⟨_, hasPlaces⟩).begins
  cases isSign with
  | plain =>
      have hhead : ∀ c, Bytes.isDigit c = false →
          ([] ++ whole ++ part ++ power).head? ≠ some c := by
        intro c hc hhead
        obtain ⟨d, ds, rfl, hd⟩ := isWhole.exists_cons
        obtain rfl := Option.some.inj hhead
        rw [hc] at hd
        cases hd
      have hminus := hhead (Bytes.byte '-') (by decide)
      have hplus := hhead (Bytes.byte '+') (by decide)
      rw [List.nil_append] at hminus hplus ⊢
      simp only [parts, hminus, hplus, decide_false, Bool.or_self, Bool.false_eq_true, if_false,
        hsignificand, hpower, hwhole, hpart, hasPlaces.drop_one, hasExponent.int?_drop_one]
  | minus =>
      simp only [parts, List.cons_append, List.nil_append, List.head?_cons, decide_true,
        Bool.true_or, if_true, List.drop_succ_cons, List.drop_zero, hsignificand, hpower, hwhole,
        hpart, hasPlaces.drop_one, hasExponent.int?_drop_one]

namespace Parts

def value (p : Parts) : ℚ :=
  (if p.negative then -1 else 1) * Decimal.value p.digits * 10 ^ p.exponent

/-- An integer has the sign of the parts, and its magnitude is that of their digits. -/
theorem value_eq_int {p : Parts} {z : Int} (h : p.value = z) :
    z = (if p.negative then -(z.natAbs : Int) else z.natAbs) ∧
      (Decimal.value p.digits : ℚ) * 10 ^ p.exponent = z.natAbs := by
  have hnonneg : (0 : ℚ) ≤ Decimal.value p.digits * 10 ^ p.exponent := by positivity
  rw [value, mul_assoc] at h
  cases hsign : p.negative with
  | false =>
      rw [hsign, if_neg Bool.false_ne_true, one_mul] at h
      have hz : 0 ≤ z := by exact_mod_cast h ▸ hnonneg
      refine ⟨(Int.natAbs_of_nonneg hz).symm, ?_⟩
      rw [h, ← Int.cast_natCast, Int.natAbs_of_nonneg hz]
  | true =>
      rw [hsign, if_pos rfl, neg_one_mul] at h
      have hz : z ≤ 0 := by exact_mod_cast h ▸ neg_nonpos.mpr hnonneg
      have habs := Int.ofNat_natAbs_of_nonpos hz
      refine ⟨by rw [if_pos rfl, habs, Int.neg_neg], ?_⟩
      rw [← Int.cast_natCast z.natAbs, habs, Int.cast_neg, ← h, neg_neg]

end Parts

theorem Denotes.eq_value {literal : Bytes} {q : ℚ} (h : Denotes literal q) :
    q = (parts literal).value ∧ ∀ d ∈ (parts literal).digits, Bytes.isDigit d = true := by
  cases h with
  | mk isSign isWhole hasPlaces hasExponent =>
      rw [parts_eq isSign isWhole hasPlaces hasExponent]
      refine ⟨rfl, fun d hd => ?_⟩
      rcases List.mem_append.mp hd with hd | hd
      · exact isWhole.isDigits.2 d hd
      · exact hasPlaces.isDigit d hd

theorem Denotes.unique {literal : Bytes} {q r : ℚ} (hq : Denotes literal q)
    (hr : Denotes literal r) : q = r :=
  hq.eq_value.1.trans hr.eq_value.1.symm

theorem IsNumeral.denotes {literal : Bytes} {z : Int} (h : IsNumeral literal z) :
    Denotes literal z := by
  cases h with
  | plain whole => simpa using Denotes.mk .plain whole .none .none
  | minus whole => simpa using Denotes.mk .minus whole .none .none

theorem denotes_tenths {whole : Bytes} {d : UInt8} (isWhole : IsWhole whole)
    (hd : Bytes.isDigit d = true) :
    Denotes (whole ++ [Bytes.byte '.', d]) (Decimal.value (whole ++ [d]) / 10) := by
  have digits : IsDigits [d] := ⟨List.cons_ne_nil d [], List.forall_mem_singleton.mpr hd⟩
  simpa [div_eq_mul_inv] using Denotes.mk .plain isWhole (.point digits) .none

theorem double_eq (literal : Bytes) :
    double literal = ⟨(parts literal).negative, .ofDecimal (Decimal.value (parts literal).digits)
      ((parts literal).digits.dropWhile (· = Bytes.byte '0')).length (parts literal).exponent⟩ := by
  simp only [double, Decimal.value_dropWhile]

/-- A number with `count` digits that is an integer below 2^64 when it is scaled is not far beyond
either end of the range. -/
theorem ofDecimal_range {n count q : Nat} {e : Int} (hlow : 10 ^ count ≤ n * 10)
    (hhigh : n < 10 ^ count) (h : (n : ℚ) * 10 ^ e = q) (hq : q ≠ 0) (hbound : q < 2 ^ 64) :
    ¬ 310 < (count : Int) + e ∧ ¬ (count : Int) + e < -330 := by
  have hlow' : (10 : ℚ) ^ count ≤ n * 10 := by exact_mod_cast hlow
  have hhigh' : (n : ℚ) < 10 ^ count := by exact_mod_cast hhigh
  have hpower : (10 : ℚ) ^ ((count : Int) + e) = 10 ^ count * 10 ^ e := by
    rw [zpow_add₀ (by norm_num), zpow_natCast]
  constructor
  · intro hlong
    have hbig : (10 : ℚ) ^ (21 : Int) ≤ q * 10 := by
      calc (10 : ℚ) ^ (21 : Int) ≤ 10 ^ ((count : Int) + e) :=
            zpow_le_zpow_right₀ (by norm_num) (by omega)
        _ = 10 ^ count * 10 ^ e := hpower
        _ ≤ n * 10 * 10 ^ e := by gcongr
        _ = q * 10 := by rw [mul_right_comm, h]
    have hbig' : 10 ^ 21 ≤ q * 10 := by exact_mod_cast hbig
    omega
  · intro hshort
    have hsmall : (q : ℚ) < 1 := by
      calc (q : ℚ) = n * 10 ^ e := h.symm
        _ < 10 ^ count * 10 ^ e := by gcongr
        _ = 10 ^ ((count : Int) + e) := hpower.symm
        _ ≤ 1 := zpow_le_one_of_nonpos₀ (by norm_num) (by omega)
    have hsmall' : q < 1 := by exact_mod_cast hsmall
    omega

/-- Digits whose number is a representable integer have it as their double. -/
theorem isNat_ofDecimal {ds : Bytes} (digits : ∀ d ∈ ds, Bytes.isDigit d = true) {e : Int} {q : Nat}
    (h : (Decimal.value ds : ℚ) * 10 ^ e = q) (hq : Binary64.IsRepresentable q)
    (hbound : q < 2 ^ 64) :
    (Binary64.ofDecimal (Decimal.value ds) (ds.dropWhile (· = Bytes.byte '0')).length e).IsNat
      q := by
  by_cases hzero : Decimal.value ds = 0
  · rw [hzero, Nat.cast_zero, zero_mul] at h
    obtain rfl : q = 0 := by exact_mod_cast h.symm
    rw [Binary64.ofDecimal, if_pos hzero]
    exact Binary64.isNat_zero
  have hpos : q ≠ 0 := by
    rintro rfl
    rw [Nat.cast_zero, mul_eq_zero, Nat.cast_eq_zero] at h
    exact h.elim hzero (zpow_ne_zero e (by norm_num))
  have hfirst : (ds.dropWhile (· = Bytes.byte '0')).head? ≠ some (Bytes.byte '0') := by
    intro hhead
    have hnot := List.head?_dropWhile_not (· = Bytes.byte '0') ds
    rw [hhead] at hnot
    simp at hnot
  obtain ⟨hlow, hhigh⟩ := Decimal.value_bounds
    (fun d hd => digits d ((List.dropWhile_sublist _).subset hd)) hfirst
    (fun hnil => hzero (by rw [← Decimal.value_dropWhile, hnil]; rfl))
  rw [Decimal.value_dropWhile] at hlow hhigh
  obtain ⟨hlong, hshort⟩ := ofDecimal_range hlow hhigh h hpos hbound
  rw [Binary64.ofDecimal, if_neg hzero, if_neg hlong, if_neg hshort]
  by_cases he : 0 ≤ e
  · obtain ⟨k, rfl⟩ := Int.eq_ofNat_of_zero_le he
    have hscaled : Decimal.value ds * tenTo k = q := by
      rw [zpow_natCast] at h
      exact_mod_cast h
    have hround := Binary64.isNat_ofRatio hq hbound Nat.one_pos
    rw [Nat.mul_one] at hround
    rwa [if_pos he, Int.toNat_natCast, hscaled]
  · obtain ⟨k, rfl⟩ : ∃ k : Nat, e = -k := ⟨(-e).toNat, by omega⟩
    have hscaled : Decimal.value ds = q * tenTo k := by
      rw [zpow_neg, zpow_natCast, ← div_eq_mul_inv, div_eq_iff (by positivity)] at h
      exact_mod_cast h
    rw [if_neg he, Int.neg_neg, Int.toNat_natCast, hscaled]
    exact Binary64.isNat_ofRatio hq hbound (tenTo_pos k)

/-! ## Integer literals -/

theorem double_of_isWhole {ds : Bytes} (h : IsWhole ds) :
    double ds =
      ⟨false, .ofDecimal (Decimal.value ds) (ds.dropWhile (· = Bytes.byte '0')).length 0⟩ ∧
    double (Bytes.byte '-' :: ds) =
      ⟨true, .ofDecimal (Decimal.value ds) (ds.dropWhile (· = Bytes.byte '0')).length 0⟩ := by
  have hplain := parts_eq .plain h .none .none
  have hminus := parts_eq .minus h .none .none
  simp only [List.nil_append, List.cons_append, List.append_nil] at hplain hminus
  constructor
  · rw [double_eq, hplain]
    rfl
  · rw [double_eq, hminus]
    rfl

/-- The double of an integer literal is its value, or it is not among those that count exactly. -/
theorem exact_cases (value count : Nat) :
    (∀ negative, Double.isExact ⟨negative, .ofDecimal value count 0⟩ = false) ∨
      value < 2 ^ 53 ∧ (Binary64.ofDecimal value count 0).IsNat value := by
  by_cases hzero : value = 0
  · subst hzero
    exact Or.inr ⟨by decide, Binary64.isNat_zero⟩
  by_cases hlong : 310 < (count : Int) + 0
  · left
    intro negative
    simp only [Binary64.ofDecimal, if_neg hzero, if_pos hlong, Double.isExact]
  have hratio : Binary64.ofDecimal value count 0 = .ofNat value := by
    simp only [Binary64.ofDecimal, if_neg hzero, if_neg hlong, Int.le_refl, if_true, Int.toNat_zero,
      tenTo_zero, Nat.mul_one]
    exact if_neg (by omega)
  rw [hratio]
  rcases Nat.lt_or_ge value (2 ^ 53) with hsmall | hbig
  · exact Or.inr ⟨hsmall, Binary64.isNat_ofNat hsmall⟩
  · left
    intro negative
    rcases Binary64.ofNat_of_le hbig with hinfinite | ⟨m, k, hfinite, hlarge⟩
    · rw [hinfinite]
      rfl
    · rw [hfinite]
      simp only [Double.isExact, Binary64.fraction_ofNat, maxExact, Binary64.twoTo_eq]
      exact decide_eq_false (by omega)

theorem isExact_of_isNat {x : Binary64} {q : Nat} (h : x.IsNat q) (hq : q < 2 ^ 53)
    (negative : Bool) : Double.isExact ⟨negative, x⟩ = true := by
  obtain ⟨m, e, rfl, hvalue⟩ := h
  simp only [Double.isExact, hvalue, maxExact]
  exact decide_eq_true (Nat.mul_le_mul_right _ (by omega))

theorem toInt64_of_isNat {x : Binary64} {q : Nat} (h : x.IsNat q) {negative : Bool} {z : Int}
    (hz : z = if negative then -(q : Int) else q) (fits : -2 ^ 63 ≤ z ∧ z < 2 ^ 63) :
    Double.toInt64 ⟨negative, x⟩ = Int64.ofInt z := by
  have hfits : Decimal.fitsInt64 z = true := by
    simp only [Decimal.fitsInt64, Bool.and_eq_true, decide_eq_true_eq]
    exact ⟨fits.1, fits.2⟩
  simp only [Double.toInt64, h.floor?, saturate, ← hz, hfits, if_true]

theorem wrapped_eq_ofInt {literal : Bytes} {n : Int} (h : IsNumeral literal n) :
    isInteger literal = true ∧ wrapped literal = Int64.ofInt n := by
  cases h with
  | plain whole =>
      obtain ⟨hne, hdigits⟩ := whole.isDigits
      have hminus : literal.head? ≠ some (Bytes.byte '-') := whole.head?_ne (by decide)
      obtain ⟨d, rest, rfl⟩ := List.exists_cons_of_ne_nil hne
      have hd : d ≠ Bytes.byte '-' := fun heq => hminus (by rw [heq, List.head?_cons])
      constructor
      · simp only [isInteger, if_neg hd, List.isEmpty_cons, Bool.not_false, Bool.true_and]
        exact List.all_eq_true.mpr hdigits
      · simp only [wrapped, hminus, if_false]
        exact Int64.ofInt_eq_ofNat.symm
  | minus whole =>
      rename_i ds
      obtain ⟨hne, hdigits⟩ := whole.isDigits
      constructor
      · simp only [isInteger, if_true, List.isEmpty_eq_false_iff.mpr hne, Bool.not_false,
          Bool.true_and]
        exact List.all_eq_true.mpr hdigits
      · simp only [wrapped, List.head?_cons, if_true, List.drop_succ_cons, List.drop_zero,
          Int64.ofInt_neg, Int64.ofInt_eq_ofNat]

/-- An integer literal is read as the word of its value, which wraps around. -/
theorem literalInt64_eq_ofInt {literal : Bytes} {n : Int} (h : IsNumeral literal n) :
    literalInt64 literal = Int64.ofInt n := by
  obtain ⟨hinteger, hwrapped⟩ := wrapped_eq_ofInt h
  have hread : ∀ {negative : Bool} {value count : Nat},
      double literal = ⟨negative, .ofDecimal value count 0⟩ →
      n = (if negative then -(value : Int) else value) → literalInt64 literal = Int64.ofInt n := by
    intro negative value count hdouble hn
    unfold literalInt64
    rw [hdouble]
    rcases exact_cases value count with hinexact | ⟨hsmall, hvalue⟩
    · simp only [hinexact, hinteger, hwrapped, Bool.false_eq_true, if_false, if_true]
    · have hword := toInt64_of_isNat hvalue hn (by rw [hn]; split <;> omega)
      simp only [isExact_of_isNat hvalue hsmall, hword, if_true]
  cases h with
  | plain whole => exact hread (double_of_isWhole whole).1 rfl
  | minus whole => exact hread (double_of_isWhole whole).2 rfl

/-! ## What is passed on -/

/-- The word that is passed on for a number: an integer literal goes modulo 2^64, and any other
number by the integer part of its double. -/
inductive PassesOn (literal : Bytes) : Int64 → Prop where
  | integer {z : Int} (numeral : IsNumeral literal z) : PassesOn literal (Int64.ofInt z)
  | other (none : ∀ z, ¬ IsNumeral literal z) : PassesOn literal (double literal).toInt64

/-- The number `z` is passed on as it is: it is an integer that fits a word and, unless it is
written as one, fits a double. -/
structure Keeps (literal : Bytes) (z : Int) : Prop where
  denotes : Denotes literal z
  fits : -2 ^ 63 ≤ z ∧ z < 2 ^ 63
  exact : (∃ y, IsNumeral literal y) ∨ Binary64.IsRepresentable z.natAbs

theorem exists_passesOn (literal : Bytes) : ∃ n, PassesOn literal n := by
  by_cases h : ∃ z, IsNumeral literal z
  · obtain ⟨z, hz⟩ := h
    exact ⟨_, .integer hz⟩
  · exact ⟨_, .other (not_exists.mp h)⟩

/-- A number with a point or an exponent is not digits only. -/
theorem isInteger_eq_false {literal : Bytes} (h : IsLiteral literal)
    (none : ∀ z, ¬ IsNumeral literal z) : isInteger literal = false := by
  have hmark : ∀ {c}, IsMark c → Bytes.isDigit c = false ∧ c ≠ Bytes.byte '-' := by
    rintro c (rfl | rfl)
    · decide
    · decide
  obtain ⟨c, hc, hdigit, hminus⟩ : ∃ c ∈ literal, Bytes.isDigit c = false ∧ c ≠ Bytes.byte '-' := by
    obtain ⟨sign, isWhole, isFraction, isExponent⟩ := h
    cases isFraction with
    | point _ => exact ⟨Bytes.byte '.', by simp, by decide, by decide⟩
    | none =>
        cases isExponent with
        | none =>
            rcases sign with rfl | rfl
            · exact absurd (by simpa using IsNumeral.plain isWhole) (none _)
            · exact absurd (by simpa using IsNumeral.minus isWhole) (none _)
        | bare mark _ => exact ⟨_, by simp, hmark mark⟩
        | signed mark _ _ => exact ⟨_, by simp, hmark mark⟩
  cases literal with
  | nil => rfl
  | cons d rest =>
      have hnot : ∀ ds : Bytes, c ∈ ds → ds.all Bytes.isDigit = false := fun ds hds =>
        List.all_eq_false.mpr ⟨c, hds, by simp [hdigit]⟩
      unfold isInteger
      by_cases hd : d = Bytes.byte '-'
      · have hrest : c ∈ rest := (List.mem_cons.mp hc).resolve_left fun heq => hminus (heq.trans hd)
        simp [hd, hnot rest hrest]
      · simp only [if_neg hd, hnot _ hc, Bool.and_false]

theorem passesOn_iff {literal : Bytes} (h : IsLiteral literal) {n : Int64} :
    PassesOn literal n ↔ literalInt64 literal = n := by
  have hword : ∀ {n}, PassesOn literal n → literalInt64 literal = n := by
    intro n hn
    cases hn with
    | integer numeral => exact literalInt64_eq_ofInt numeral
    | other none => simp [literalInt64, isInteger_eq_false h none]
  refine ⟨hword, ?_⟩
  rintro rfl
  obtain ⟨n, hn⟩ := exists_passesOn literal
  rwa [hword hn]

theorem isRepresentable_minValue : Binary64.IsRepresentable Int64.minValue.toInt.natAbs :=
  ⟨1, 63, by decide, by decide⟩

theorem isRepresentable_saturate {q : Nat} (h : Binary64.IsRepresentable q) (negative : Bool) :
    Binary64.IsRepresentable (saturate negative q).toInt.natAbs := by
  have habs : (if negative then -(q : Int) else q).natAbs = q := by
    cases negative with
    | false => exact Int.natAbs_natCast q
    | true => exact (Int.natAbs_neg _).trans (Int.natAbs_natCast q)
  simp only [saturate]
  generalize (if negative then -(q : Int) else q) = i at habs ⊢
  split
  · rename_i hfits
    simp only [Decimal.fitsInt64, Bool.and_eq_true, decide_eq_true_eq] at hfits
    rwa [Int64.toInt_ofInt_of_le hfits.1 hfits.2, habs]
  · exact isRepresentable_minValue

/-- The word of a double is an integer that a double holds. -/
theorem isRepresentable_toInt64 (literal : Bytes) :
    Binary64.IsRepresentable (double literal).toInt64.toInt.natAbs := by
  unfold Double.toInt64
  cases hfloor : (double literal).magnitude.floor? with
  | none => exact isRepresentable_minValue
  | some q => exact isRepresentable_saturate (Binary64.isRepresentable_of_ofDecimal hfloor) _

/-- The word that is passed on is the number that is written exactly if that can be kept. -/
theorem PassesOn.denotes_iff {literal : Bytes} {n : Int64} (h : PassesOn literal n) :
    Denotes literal n.toInt ↔ ∃ z, Keeps literal z := by
  constructor
  · intro hn
    refine ⟨n.toInt, hn, ⟨n.le_toInt, n.toInt_lt⟩, ?_⟩
    cases h with
    | integer numeral => exact Or.inl ⟨_, numeral⟩
    | other _ => exact Or.inr (isRepresentable_toInt64 literal)
  · rintro ⟨z, hdenotes, hfits, hexact⟩
    have hself : (Int64.ofInt z).toInt = z := Int64.toInt_ofInt_of_le hfits.1 hfits.2
    obtain ⟨hvalue, hdigits⟩ := hdenotes.eq_value
    cases h with
    | @integer y numeral =>
        obtain rfl : y = z := by exact_mod_cast numeral.denotes.unique hdenotes
        rwa [hself]
    | other none =>
        have hrep := hexact.resolve_left (not_exists.mpr none)
        obtain ⟨hz, hmagnitude⟩ := Parts.value_eq_int hvalue.symm
        have hnat := isNat_ofDecimal hdigits hmagnitude hrep (by omega)
        rw [double_eq, toInt64_of_isNat hnat hz hfits, hself]
        exact hdenotes

end Json

end MerlinBridge
