import Mathlib.Algebra.Order.Field.Power
import Mathlib.Algebra.Order.Field.Rat
import Mathlib.Tactic.Positivity
import Mathlib.Tactic.Ring
import MerlinBridge.Number.Binary64

/-!
# Integers in double precision

The exponent of a double is chosen so that the significand of a ratio has 53 bits
(`exponentFor_upper`, `exponentFor_lower`). So a rounded significand is below 2^53,
and an integer that needs no more bits than that is its own rounding: it is what a
ratio with that quotient is rounded to (`isNat_ofRatio`), and products and quotients
that are such integers are exact (`IsNat.mul`, `IsNat.div`).
-/

namespace MerlinBridge

namespace Binary64

/-- An integer whose digits in base two, up to the zeros at its end, fit a significand. -/
def IsRepresentable (q : Nat) : Prop :=
  ∃ m k, m < 2 ^ 53 ∧ q = m * 2 ^ k

def IsNat (x : Binary64) (q : Nat) : Prop :=
  ∃ m e, x = finite m e ∧ (fraction m e).1 = q * (fraction m e).2

theorem twoTo_eq (n : Nat) : twoTo n = 2 ^ n := rfl

theorem isRepresentable_of_lt {q : Nat} (h : q < 2 ^ 53) : IsRepresentable q :=
  ⟨q, 0, h, by rw [Nat.pow_zero, Nat.mul_one]⟩

theorem isNat_zero : zero.IsNat 0 :=
  ⟨0, -1074, rfl, by rw [Nat.zero_mul]; rfl⟩

/-! ## Quotients -/

theorem roundDiv_mul {den : Nat} (n : Nat) (h : 0 < den) : roundDiv (n * den) den = n := by
  simp only [roundDiv, Nat.mul_mod_left, Nat.mul_div_cancel n h]
  simp [h]

theorem div_le_roundDiv (num den : Nat) : num / den ≤ roundDiv num den := by
  unfold roundDiv
  dsimp only
  split
  · exact Nat.le_refl _
  · split
    · exact Nat.le_succ _
    · split
      · exact Nat.le_refl _
      · exact Nat.le_succ _

theorem roundDiv_le (num den : Nat) : roundDiv num den ≤ num / den + 1 := by
  unfold roundDiv
  dsimp only
  split
  · exact Nat.le_succ _
  · split
    · exact Nat.le_refl _
    · split
      · exact Nat.le_succ _
      · exact Nat.le_refl _

theorem scale_ofNat (num den k : Nat) : scale num den (k : Int) = (num, den * twoTo k) := by
  simp [scale]

theorem scale_neg (num den k : Nat) : scale num den (-(k : Int)) = (num * twoTo k, den) := by
  unfold scale
  cases k with
  | zero => simp
  | succ k =>
      rw [if_neg (by omega)]
      simp

theorem fraction_ofNat (m k : Nat) : fraction m (k : Int) = (m * twoTo k, 1) := by
  simp [fraction]

theorem fraction_neg (m k : Nat) : fraction m (-(k : Int)) = (m, twoTo k) := by
  unfold fraction
  cases k with
  | zero => simp
  | succ k =>
      rw [if_neg (by omega)]
      simp

theorem fraction_pos (m : Nat) (e : Int) : 0 < (fraction m e).2 := by
  obtain ⟨k, rfl | rfl⟩ := e.eq_nat_or_neg
  · rw [fraction_ofNat]
    exact Nat.one_pos
  · rw [fraction_neg]
    exact twoTo_pos k

theorem scale_lt_iff (num den bound : Nat) (e : Int) :
    (scale num den e).1 < bound * (scale num den e).2 ↔ (num : ℚ) < bound * 2 ^ e * den := by
  obtain ⟨k, rfl | rfl⟩ := e.eq_nat_or_neg
  · rw [scale_ofNat, twoTo_eq, zpow_natCast, mul_right_comm, mul_assoc]
    exact_mod_cast Iff.rfl
  · rw [scale_neg, twoTo_eq, zpow_neg, zpow_natCast, mul_right_comm, ← div_eq_mul_inv,
      lt_div_iff₀ (by positivity)]
    exact_mod_cast Iff.rfl

theorem scale_pos (num : Nat) {den : Nat} (h : 0 < den) (e : Int) : 0 < (scale num den e).2 := by
  obtain ⟨k, rfl | rfl⟩ := e.eq_nat_or_neg
  · rw [scale_ofNat]
    exact Nat.mul_pos h (twoTo_pos k)
  · rw [scale_neg]
    exact h

/-! ## The exponent -/

theorem two_pow_eq {a b bits : Nat} {e : Int} (h : (a : Int) = bits + e + b) :
    (2 : ℚ) ^ a = 2 ^ bits * 2 ^ e * 2 ^ b := by
  rw [← zpow_natCast, ← zpow_natCast, ← zpow_natCast, ← zpow_add₀ two_ne_zero,
    ← zpow_add₀ two_ne_zero, h]

theorem exponentFor_upper (num : Nat) {den : Nat} (hden : 0 < den) :
    (num : ℚ) < 2 ^ 53 * 2 ^ exponentFor num den * den := by
  have hpos : (0 : ℚ) < den := by exact_mod_cast hden
  obtain ⟨guess, hguess⟩ : ∃ guess : Int, (num.log2 : Int) - (den.log2 : Int) - 52 = guess :=
    ⟨_, rfl⟩
  have hnum : (num : ℚ) < 2 ^ (num.log2 + 1) := by exact_mod_cast Nat.lt_log2_self
  have hlog : (2 : ℚ) ^ den.log2 ≤ den := by exact_mod_cast Nat.log2_self_le (by omega)
  have hfirst : (num : ℚ) < 2 ^ 53 * 2 ^ guess * den := by
    calc (num : ℚ) < 2 ^ (num.log2 + 1) := hnum
      _ = 2 ^ 53 * 2 ^ guess * 2 ^ den.log2 := two_pow_eq (by omega)
      _ ≤ 2 ^ 53 * 2 ^ guess * den := by gcongr
  have hchosen : ∀ e : Int, (num : ℚ) < 2 ^ 53 * 2 ^ e * den →
      (num : ℚ) < 2 ^ 53 * 2 ^ max minExponent e * den := by
    intro e he
    refine he.trans_le ?_
    gcongr
    · exact one_le_two
    · exact le_max_right _ _
  unfold exponentFor
  simp only [hguess]
  apply hchosen
  split
  · rename_i hlow
    have hlow' := (scale_lt_iff num den 0x10000000000000 guess).mp hlow
    calc (num : ℚ) < (0x10000000000000 : Nat) * 2 ^ guess * den := hlow'
      _ = 2 ^ 53 * 2 ^ (guess - 1) * den := by
        rw [zpow_sub_one₀ two_ne_zero]
        ring
  · exact hfirst

theorem exponentFor_lower {num den : Nat} (hnum : num ≠ 0) (hden : 0 < den) :
    exponentFor num den = minExponent ∨ 2 ^ 52 * 2 ^ exponentFor num den * den ≤ (num : ℚ) := by
  have hpos : (0 : ℚ) < den := by exact_mod_cast hden
  obtain ⟨guess, hguess⟩ : ∃ guess : Int, (num.log2 : Int) - (den.log2 : Int) - 52 = guess :=
    ⟨_, rfl⟩
  have hlog : (2 : ℚ) ^ num.log2 ≤ num := by exact_mod_cast Nat.log2_self_le hnum
  have hden' : (den : ℚ) ≤ 2 ^ (den.log2 + 1) := by exact_mod_cast Nat.le_of_lt Nat.lt_log2_self
  have hchosen : ∀ e : Int, 2 ^ 52 * 2 ^ e * den ≤ (num : ℚ) →
      max minExponent e = minExponent ∨ 2 ^ 52 * 2 ^ max minExponent e * den ≤ (num : ℚ) := by
    intro e he
    rcases le_total e minExponent with hle | hle
    · exact Or.inl (max_eq_left hle)
    · rw [max_eq_right hle]
      exact Or.inr he
  unfold exponentFor
  simp only [hguess]
  apply hchosen
  split
  · calc 2 ^ 52 * 2 ^ (guess - 1) * (den : ℚ)
        ≤ 2 ^ 52 * 2 ^ (guess - 1) * 2 ^ (den.log2 + 1) := by gcongr
      _ = 2 ^ num.log2 := (two_pow_eq (by omega)).symm
      _ ≤ num := hlog
  · rename_i hhigh
    have hhigh' := (scale_lt_iff num den 0x10000000000000 guess).not.mp hhigh
    exact_mod_cast not_lt.mp hhigh'

/-! ## Rounding -/

/-- A ratio overflows, or it is rounded to a significand below 2^53; a significand that is rounded
up to 2^53 is halved. -/
theorem ofRatio_cases {num den : Nat} (hnum : num ≠ 0) (hden : 0 < den) :
    let e := exponentFor num den
    let s := scale num den e
    let m := roundDiv s.1 s.2
    ofRatio num den = infinite ∧ maxExponent ≤ e ∨
      ofRatio num den = finite m e ∧ m < 2 ^ 53 ∨
      ofRatio num den = finite (2 ^ 52) (e + 1) ∧ m = 2 ^ 53 ∧ s.1 < m * s.2 := by
  intro e s m
  have hupper : s.1 < 2 ^ 53 * s.2 :=
    (scale_lt_iff num den (2 ^ 53) e).mpr (by exact_mod_cast exponentFor_upper num hden)
  have hle : m ≤ 2 ^ 53 :=
    (roundDiv_le s.1 s.2).trans (Nat.div_lt_of_lt_mul (by rwa [Nat.mul_comm]))
  by_cases hcarry : m = 0x20000000000000
  · have hround : ofRatio num den =
        if maxExponent < e + 1 then infinite else finite (2 ^ 52) (e + 1) := by
      simp only [ofRatio, if_neg hnum]
      rw [if_pos hcarry]
      rfl
    rw [hround]
    split
    · exact Or.inl ⟨rfl, by omega⟩
    · exact Or.inr (Or.inr ⟨rfl, hcarry, by rwa [hcarry]⟩)
  · have hround : ofRatio num den = if maxExponent < e then infinite else finite m e := by
      simp only [ofRatio, if_neg hnum]
      rw [if_neg hcarry]
    rw [hround]
    split
    · exact Or.inl ⟨rfl, by omega⟩
    · exact Or.inr (Or.inl ⟨rfl, by omega⟩)

theorem exists_significand {q den : Nat} (hq : q ≠ 0) (h : IsRepresentable q) (hden : 0 < den) :
    let e := exponentFor (q * den) den
    ∃ m, (scale (q * den) den e).1 = m * (scale (q * den) den e).2 ∧
      (fraction m e).1 = q * (fraction m e).2 := by
  intro e
  obtain ⟨k, hk | hk⟩ := e.eq_nat_or_neg
  · obtain ⟨m, j, hm, rfl⟩ := h
    have hlower : 2 ^ 52 * 2 ^ k ≤ m * 2 ^ j := by
      rcases exponentFor_lower (Nat.mul_ne_zero hq (Nat.pos_iff_ne_zero.mp hden)) hden with
        hmin | hlower
      · exact absurd (hk.symm.trans hmin) (by simp [minExponent])
      · rw [show exponentFor (m * 2 ^ j * den) den = (k : Int) from hk, zpow_natCast] at hlower
        have hlower' : 2 ^ 52 * 2 ^ k * den ≤ m * 2 ^ j * den := by exact_mod_cast hlower
        exact Nat.le_of_mul_le_mul_right hlower' hden
    have hle : k ≤ j := by
      by_contra hlt
      have hpow : 2 ^ (j + 1) ≤ 2 ^ k := Nat.pow_le_pow_right (by decide) (by omega)
      have hbig : 2 ^ 53 * 2 ^ j ≤ m * 2 ^ j := by
        calc 2 ^ 53 * 2 ^ j = 2 ^ 52 * 2 ^ (j + 1) := by rw [Nat.pow_succ]; omega
          _ ≤ 2 ^ 52 * 2 ^ k := Nat.mul_le_mul_left _ hpow
          _ ≤ m * 2 ^ j := hlower
      exact absurd (Nat.le_of_mul_le_mul_right hbig (Nat.two_pow_pos j)) (by omega)
    obtain ⟨i, rfl⟩ := Nat.exists_eq_add_of_le hle
    have hsplit : m * 2 ^ (k + i) = m * 2 ^ i * 2 ^ k := by
      rw [Nat.pow_add, Nat.mul_comm (2 ^ k), Nat.mul_assoc]
    refine ⟨m * 2 ^ i, ?_, ?_⟩
    · rw [hk, scale_ofNat, hsplit, twoTo_eq]
      dsimp only
      ac_rfl
    · rw [hk, fraction_ofNat, hsplit, twoTo_eq, Nat.mul_one]
  · refine ⟨q * 2 ^ k, ?_, ?_⟩
    · rw [hk, scale_neg, twoTo_eq]
      dsimp only
      ac_rfl
    · rw [hk, fraction_neg, twoTo_eq]

theorem isNat_ofRatio {q den : Nat} (h : IsRepresentable q) (hbound : q < 2 ^ 64)
    (hden : 0 < den) : (ofRatio (q * den) den).IsNat q := by
  by_cases hq : q = 0
  · subst hq
    rw [Nat.zero_mul]
    exact isNat_zero
  have hnum : q * den ≠ 0 := Nat.mul_ne_zero hq (Nat.pos_iff_ne_zero.mp hden)
  obtain ⟨m, hscale, hvalue⟩ := exists_significand hq h hden
  have hpos := scale_pos (q * den) hden (exponentFor (q * den) den)
  rcases ofRatio_cases hnum hden with ⟨-, hlarge⟩ | ⟨hround, -⟩ | ⟨-, hcarry, hlt⟩
  · rcases exponentFor_lower hnum hden with hmin | hlower
    · rw [hmin] at hlarge
      exact absurd hlarge (by decide)
    · have hpower : (2 : ℚ) ^ (12 : Int) ≤ 2 ^ exponentFor (q * den) den :=
        zpow_le_zpow_right₀ one_le_two (le_trans (by decide) hlarge)
      have hbig : (2 ^ 64 : ℚ) * den ≤ (q * den : Nat) := by
        calc (2 ^ 64 : ℚ) * den = 2 ^ 52 * 2 ^ (12 : Int) * den := by norm_num
          _ ≤ 2 ^ 52 * 2 ^ exponentFor (q * den) den * den := by gcongr
          _ ≤ (q * den : Nat) := hlower
      have hbig' : 2 ^ 64 * den ≤ q * den := by exact_mod_cast hbig
      exact absurd (Nat.le_of_mul_le_mul_right hbig' hden) (by omega)
  · rw [hround, hscale, roundDiv_mul m hpos]
    exact ⟨m, _, rfl, hvalue⟩
  · rw [hscale, roundDiv_mul m hpos] at hlt
    exact absurd hlt (Nat.lt_irrefl _)

theorem isNat_ofNat {n : Nat} (h : n < 2 ^ 53) : (ofNat n).IsNat n := by
  have hround := isNat_ofRatio (isRepresentable_of_lt h) (by omega) Nat.one_pos
  rwa [Nat.mul_one] at hround

theorem isRepresentable_of_floor? {num den q : Nat} (hden : 0 < den)
    (h : (ofRatio num den).floor? = some q) : IsRepresentable q := by
  have hfloor : ∀ {m : Nat} {e : Int}, m < 2 ^ 53 → (finite m e).floor? = some q →
      IsRepresentable q := by
    intro m e hm h
    obtain ⟨k, rfl | rfl⟩ := e.eq_nat_or_neg
    · simp only [floor?, fraction_ofNat, Nat.div_one, Option.some.injEq] at h
      exact ⟨m, k, hm, h.symm⟩
    · simp only [floor?, fraction_neg, Option.some.injEq] at h
      exact isRepresentable_of_lt (by rw [← h]; exact (Nat.div_le_self m _).trans_lt hm)
  by_cases hnum : num = 0
  · subst hnum
    exact hfloor (m := 0) (e := -1074) (by decide) h
  · rcases ofRatio_cases hnum hden with ⟨hround, -⟩ | ⟨hround, hm⟩ | ⟨hround, -⟩
    · rw [hround] at h
      cases h
    · exact hfloor hm (by rw [← h, hround])
    · exact hfloor (m := 2 ^ 52) (by decide) (by rw [← h, hround])

theorem isRepresentable_of_ofDecimal {digits count q : Nat} {exponent : Int}
    (h : (ofDecimal digits count exponent).floor? = some q) : IsRepresentable q := by
  have hzero : zero = ofRatio 0 1 := rfl
  unfold ofDecimal at h
  split at h
  · exact isRepresentable_of_floor? Nat.one_pos (hzero ▸ h)
  · split at h
    · cases h
    · split at h
      · exact isRepresentable_of_floor? Nat.one_pos (hzero ▸ h)
      · split at h
        · exact isRepresentable_of_floor? Nat.one_pos h
        · exact isRepresentable_of_floor? (tenTo_pos _) h

/-- An integer from 2^53 on is rounded to an integer from 2^53 on, or overflows. -/
theorem ofNat_of_le {n : Nat} (h : 2 ^ 53 ≤ n) :
    ofNat n = infinite ∨ ∃ m k : Nat, ofNat n = finite m (k : Int) ∧ 2 ^ 53 ≤ m * 2 ^ k := by
  have hn : n ≠ 0 := by omega
  have hupper := exponentFor_upper n Nat.one_pos
  have hpos : 0 < exponentFor n 1 := by
    by_contra hle
    have hone : (2 : ℚ) ^ exponentFor n 1 ≤ 1 := zpow_le_one_of_nonpos₀ one_le_two (by omega)
    have hlt : (n : ℚ) < 2 ^ 53 := by
      calc (n : ℚ) < 2 ^ 53 * 2 ^ exponentFor n 1 * (1 : Nat) := hupper
        _ ≤ 2 ^ 53 * 1 * (1 : Nat) := by gcongr
        _ = 2 ^ 53 := by norm_num
    exact absurd (by exact_mod_cast hlt : n < 2 ^ 53) (by omega)
  obtain ⟨k, hk⟩ : ∃ k : Nat, exponentFor n 1 = ((k + 1 : Nat) : Int) :=
    ⟨(exponentFor n 1).toNat - 1, by omega⟩
  have hlower : 2 ^ 52 ≤ n / (1 * twoTo (k + 1)) := by
    rcases exponentFor_lower hn Nat.one_pos with hmin | hlower
    · exact absurd (hk.symm.trans hmin) (by simp [minExponent]; omega)
    · rw [hk, zpow_natCast] at hlower
      rw [Nat.one_mul, twoTo_eq, Nat.le_div_iff_mul_le (Nat.two_pow_pos _)]
      rw [Nat.cast_one, mul_one] at hlower
      exact_mod_cast hlower
  have hbig : ∀ {m : Nat} (j : Nat), 2 ^ 52 ≤ m → 2 ^ 53 ≤ m * 2 ^ (j + 1) := by
    intro m j hm
    calc 2 ^ 53 = 2 ^ 52 * 2 ^ 1 := by decide
      _ ≤ m * 2 ^ (j + 1) := Nat.mul_le_mul hm (Nat.pow_le_pow_right (by decide) (by omega))
  rcases ofRatio_cases hn Nat.one_pos with ⟨hround, -⟩ | ⟨hround, -⟩ | ⟨hround, -⟩
  · exact Or.inl hround
  · rw [hk, scale_ofNat] at hround
    exact Or.inr ⟨_, k + 1, hround, hbig k (hlower.trans (div_le_roundDiv _ _))⟩
  · rw [hk] at hround
    exact Or.inr ⟨2 ^ 52, k + 2, hround, hbig (k + 1) (Nat.le_refl _)⟩

namespace IsNat

variable {x y : Binary64} {f g : Nat}

theorem floor? (h : x.IsNat f) : x.floor? = some f := by
  obtain ⟨m, e, rfl, hvalue⟩ := h
  simp only [Binary64.floor?, hvalue, Nat.mul_div_cancel f (fraction_pos m e)]

theorem mul (hx : x.IsNat f) (hy : y.IsNat g) (h : IsRepresentable (f * g))
    (hbound : f * g < 2 ^ 64) : (x.mul y).IsNat (f * g) := by
  obtain ⟨m, e, rfl, hm⟩ := hx
  obtain ⟨n, i, rfl, hn⟩ := hy
  have hproduct : (fraction m e).1 * (fraction n i).1 =
      f * g * ((fraction m e).2 * (fraction n i).2) := by
    rw [hm, hn]
    ac_rfl
  simp only [Binary64.mul, hproduct]
  exact isNat_ofRatio h hbound (Nat.mul_pos (fraction_pos m e) (fraction_pos n i))

theorem div (hx : x.IsNat (f * g)) (hy : y.IsNat g) (hg : 0 < g) (h : IsRepresentable f)
    (hbound : f < 2 ^ 64) : (x.div y).IsNat f := by
  obtain ⟨m, e, rfl, hm⟩ := hx
  obtain ⟨n, i, rfl, hn⟩ := hy
  have hquotient : (fraction m e).1 * (fraction n i).2 =
      f * ((fraction m e).2 * (fraction n i).1) := by
    rw [hm, hn]
    ac_rfl
  simp only [Binary64.div, hquotient]
  refine isNat_ofRatio h hbound (Nat.mul_pos (fraction_pos m e) ?_)
  rw [hn]
  exact Nat.mul_pos hg (fraction_pos n i)

end IsNat

end Binary64

end MerlinBridge
