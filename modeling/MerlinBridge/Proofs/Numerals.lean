import MerlinBridge.Text.Decimal

/-!
# Numbers are read back

A number that is written in decimal is read as that number. The digits are put in
front of those that are there already, from the last one to the first, so the
value is followed with an arbitrary tail. The first digit is no sign. What is read as
a number is digits after a sign or none, so it has no colon in it.
-/

namespace MerlinBridge

/-- A text is cut where the separator stands for the first time. -/
theorem Bytes.cut?_eq_some_iff {sep : UInt8} {s before after : Bytes} :
    cut? sep s = some (before, after) ↔ s = before ++ sep :: after ∧ sep ∉ before := by
  induction s generalizing before with
  | nil => simp [cut?]
  | cons x s ih =>
      rw [cut?]
      by_cases hx : x = sep
      · subst hx
        rw [if_pos rfl]
        cases before with
        | nil => simp [eq_comm]
        | cons y before => simp +contextual [eq_comm]
      · rw [if_neg hx]
        cases before with
        | nil => simp [hx]
        | cons y before =>
            simp only [Option.map_eq_some_iff, Prod.exists]
            grind

namespace Decimal

theorem toNat_digit {n : Nat} (h : n < 10) : (digit n).toNat = 48 + n := by
  simp only [digit, Nat.toUInt8, UInt8.toNat_ofNat']
  omega

theorem isDigit_digit {n : Nat} (h : n < 10) : Bytes.isDigit (digit n) = true := by
  simp only [Bytes.isDigit, Bool.and_eq_true, decide_eq_true_eq, UInt8.le_iff_toNat_le,
    toNat_digit h]
  constructor
  · change 48 ≤ 48 + n
    omega
  · change 48 + n ≤ 57
    omega

theorem valueFrom_cons (acc : Nat) (d : UInt8) (ds : Bytes) :
    valueFrom acc (d :: ds) = valueFrom (acc * 10 + (d.toNat - 48)) ds := by
  simp only [valueFrom, List.foldl_cons]

theorem valueFrom_digitsOnto {fuel n : Nat} (h : n < fuel) (ds : Bytes) :
    valueFrom 0 (digitsOnto fuel n ds) = valueFrom n ds := by
  induction fuel generalizing n ds with
  | zero => exact absurd h (Nat.not_lt_zero n)
  | succ fuel ih =>
      unfold digitsOnto
      split
      · rename_i hsmall
        rw [valueFrom_cons, toNat_digit hsmall]
        congr 1
        omega
      · rw [ih (by omega), valueFrom_cons, toNat_digit (Nat.mod_lt n (by decide))]
        congr 1
        omega

theorem all_isDigit_digitsOnto (fuel n : Nat) {ds : Bytes} (h : ds.all Bytes.isDigit = true) :
    (digitsOnto fuel n ds).all Bytes.isDigit = true := by
  induction fuel generalizing n ds with
  | zero => exact h
  | succ fuel ih =>
      unfold digitsOnto
      split
      · rename_i hsmall
        rw [List.all_cons, isDigit_digit hsmall, h]
        rfl
      · apply ih
        rw [List.all_cons, isDigit_digit (Nat.mod_lt n (by decide)), h]
        rfl

theorem digitsOnto_ne_nil (fuel n : Nat) {ds : Bytes} (h : ds ≠ [] ∨ 0 < fuel) :
    digitsOnto fuel n ds ≠ [] := by
  induction fuel generalizing n ds with
  | zero => simpa [digitsOnto] using h
  | succ fuel ih =>
      unfold digitsOnto
      split
      · exact List.cons_ne_nil _ _
      · exact ih _ (Or.inl (List.cons_ne_nil _ _))

theorem value_ofNat (n : Nat) : value (ofNat n) = n :=
  valueFrom_digitsOnto (Nat.lt_succ_self n) []

theorem isDigit_of_mem_ofNat {n : Nat} {d : UInt8} (h : d ∈ ofNat n) : Bytes.isDigit d = true := by
  have hall : (ofNat n).all Bytes.isDigit = true := all_isDigit_digitsOnto (n + 1) n rfl
  exact List.all_eq_true.mp hall d h

theorem ofNat_ne_nil (n : Nat) : ofNat n ≠ [] :=
  digitsOnto_ne_nil (n + 1) n (Or.inr (Nat.succ_pos n))

theorem nat?_of_digits {ds : Bytes} (nonempty : ds ≠ []) (h : ∀ d ∈ ds, Bytes.isDigit d = true) :
    nat? ds = some (value ds) := by
  have hall : ds.all Bytes.isDigit = true := List.all_eq_true.mpr h
  simp [nat?, nonempty, hall]

theorem int?_of_digits {ds : Bytes} (nonempty : ds ≠ []) (h : ∀ d ∈ ds, Bytes.isDigit d = true) :
    int? ds = some (value ds : Int) := by
  obtain ⟨c, rest, rfl⟩ := List.exists_cons_of_ne_nil nonempty
  have hc : Bytes.isDigit c = true := h c List.mem_cons_self
  have hminus : c ≠ Bytes.byte '-' := by
    rintro rfl
    exact absurd hc (by decide)
  have hplus : c ≠ Bytes.byte '+' := by
    rintro rfl
    exact absurd hc (by decide)
  rw [int?, if_neg hminus, if_neg hplus, nat?_of_digits nonempty h]
  rfl

theorem nat?_ofNat (n : Nat) : nat? (ofNat n) = some n := by
  rw [nat?_of_digits (ofNat_ne_nil n) fun _ hd => isDigit_of_mem_ofNat hd, value_ofNat]

theorem int?_ofInt (z : Int) : int? (ofInt z) = some z := by
  cases z with
  | ofNat n =>
      have hread := int?_of_digits (ofNat_ne_nil n) fun _ hd => isDigit_of_mem_ofNat hd
      rw [value_ofNat] at hread
      exact hread
  | negSucc n =>
      rw [ofInt, int?, if_pos rfl, nat?_ofNat]
      rfl

theorem ofInt_injective {z w : Int} (h : ofInt z = ofInt w) : z = w :=
  Option.some.inj ((int?_ofInt z).symm.trans ((congrArg int? h).trans (int?_ofInt w)))

theorem all_isDigit_of_nat? {b : Bytes} {n : Nat} (read : nat? b = some n) :
    b.all Bytes.isDigit = true := by
  unfold nat? at read
  split at read
  · cases read
  · rename_i hform
    simp only [Bool.or_eq_true, not_or, Bool.not_eq_true, Bool.not_eq_false'] at hform
    exact hform.2

theorem exists_digits_of_int? {b : Bytes} {z : Int} (read : int? b = some z) :
    ∃ ds : Bytes, ds.all Bytes.isDigit = true ∧
      (b = ds ∨ b = Bytes.byte '-' :: ds ∨ b = Bytes.byte '+' :: ds) := by
  have hdigits : ∀ {ds : Bytes} {f : Int → Int},
      ((nat? ds).bind fun n => some (n : Int)).map f = some z → ds.all Bytes.isDigit = true := by
    intro ds f h
    cases hread : nat? ds with
    | none => simp [hread] at h
    | some n => exact all_isDigit_of_nat? hread
  cases b with
  | nil => cases read
  | cons c rest =>
      rw [int?] at read
      split at read
      · rename_i hc
        exact ⟨rest, hdigits read, .inr (.inl (by rw [hc]))⟩
      · split at read
        · rename_i hc
          exact ⟨rest, hdigits read, .inr (.inr (by rw [hc]))⟩
        · exact ⟨c :: rest, hdigits read, .inl rfl⟩

theorem colon_notMem_of_int? {b : Bytes} {z : Int} (read : int? b = some z) :
    Bytes.byte ':' ∉ b := by
  obtain ⟨ds, hdigits, hform⟩ := exists_digits_of_int? read
  have hcolon : Bytes.byte ':' ∉ ds := fun hmem =>
    absurd (List.all_eq_true.mp hdigits _ hmem) (by decide)
  have hminus : Bytes.byte ':' ≠ Bytes.byte '-' := by decide
  have hplus : Bytes.byte ':' ≠ Bytes.byte '+' := by decide
  rcases hform with rfl | rfl | rfl
  · exact hcolon
  · exact List.not_mem_cons_of_ne_of_not_mem hminus hcolon
  · exact List.not_mem_cons_of_ne_of_not_mem hplus hcolon

theorem int64?_ofInt64 (n : Int64) : int64? (ofInt64 n) = some n := by
  have hfits : fitsInt64 n.toInt = true := by
    have hlow : -0x8000000000000000 ≤ n.toInt := n.le_toInt
    have hhigh : n.toInt < 0x8000000000000000 := n.toInt_lt
    simp [fitsInt64, hlow, hhigh]
  rw [int64?, ofInt64, int?_ofInt, Option.bind_some, if_pos hfits, Int64.ofInt_toInt]

end Decimal

end MerlinBridge
