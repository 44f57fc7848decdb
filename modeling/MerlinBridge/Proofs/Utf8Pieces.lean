import Mathlib.Data.List.TakeWhile
import MerlinBridge.Text.Utf8

/-!
# Pieces of a byte string

A character is read off the bytes that it is written as, and only off those
(`decode?_ofChar_append`, `eq_of_decode?`), so nothing is lost in reading. No byte that
starts a character continues one: a byte string that starts with a character is read
on its own, whatever stands before it (`pieces_append`).

Trimming works on pieces. `Strips` says what it does in terms of bytes: characters of
white space are taken off at both ends, and what is left neither starts nor ends with
one.
-/

namespace MerlinBridge

namespace Utf8

theorem toNat_cases (c : Char) :
    c.toNat < 0xD800 ∨ 0xDFFF < c.toNat ∧ c.toNat < 0x110000 :=
  c.valid

theorem ofChar_eq (c : Char) :
    Bytes.ofChar c =
      if c.toNat < 0x80 then [UInt8.ofNat c.toNat]
      else if c.toNat < 0x800 then
        [UInt8.ofNat (c.toNat / 64 + 0xC0), UInt8.ofNat (c.toNat % 64 + 0x80)]
      else if c.toNat < 0x10000 then
        [UInt8.ofNat (c.toNat / 4096 + 0xE0), UInt8.ofNat (c.toNat / 64 % 64 + 0x80),
          UInt8.ofNat (c.toNat % 64 + 0x80)]
      else
        [UInt8.ofNat (c.toNat / 262144 + 0xF0), UInt8.ofNat (c.toNat / 4096 % 64 + 0x80),
          UInt8.ofNat (c.toNat / 64 % 64 + 0x80), UInt8.ofNat (c.toNat % 64 + 0x80)] := by
  have hmax := toNat_cases c
  have hval : c.val.toNat = c.toNat := rfl
  simp only [Bytes.ofChar, String.utf8EncodeChar, hval, Nat.lt_succ_iff.symm]
  split
  · rfl
  · split
    · rw [Nat.mod_eq_of_lt (show c.toNat / 64 < 32 by omega)]
    · split
      · rw [Nat.mod_eq_of_lt (show c.toNat / 4096 < 16 by omega)]
      · rw [Nat.mod_eq_of_lt (show c.toNat / 262144 < 8 by omega)]

theorem toNat_byte {n : Nat} (h : n < 256) : (UInt8.ofNat n).toNat = n :=
  UInt8.toNat_ofNat_of_lt' h

theorem ofNat_lt {n : Nat} {b : UInt8} (h : n < 256) (hlt : n < b.toNat) : UInt8.ofNat n < b := by
  rwa [UInt8.lt_iff_toNat_lt, toNat_byte h]

theorem not_ofNat_lt {n : Nat} {b : UInt8} (h : n < 256) (hle : b.toNat ≤ n) :
    ¬ UInt8.ofNat n < b := by
  rw [UInt8.lt_iff_toNat_lt, toNat_byte h]
  exact Nat.not_lt.mpr hle

/-! ## Reading one character -/

theorem tail?_eq (b : UInt8) :
    tail? b = if 0x80 ≤ b.toNat ∧ b.toNat ≤ 0xBF then some (b.toNat - 0x80) else none := by
  simp [tail?, UInt8.le_iff_toNat_le]

theorem tail?_ofNat {t : Nat} (h : t < 64) : tail? (UInt8.ofNat (t + 0x80)) = some t := by
  rw [tail?_eq, toNat_byte (by omega), if_pos (by omega), Nat.add_sub_cancel]

theorem eq_of_tail? {b : UInt8} {t : Nat} (h : tail? b = some t) :
    t < 64 ∧ b = UInt8.ofNat (t + 0x80) := by
  rw [tail?_eq] at h
  split at h
  · have ht := Option.some.inj h
    refine ⟨by omega, UInt8.toNat_inj.mp ?_⟩
    rw [toNat_byte (by omega)]
    omega
  · cases h

theorem scalar?_toNat (c : Char) {least : Nat} (h : least ≤ c.toNat) :
    scalar? least c.toNat = some c := by
  have hc := toNat_cases c
  rw [scalar?, if_neg (by omega), if_pos (by simpa using hc), Char.ofNat_toNat]

theorem toNat_ofNat {n : Nat} (h : n < 0xD800 ∨ 0xDFFF < n ∧ n < 0x110000) :
    (Char.ofNat n).toNat = n := by
  rw [Char.ofNat, dif_pos h]
  rfl

theorem toNat_of_scalar? {least n : Nat} {c : Char} (h : scalar? least n = some c) :
    least ≤ n ∧ c.toNat = n := by
  unfold scalar? at h
  split at h
  · cases h
  · rename_i hleast
    split at h
    · rename_i hvalid
      rw [← Option.some.inj h]
      exact ⟨Nat.le_of_not_lt hleast, toNat_ofNat (by simpa using hvalid)⟩
    · cases h

theorem decode?_two {p t : Nat} (hp : p < 32) (ht : t < 64) (rest : Bytes) :
    decode? (UInt8.ofNat (p + 0xC0) :: UInt8.ofNat (t + 0x80) :: rest) =
      (scalar? 0x80 (p * 64 + t)).map (·, 2) := by
  have hlead : p + 0xC0 < 256 := by omega
  have h1 : ¬ UInt8.ofNat (p + 0xC0) < 0x80 := not_ofNat_lt hlead (show 0x80 ≤ p + 0xC0 by omega)
  have h2 : ¬ UInt8.ofNat (p + 0xC0) < 0xC0 := not_ofNat_lt hlead (show 0xC0 ≤ p + 0xC0 by omega)
  have h3 : UInt8.ofNat (p + 0xC0) < 0xE0 := ofNat_lt hlead (show p + 0xC0 < 0xE0 by omega)
  simp only [decode?, if_neg h1, if_neg h2, if_pos h3, tail?_ofNat ht, toNat_byte hlead,
    Nat.add_sub_cancel, Option.map_eq_bind]
  rfl

theorem decode?_three {p t u : Nat} (hp : p < 16) (ht : t < 64) (hu : u < 64) (rest : Bytes) :
    decode? (UInt8.ofNat (p + 0xE0) :: UInt8.ofNat (t + 0x80) :: UInt8.ofNat (u + 0x80) :: rest) =
      (scalar? 0x800 ((p * 64 + t) * 64 + u)).map (·, 3) := by
  have hlead : p + 0xE0 < 256 := by omega
  have h1 : ¬ UInt8.ofNat (p + 0xE0) < 0x80 := not_ofNat_lt hlead (show 0x80 ≤ p + 0xE0 by omega)
  have h2 : ¬ UInt8.ofNat (p + 0xE0) < 0xC0 := not_ofNat_lt hlead (show 0xC0 ≤ p + 0xE0 by omega)
  have h3 : ¬ UInt8.ofNat (p + 0xE0) < 0xE0 := not_ofNat_lt hlead (show 0xE0 ≤ p + 0xE0 by omega)
  have h4 : UInt8.ofNat (p + 0xE0) < 0xF0 := ofNat_lt hlead (show p + 0xE0 < 0xF0 by omega)
  simp only [decode?, if_neg h1, if_neg h2, if_neg h3, if_pos h4, tail?_ofNat ht, tail?_ofNat hu,
    toNat_byte hlead, Nat.add_sub_cancel, Option.map_eq_bind]
  rfl

theorem decode?_four {p t u v : Nat} (hp : p < 8) (ht : t < 64) (hu : u < 64) (hv : v < 64)
    (rest : Bytes) :
    decode? (UInt8.ofNat (p + 0xF0) :: UInt8.ofNat (t + 0x80) :: UInt8.ofNat (u + 0x80) ::
        UInt8.ofNat (v + 0x80) :: rest) =
      (scalar? 0x10000 (((p * 64 + t) * 64 + u) * 64 + v)).map (·, 4) := by
  have hlead : p + 0xF0 < 256 := by omega
  have h1 : ¬ UInt8.ofNat (p + 0xF0) < 0x80 := not_ofNat_lt hlead (show 0x80 ≤ p + 0xF0 by omega)
  have h2 : ¬ UInt8.ofNat (p + 0xF0) < 0xC0 := not_ofNat_lt hlead (show 0xC0 ≤ p + 0xF0 by omega)
  have h3 : ¬ UInt8.ofNat (p + 0xF0) < 0xE0 := not_ofNat_lt hlead (show 0xE0 ≤ p + 0xF0 by omega)
  have h4 : ¬ UInt8.ofNat (p + 0xF0) < 0xF0 := not_ofNat_lt hlead (show 0xF0 ≤ p + 0xF0 by omega)
  have h5 : UInt8.ofNat (p + 0xF0) < 0xF8 := ofNat_lt hlead (show p + 0xF0 < 0xF8 by omega)
  simp only [decode?, if_neg h1, if_neg h2, if_neg h3, if_neg h4, if_pos h5, tail?_ofNat ht,
    tail?_ofNat hu, tail?_ofNat hv, toNat_byte hlead, Nat.add_sub_cancel, Option.map_eq_bind]
  rfl

/-- A character is read off the bytes that it is written as. -/
theorem decode?_ofChar_append (c : Char) (rest : Bytes) :
    decode? (Bytes.ofChar c ++ rest) = some (c, (Bytes.ofChar c).length) := by
  have hmax := toNat_cases c
  rw [ofChar_eq]
  split
  · rename_i h1
    have hlead : UInt8.ofNat c.toNat < 0x80 := ofNat_lt (by omega) h1
    simp [decode?, hlead, toNat_byte (show c.toNat < 256 by omega), Char.ofNat_toNat]
  · rename_i h1
    split
    · rename_i h2
      have hvalue : c.toNat / 64 * 64 + c.toNat % 64 = c.toNat := by omega
      simp only [List.cons_append]
      rw [decode?_two (by omega) (by omega), hvalue, scalar?_toNat c (by omega)]
      rfl
    · rename_i h2
      split
      · rename_i h3
        have hvalue : (c.toNat / 4096 * 64 + c.toNat / 64 % 64) * 64 + c.toNat % 64 = c.toNat := by
          omega
        simp only [List.cons_append]
        rw [decode?_three (by omega) (by omega) (by omega), hvalue, scalar?_toNat c (by omega)]
        rfl
      · rename_i h3
        have hvalue : ((c.toNat / 262144 * 64 + c.toNat / 4096 % 64) * 64 +
            c.toNat / 64 % 64) * 64 + c.toNat % 64 = c.toNat := by omega
        simp only [List.cons_append]
        rw [decode?_four (by omega) (by omega) (by omega) (by omega), hvalue,
          scalar?_toNat c (by omega)]
        rfl

theorem ofChar_of_one {c : Char} {b : UInt8} (hb : b.toNat < 0x80) (hc : c.toNat = b.toNat) :
    Bytes.ofChar c = [b] := by
  rw [ofChar_eq, hc, if_pos hb, UInt8.ofNat_toNat]

theorem ofChar_of_two {c : Char} {b : UInt8} {t : Nat} (ht : t < 64)
    (hc : c.toNat = (b.toNat - 0xC0) * 64 + t) (hlow : 0xC0 ≤ b.toNat) (hhigh : b.toNat < 0xE0)
    (hleast : 0x80 ≤ c.toNat) : Bytes.ofChar c = [b, UInt8.ofNat (t + 0x80)] := by
  have hfirst : c.toNat / 64 + 0xC0 = b.toNat := by omega
  have hsecond : c.toNat % 64 = t := by omega
  rw [ofChar_eq, if_neg (by omega), if_pos (by omega), hfirst, hsecond, UInt8.ofNat_toNat]

theorem ofChar_of_three {c : Char} {b : UInt8} {t u : Nat} (ht : t < 64) (hu : u < 64)
    (hc : c.toNat = ((b.toNat - 0xE0) * 64 + t) * 64 + u) (hlow : 0xE0 ≤ b.toNat)
    (hhigh : b.toNat < 0xF0) (hleast : 0x800 ≤ c.toNat) :
    Bytes.ofChar c = [b, UInt8.ofNat (t + 0x80), UInt8.ofNat (u + 0x80)] := by
  have hfirst : c.toNat / 4096 + 0xE0 = b.toNat := by omega
  have hsecond : c.toNat / 64 % 64 = t := by omega
  have hthird : c.toNat % 64 = u := by omega
  rw [ofChar_eq, if_neg (by omega), if_neg (by omega), if_pos (by omega), hfirst, hsecond, hthird,
    UInt8.ofNat_toNat]

theorem ofChar_of_four {c : Char} {b : UInt8} {t u v : Nat} (ht : t < 64) (hu : u < 64)
    (hv : v < 64) (hc : c.toNat = (((b.toNat - 0xF0) * 64 + t) * 64 + u) * 64 + v)
    (hlow : 0xF0 ≤ b.toNat) (hleast : 0x10000 ≤ c.toNat) :
    Bytes.ofChar c =
      [b, UInt8.ofNat (t + 0x80), UInt8.ofNat (u + 0x80), UInt8.ofNat (v + 0x80)] := by
  have hfirst : c.toNat / 262144 + 0xF0 = b.toNat := by omega
  have hsecond : c.toNat / 4096 % 64 = t := by omega
  have hthird : c.toNat / 64 % 64 = u := by omega
  have hfourth : c.toNat % 64 = v := by omega
  rw [ofChar_eq, if_neg (by omega), if_neg (by omega), if_neg (by omega), hfirst, hsecond, hthird,
    hfourth, UInt8.ofNat_toNat]

theorem le_toNat_of_not_lt {a b : UInt8} (h : ¬ b < a) : a.toNat ≤ b.toNat :=
  Nat.le_of_not_lt fun hlt => h (UInt8.lt_iff_toNat_lt.mpr hlt)

/-- What is read as a character is what that character is written as. -/
theorem eq_of_decode? {b : Bytes} {c : Char} {n : Nat} (h : decode? b = some (c, n)) :
    ∃ rest, b = Bytes.ofChar c ++ rest ∧ n = (Bytes.ofChar c).length := by
  unfold decode? at h
  split at h
  · cases h
  rename_i b0 rest
  split at h
  · rename_i h1
    obtain ⟨rfl, rfl⟩ := Prod.mk.inj (Option.some.inj h)
    have hlead : b0.toNat < 0x80 := UInt8.lt_iff_toNat_lt.mp h1
    have hchar := ofChar_of_one hlead (toNat_ofNat (Or.inl (Nat.lt_trans hlead (by decide))))
    exact ⟨rest, by rw [hchar, List.singleton_append], by rw [hchar]; rfl⟩
  split at h
  · cases h
  rename_i h2
  split at h
  · rename_i h3
    split at h
    · rename_i b1 rest'
      simp only [bind, Option.bind_eq_some_iff, pure, Option.some.injEq, Prod.mk.injEq] at h
      obtain ⟨t1, ht1, c', hc', rfl, rfl⟩ := h
      obtain ⟨hsmall, rfl⟩ := eq_of_tail? ht1
      obtain ⟨hleast, hnat⟩ := toNat_of_scalar? hc'
      have hchar := ofChar_of_two hsmall hnat (le_toNat_of_not_lt h2)
        (UInt8.lt_iff_toNat_lt.mp h3) (hnat ▸ hleast)
      exact ⟨rest', by rw [hchar]; rfl, by rw [hchar]; rfl⟩
    · cases h
  rename_i h3
  split at h
  · rename_i h4
    split at h
    · rename_i b1 b2 rest'
      simp only [bind, Option.bind_eq_some_iff, pure, Option.some.injEq, Prod.mk.injEq] at h
      obtain ⟨t1, ht1, t2, ht2, c', hc', rfl, rfl⟩ := h
      obtain ⟨hsmall1, rfl⟩ := eq_of_tail? ht1
      obtain ⟨hsmall2, rfl⟩ := eq_of_tail? ht2
      obtain ⟨hleast, hnat⟩ := toNat_of_scalar? hc'
      have hchar := ofChar_of_three hsmall1 hsmall2 hnat (le_toNat_of_not_lt h3)
        (UInt8.lt_iff_toNat_lt.mp h4) (hnat ▸ hleast)
      exact ⟨rest', by rw [hchar]; rfl, by rw [hchar]; rfl⟩
    · cases h
  rename_i h4
  split at h
  · split at h
    · rename_i b1 b2 b3 rest'
      simp only [bind, Option.bind_eq_some_iff, pure, Option.some.injEq, Prod.mk.injEq] at h
      obtain ⟨t1, ht1, t2, ht2, t3, ht3, c', hc', rfl, rfl⟩ := h
      obtain ⟨hsmall1, rfl⟩ := eq_of_tail? ht1
      obtain ⟨hsmall2, rfl⟩ := eq_of_tail? ht2
      obtain ⟨hsmall3, rfl⟩ := eq_of_tail? ht3
      obtain ⟨hleast, hnat⟩ := toNat_of_scalar? hc'
      have hchar := ofChar_of_four hsmall1 hsmall2 hsmall3 hnat (le_toNat_of_not_lt h4)
        (hnat ▸ hleast)
      exact ⟨rest', by rw [hchar]; rfl, by rw [hchar]; rfl⟩
    · cases h
  · cases h

/-- A character is written as a byte that starts it and bytes that continue it. -/
theorem exists_ofChar_eq_cons (c : Char) :
    ∃ lead tails, Bytes.ofChar c = lead :: tails ∧ tail? lead = none ∧
      ∀ b ∈ tails, (tail? b).isSome = true := by
  have hmax := toNat_cases c
  have htail : ∀ n, (tail? (UInt8.ofNat (n % 64 + 0x80))).isSome = true := by
    intro n
    rw [tail?_ofNat (Nat.mod_lt n (by decide))]
    rfl
  rw [ofChar_eq]
  split
  · refine ⟨_, [], rfl, ?_, by simp⟩
    rw [tail?_eq, toNat_byte (by omega), if_neg (by omega)]
  split
  · refine ⟨_, _, rfl, ?_, by simpa using htail c.toNat⟩
    rw [tail?_eq, toNat_byte (by omega), if_neg (by omega)]
  split
  · refine ⟨_, _, rfl, ?_, ?_⟩
    · rw [tail?_eq, toNat_byte (by omega), if_neg (by omega)]
    · intro b hb
      rcases List.mem_cons.mp hb with rfl | hb
      · exact htail _
      · rw [List.mem_singleton.mp hb]
        exact htail _
  · refine ⟨_, _, rfl, ?_, ?_⟩
    · rw [tail?_eq, toNat_byte (by omega), if_neg (by omega)]
    · intro b hb
      rcases List.mem_cons.mp hb with rfl | hb
      · exact htail _
      · rcases List.mem_cons.mp hb with rfl | hb
        · exact htail _
        · rw [List.mem_singleton.mp hb]
          exact htail _

/-! ## Reading a byte string -/

theorem pieces_ofChar_append (c : Char) (rest : Bytes) :
    pieces (Bytes.ofChar c ++ rest) = .char c :: pieces rest := by
  have hdecode := decode?_ofChar_append c rest
  obtain ⟨lead, tails, hchar, -⟩ := exists_ofChar_eq_cons c
  rw [hchar, List.cons_append] at hdecode ⊢
  rw [pieces, hdecode]
  simp

theorem pieces_of_decode?_eq_none {b : UInt8} {rest : Bytes} (h : decode? (b :: rest) = none) :
    pieces (b :: rest) = .stray b :: pieces rest := by
  rw [pieces, h]

/-- A byte string is empty, or starts with a character, or with a stray byte. -/
theorem read_induction {P : Bytes → Prop} (nil : P [])
    (char : ∀ c rest, P rest → P (Bytes.ofChar c ++ rest))
    (stray : ∀ b rest, decode? (b :: rest) = none → P rest → P (b :: rest)) (b : Bytes) : P b := by
  induction hn : b.length using Nat.strongRecOn generalizing b with
  | ind n ih =>
      cases b with
      | nil => exact nil
      | cons x rest =>
          cases hdecode : decode? (x :: rest) with
          | none => exact stray x rest hdecode (ih rest.length (by simp [← hn]) rest rfl)
          | some p =>
              obtain ⟨after, heq, -⟩ := eq_of_decode? hdecode
              obtain ⟨lead, tails, hchar, -⟩ := exists_ofChar_eq_cons p.1
              have hlength : after.length < n := by
                rw [← hn, heq, hchar, List.length_append, List.length_cons]
                omega
              rw [heq]
              exact char p.1 after (ih after.length hlength after rfl)

theorem flatMap_bytes_pieces (b : Bytes) : (pieces b).flatMap Piece.bytes = b := by
  induction b using read_induction with
  | nil => simp [pieces]
  | char c rest ih => rw [pieces_ofChar_append, List.flatMap_cons, ih]; rfl
  | stray x rest h ih => rw [pieces_of_decode?_eq_none h, List.flatMap_cons, ih]; rfl

/-- A byte string that starts with no continuation does not change how what stands before it is
read. -/
theorem decode?_append_eq_none {a b : Bytes} (ha : a ≠ []) (h : decode? a = none)
    (hb : ∀ x ∈ b.head?, tail? x = none) : decode? (a ++ b) = none := by
  cases hdecode : decode? (a ++ b) with
  | none => rfl
  | some p =>
      obtain ⟨after, heq, -⟩ := eq_of_decode? hdecode
      rcases List.append_eq_append_iff.mp heq with ⟨s, hchar, hrest⟩ | ⟨s, hchar, hrest⟩
      · obtain ⟨lead, tails, hlead, -, htails⟩ := exists_ofChar_eq_cons p.1
        cases s with
        | nil =>
            rw [List.append_nil] at hchar
            have := decode?_ofChar_append p.1 []
            rw [hchar, List.append_nil, h] at this
            cases this
        | cons x s =>
            obtain ⟨y, a', rfl⟩ := List.exists_cons_of_ne_nil ha
            rw [hlead, List.cons_append, List.cons.injEq] at hchar
            have hx : (tail? x).isSome = true := htails x (by simp [hchar.2])
            rw [hb x (by simp [hrest])] at hx
            cases hx
      · have := decode?_ofChar_append p.1 s
        rw [← hchar, h] at this
        cases this

theorem pieces_append (a : Bytes) {b : Bytes} (h : ∀ x ∈ b.head?, tail? x = none) :
    pieces (a ++ b) = pieces a ++ pieces b := by
  induction a using read_induction with
  | nil => simp [pieces]
  | char c rest ih =>
      rw [List.append_assoc, pieces_ofChar_append, pieces_ofChar_append, ih, List.cons_append]
  | stray x rest hstray ih =>
      have hboth := decode?_append_eq_none (List.cons_ne_nil x rest) hstray h
      rw [List.cons_append] at hboth ⊢
      rw [pieces_of_decode?_eq_none hboth, pieces_of_decode?_eq_none hstray, ih, List.cons_append]

theorem pieces_ofChars_append (cs : List Char) (rest : Bytes) :
    pieces (Bytes.ofChars cs ++ rest) = cs.map .char ++ pieces rest := by
  induction cs with
  | nil => rfl
  | cons c cs ih =>
      rw [Bytes.ofChars, List.flatMap_cons, List.append_assoc, pieces_ofChar_append]
      exact congrArg _ ih

theorem pieces_append_ofChars (a : Bytes) (cs : List Char) :
    pieces (a ++ Bytes.ofChars cs) = pieces a ++ cs.map .char := by
  have hpieces : pieces (Bytes.ofChars cs) = cs.map .char := by
    have happend := pieces_ofChars_append cs []
    rwa [List.append_nil, pieces, List.append_nil] at happend
  rw [pieces_append, hpieces]
  cases cs with
  | nil => simp [Bytes.ofChars]
  | cons c cs =>
      obtain ⟨lead, tails, hchar, hlead, -⟩ := exists_ofChar_eq_cons c
      simpa [Bytes.ofChars, hchar] using hlead

end Utf8

/-! ## Surrounding white space -/

namespace Trim

def StartsBlank (b : Bytes) : Prop :=
  ∃ c rest, Unicode.isBlank c = true ∧ b = Bytes.ofChar c ++ rest

def EndsBlank (b : Bytes) : Prop :=
  ∃ c rest, Unicode.isBlank c = true ∧ b = rest ++ Bytes.ofChar c

/-- What is left of `b` less the white-space characters around it is `body`. -/
structure Strips (b body : Bytes) : Prop where
  around : ∃ before after : List Char, (∀ c ∈ before, Unicode.isBlank c = true) ∧
    (∀ c ∈ after, Unicode.isBlank c = true) ∧
    b = Bytes.ofChars before ++ body ++ Bytes.ofChars after
  start : ¬ StartsBlank body
  stop : ¬ EndsBlank body

theorem eq_char_of_isBlank {p : Utf8.Piece} (h : isBlank p = true) :
    ∃ c, Unicode.isBlank c = true ∧ p = .char c := by
  cases p with
  | char c => exact ⟨c, h, rfl⟩
  | stray b => cases h

theorem startsBlank_iff (b : Bytes) :
    StartsBlank b ↔ ∃ p, (Utf8.pieces b).head? = some p ∧ isBlank p = true := by
  constructor
  · rintro ⟨c, rest, hc, rfl⟩
    exact ⟨.char c, by rw [Utf8.pieces_ofChar_append]; rfl, hc⟩
  · rintro ⟨p, hhead, hp⟩
    obtain ⟨c, hc, rfl⟩ := eq_char_of_isBlank hp
    obtain ⟨ps, hps⟩ := List.head?_eq_some_iff.mp hhead
    refine ⟨c, ps.flatMap Utf8.Piece.bytes, hc, ?_⟩
    rw [← Utf8.flatMap_bytes_pieces b, hps, List.flatMap_cons]
    rfl

theorem endsBlank_iff (b : Bytes) :
    EndsBlank b ↔ ∃ p, (Utf8.pieces b).getLast? = some p ∧ isBlank p = true := by
  constructor
  · rintro ⟨c, rest, hc, rfl⟩
    have hpieces := Utf8.pieces_append_ofChars rest [c]
    rw [Bytes.ofChars, List.flatMap_singleton] at hpieces
    exact ⟨.char c, by simp [hpieces], hc⟩
  · rintro ⟨p, hlast, hp⟩
    obtain ⟨c, hc, rfl⟩ := eq_char_of_isBlank hp
    obtain ⟨ps, hps⟩ := List.getLast?_eq_some_iff.mp hlast
    refine ⟨c, ps.flatMap Utf8.Piece.bytes, hc, ?_⟩
    rw [← Utf8.flatMap_bytes_pieces b, hps, List.flatMap_append, List.flatMap_singleton]
    rfl

theorem exists_map_char {ps : List Utf8.Piece} (h : ∀ p ∈ ps, isBlank p = true) :
    ∃ cs : List Char, (∀ c ∈ cs, Unicode.isBlank c = true) ∧ ps = cs.map .char := by
  induction ps with
  | nil => exact ⟨[], by simp, rfl⟩
  | cons p ps ih =>
      obtain ⟨c, hc, rfl⟩ := eq_char_of_isBlank (h p List.mem_cons_self)
      obtain ⟨cs, hcs, rfl⟩ := ih fun q hq => h q (List.mem_cons_of_mem _ hq)
      exact ⟨c :: cs, by simpa [hc] using hcs, rfl⟩

theorem isBlank_head?_leading {ps : List Utf8.Piece} {p : Utf8.Piece}
    (h : (leading ps).head? = some p) : isBlank p = false := by
  have hhead := List.head?_dropWhile_not isBlank ps
  rw [leading] at h
  rwa [h] at hhead

theorem isBlank_getLast?_trailing {ps : List Utf8.Piece} {p : Utf8.Piece}
    (h : (trailing ps).getLast? = some p) : isBlank p = false := by
  rw [trailing, List.getLast?_reverse, ← leading] at h
  exact isBlank_head?_leading h

theorem exists_around (ps : List Utf8.Piece) :
    ∃ before after, (∀ p ∈ before, isBlank p = true) ∧ (∀ p ∈ after, isBlank p = true) ∧
      leading ps = trailing (leading ps) ++ after ∧ ps = before ++ leading ps := by
  refine ⟨ps.takeWhile isBlank, ((leading ps).reverse.takeWhile isBlank).reverse, ?_, ?_, ?_, ?_⟩
  · exact fun p hp => List.mem_takeWhile_imp hp
  · exact fun p hp => List.mem_takeWhile_imp (List.mem_reverse.mp hp)
  · rw [trailing, ← List.reverse_append, List.takeWhile_append_dropWhile, List.reverse_reverse]
  · exact List.takeWhile_append_dropWhile.symm

theorem leading_append {before ps : List Utf8.Piece} (h : ∀ p ∈ before, isBlank p = true) :
    leading (before ++ ps) = leading ps :=
  List.dropWhile_append_of_pos h

theorem leading_of_head? {ps : List Utf8.Piece} (h : ∀ p, ps.head? = some p → isBlank p = false) :
    leading ps = ps := by
  cases ps with
  | nil => rfl
  | cons p ps => rw [leading, List.dropWhile_cons_of_neg (by simp [h p rfl])]

theorem trailing_append {ps after : List Utf8.Piece} (h : ∀ p ∈ after, isBlank p = true) :
    trailing (ps ++ after) = trailing ps := by
  rw [trailing, List.reverse_append]
  exact congrArg List.reverse (leading_append fun p hp => h p (List.mem_reverse.mp hp))

theorem trailing_of_getLast? {ps : List Utf8.Piece}
    (h : ∀ p, ps.getLast? = some p → isBlank p = false) : trailing ps = ps := by
  have hreverse : leading ps.reverse = ps.reverse := leading_of_head? (by simpa using h)
  rw [trailing, ← leading, hreverse, List.reverse_reverse]

theorem strips_trim (b : Bytes) : Strips b (trim b) := by
  obtain ⟨before, after, hbefore, hafter, hleading, hpieces⟩ := exists_around (Utf8.pieces b)
  obtain ⟨cs, hcs, rfl⟩ := exists_map_char hbefore
  obtain ⟨ds, hds, rfl⟩ := exists_map_char hafter
  have hchars : ∀ es : List Char, (es.map Utf8.Piece.char).flatMap Utf8.Piece.bytes =
      Bytes.ofChars es := fun es => by rw [List.flatMap_map]; rfl
  have hb : b = Bytes.ofChars cs ++ trim b ++ Bytes.ofChars ds := by
    rw [trim, ← hchars cs, ← hchars ds, List.append_assoc, ← List.flatMap_append, ← hleading,
      ← List.flatMap_append, ← hpieces, Utf8.flatMap_bytes_pieces]
  have htrim : Utf8.pieces (trim b) = trailing (leading (Utf8.pieces b)) := by
    have hread : Utf8.pieces b = cs.map .char ++ (Utf8.pieces (trim b) ++ ds.map .char) := by
      rw [← Utf8.pieces_append_ofChars, ← Utf8.pieces_ofChars_append, ← List.append_assoc, ← hb]
    have hcancel := List.append_cancel_left (hpieces.symm.trans hread)
    exact (List.append_cancel_right (hleading.symm.trans hcancel)).symm
  refine ⟨⟨cs, ds, hcs, hds, hb⟩, ?_, ?_⟩
  · rw [startsBlank_iff, htrim]
    rintro ⟨p, hhead, hp⟩
    have hlead : (leading (Utf8.pieces b)).head? = some p := by
      rw [hleading, List.head?_append, hhead]
      rfl
    rw [isBlank_head?_leading hlead] at hp
    cases hp
  · rw [endsBlank_iff, htrim]
    rintro ⟨p, hlast, hp⟩
    rw [isBlank_getLast?_trailing hlast] at hp
    cases hp

theorem Strips.trim_eq {b body : Bytes} (h : Strips b body) : trim b = body := by
  obtain ⟨cs, ds, hcs, hds, rfl⟩ := h.around
  have hblank : ∀ {es : List Char}, (∀ c ∈ es, Unicode.isBlank c = true) →
      ∀ p ∈ es.map Utf8.Piece.char, isBlank p = true := by
    intro es hes p hp
    obtain ⟨c, hc, rfl⟩ := List.mem_map.mp hp
    exact hes c hc
  have hhead : ∀ p, (Utf8.pieces body).head? = some p → isBlank p = false := by
    intro p hp
    rw [← Bool.not_eq_true]
    exact fun htrue => h.start ((startsBlank_iff body).mpr ⟨p, hp, htrue⟩)
  have hlast : ∀ p, (Utf8.pieces body).getLast? = some p → isBlank p = false := by
    intro p hp
    rw [← Bool.not_eq_true]
    exact fun htrue => h.stop ((endsBlank_iff body).mpr ⟨p, hp, htrue⟩)
  rw [trim, List.append_assoc, Utf8.pieces_ofChars_append, Utf8.pieces_append_ofChars,
    leading_append (hblank hcs)]
  cases hpieces : Utf8.pieces body with
  | nil =>
      have hnil : leading (ds.map .char ++ []) = leading [] := leading_append (hblank hds)
      rw [List.append_nil] at hnil
      rw [← Utf8.flatMap_bytes_pieces body, hpieces, List.nil_append, hnil]
      rfl
  | cons p ps =>
      rw [← hpieces, leading_of_head? (by simpa [hpieces] using hhead),
        trailing_append (hblank hds), trailing_of_getLast? hlast, Utf8.flatMap_bytes_pieces]

end Trim

end MerlinBridge
