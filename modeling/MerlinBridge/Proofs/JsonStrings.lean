import MerlinBridge.Json.Number
import MerlinBridge.Proofs.JsonGrammar
import MerlinBridge.Proofs.Utf8Pieces

/-!
# What the strings of a JSON text stand for

`StandsFor` gives the meaning of the body of a string one escape at a time: two escapes
that form a surrogate pair stand for one character, and a surrogate that is not half of
a pair for the replacement character, together with the escape that follows it if there
is one. Every legal body stands for one text, which is what it is unescaped to
(`unescape_eq_iff`). A member is looked up by the text that its key stands for
(`get?_eq_some_iff`).
-/

namespace MerlinBridge

namespace Json

def unitEscape (h1 h2 h3 h4 : UInt8) : Bytes :=
  [Bytes.byte '\\', Bytes.byte 'u', h1, h2, h3, h4]

inductive StandsFor : Bytes → Bytes → Prop where
  | nil : StandsFor [] []
  | plain {c : UInt8} {rest t : Bytes} (backslash : c ≠ Bytes.byte '\\') (tail : StandsFor rest t) :
      StandsFor (c :: rest) (c :: t)
  | escape {e : UInt8} {rest t : Bytes} (valid : isEscape e = true) (tail : StandsFor rest t) :
      StandsFor (Bytes.byte '\\' :: e :: rest) (escapeByte e :: t)
  | unit {h1 h2 h3 h4 : UInt8} {rest t : Bytes} (whole : isSurrogate (unit h1 h2 h3 h4) = false)
      (tail : StandsFor rest t) :
      StandsFor (unitEscape h1 h2 h3 h4 ++ rest)
        (Bytes.ofChar (Char.ofNat (Json.unit h1 h2 h3 h4)) ++ t)
  | pair {h1 h2 h3 h4 k1 k2 k3 k4 : UInt8} {rest t : Bytes} {c : Char}
      (paired : pair? (Json.unit h1 h2 h3 h4) (Json.unit k1 k2 k3 k4) = some c)
      (tail : StandsFor rest t) :
      StandsFor (unitEscape h1 h2 h3 h4 ++ (unitEscape k1 k2 k3 k4 ++ rest)) (Bytes.ofChar c ++ t)
  /-- A half of a pair, and another unit that is not its partner. -/
  | unpaired {h1 h2 h3 h4 k1 k2 k3 k4 : UInt8} {rest t : Bytes}
      (half : isSurrogate (Json.unit h1 h2 h3 h4) = true)
      (unpaired : pair? (Json.unit h1 h2 h3 h4) (Json.unit k1 k2 k3 k4) = none)
      (tail : StandsFor rest t) :
      StandsFor (unitEscape h1 h2 h3 h4 ++ (unitEscape k1 k2 k3 k4 ++ rest))
        (Bytes.ofChar Utf8.Piece.replacement ++ t)
  | lone {h1 h2 h3 h4 : UInt8} {rest t : Bytes} (half : isSurrogate (Json.unit h1 h2 h3 h4) = true)
      (alone : unitEscape? rest = none) (tail : StandsFor rest t) :
      StandsFor (unitEscape h1 h2 h3 h4 ++ rest) (Bytes.ofChar Utf8.Piece.replacement ++ t)

theorem unitEscape?_append (h1 h2 h3 h4 : UInt8) (rest : Bytes) :
    unitEscape? (unitEscape h1 h2 h3 h4 ++ rest) = some (Json.unit h1 h2 h3 h4, rest) := rfl

theorem isSurrogate_of_pair? {high low : Nat} {c : Char} (h : pair? high low = some c) :
    isSurrogate high = true := by
  unfold pair? at h
  split at h
  · rename_i hpair
    simp only [Bool.and_eq_true, decide_eq_true_eq] at hpair
    simp only [isSurrogate, Bool.and_eq_true, decide_eq_true_eq]
    omega
  · cases h

theorem unitEscape?_escape {e : UInt8} (h : e ≠ Bytes.byte 'u') (rest : Bytes) :
    unitEscape? (Bytes.byte '\\' :: e :: rest) = none := by
  unfold unitEscape?
  split
  · rename_i heq
    simp only [List.cons.injEq] at heq
    obtain ⟨rfl, rfl, -⟩ := heq
    simp [h]
  · rfl

theorem eq_of_unitEscape? {s rest : Bytes} {n : Nat} (h : unitEscape? s = some (n, rest)) :
    ∃ h1 h2 h3 h4, n = Json.unit h1 h2 h3 h4 ∧ s = unitEscape h1 h2 h3 h4 ++ rest := by
  unfold unitEscape? at h
  split at h
  · rename_i b u h1 h2 h3 h4 rest'
    split at h
    · rename_i hlead
      simp only [Bool.and_eq_true, decide_eq_true_eq] at hlead
      obtain ⟨rfl, rfl⟩ := Prod.mk.inj (Option.some.inj h)
      obtain ⟨rfl, rfl⟩ := hlead
      exact ⟨h1, h2, h3, h4, rfl, rfl⟩
    · cases h
  · cases h

section Unescape

variable {fuel : Nat} {rest acc : Bytes}

theorem unescapeOnto_plain {c : UInt8} (h : c ≠ Bytes.byte '\\') :
    unescapeOnto true (fuel + 1) (c :: rest) acc = unescapeOnto true fuel rest (c :: acc) := by
  rw [unescapeOnto.eq_def]
  simp only [if_neg h]

theorem unescapeOnto_escape {e : UInt8} (h : e ≠ Bytes.byte 'u') :
    unescapeOnto true (fuel + 1) (Bytes.byte '\\' :: e :: rest) acc =
      unescapeOnto true fuel rest (escapeByte e :: acc) := by
  rw [unescapeOnto.eq_def]
  simp only [if_true, unitEscape?_escape h]

theorem unescapeOnto_unit {h1 h2 h3 h4 : UInt8} {c : Char} {used : Nat}
    (h : resolve true (Json.unit h1 h2 h3 h4) rest = (c, used)) :
    unescapeOnto true (fuel + 1) (unitEscape h1 h2 h3 h4 ++ rest) acc =
      unescapeOnto true fuel (rest.drop used) ((Bytes.ofChar c).reverse ++ acc) := by
  have hstep : unescapeOnto true (fuel + 1) (unitEscape h1 h2 h3 h4 ++ rest) acc =
      unescapeOnto true fuel (rest.drop (resolve true (Json.unit h1 h2 h3 h4) rest).2)
        ((Bytes.ofChar (resolve true (Json.unit h1 h2 h3 h4) rest).1).reverse ++ acc) := rfl
  rw [hstep, h]

end Unescape

theorem StandsFor.unescapeOnto_eq {b t : Bytes} (h : StandsFor b t) {fuel : Nat}
    (hfuel : b.length ≤ fuel) (acc : Bytes) :
    unescapeOnto true fuel b acc = t.reverse ++ acc := by
  have hlength : ∀ h1 h2 h3 h4, (unitEscape h1 h2 h3 h4).length = 6 := fun _ _ _ _ => rfl
  induction h generalizing fuel acc with
  | nil => cases fuel <;> rfl
  | plain backslash _ ih =>
      obtain ⟨fuel, rfl⟩ := Nat.exists_eq_add_of_le' (Nat.le_trans (Nat.succ_pos _) hfuel)
      rw [unescapeOnto_plain backslash, ih (Nat.le_of_succ_le_succ hfuel)]
      simp
  | @escape e rest t valid _ ih =>
      have hu : e ≠ Bytes.byte 'u' := by
        rintro rfl
        exact absurd valid (by decide)
      obtain ⟨fuel, rfl⟩ := Nat.exists_eq_add_of_le' (Nat.le_trans (Nat.succ_pos _) hfuel)
      rw [unescapeOnto_escape hu, ih (by simp only [List.length_cons] at hfuel; omega)]
      simp
  | @unit h1 h2 h3 h4 rest t whole _ ih =>
      rw [List.length_append, hlength] at hfuel
      obtain ⟨fuel, rfl⟩ := Nat.exists_eq_add_of_le' (show 1 ≤ fuel by omega)
      have hresolve : resolve true (Json.unit h1 h2 h3 h4) rest =
          (Char.ofNat (Json.unit h1 h2 h3 h4), 0) := by simp [resolve, whole]
      rw [unescapeOnto_unit hresolve, List.drop_zero, ih (by omega)]
      simp
  | @pair h1 h2 h3 h4 k1 k2 k3 k4 rest t c paired _ ih =>
      rw [List.length_append, List.length_append, hlength, hlength] at hfuel
      obtain ⟨fuel, rfl⟩ := Nat.exists_eq_add_of_le' (show 1 ≤ fuel by omega)
      have hresolve : resolve true (Json.unit h1 h2 h3 h4) (unitEscape k1 k2 k3 k4 ++ rest) =
          (c, 6) := by
        simp [resolve, isSurrogate_of_pair? paired, unitEscape?_append, paired]
      rw [unescapeOnto_unit hresolve]
      exact (ih (by omega) _).trans (by simp)
  | @unpaired h1 h2 h3 h4 k1 k2 k3 k4 rest t half unpaired _ ih =>
      rw [List.length_append, List.length_append, hlength, hlength] at hfuel
      obtain ⟨fuel, rfl⟩ := Nat.exists_eq_add_of_le' (show 1 ≤ fuel by omega)
      have hresolve : resolve true (Json.unit h1 h2 h3 h4) (unitEscape k1 k2 k3 k4 ++ rest) =
          (Utf8.Piece.replacement, 6) := by
        simp [resolve, half, unitEscape?_append, unpaired]
      rw [unescapeOnto_unit hresolve]
      exact (ih (by omega) _).trans (by simp)
  | @lone h1 h2 h3 h4 rest t half alone _ ih =>
      rw [List.length_append, hlength] at hfuel
      obtain ⟨fuel, rfl⟩ := Nat.exists_eq_add_of_le' (show 1 ≤ fuel by omega)
      have hresolve : resolve true (Json.unit h1 h2 h3 h4) rest =
          (Utf8.Piece.replacement, 0) := by simp [resolve, half, alone]
      rw [unescapeOnto_unit hresolve, List.drop_zero, ih (by omega)]
      simp

theorem StandsFor.unescape_eq {b t : Bytes} (h : StandsFor b t) : unescape true b = t := by
  rw [unescape, h.unescapeOnto_eq (Nat.le_refl _), List.append_nil, List.reverse_reverse]

/-- What follows the escape of a unit in a legal body is a legal body. -/
theorem IsBody.of_unitEscape {h1 h2 h3 h4 : UInt8} {rest : Bytes}
    (h : IsBody (unitEscape h1 h2 h3 h4 ++ rest)) : IsBody rest := by
  cases h with
  | plain _ backslash _ _ => exact absurd rfl backslash
  | escape valid _ => exact absurd valid (by decide)
  | unit _ _ _ _ tail => exact tail

theorem IsBody.exists_standsFor {b : Bytes} (h : IsBody b) : ∃ t, StandsFor b t := by
  induction hn : b.length using Nat.strongRecOn generalizing b with
  | ind n ih =>
      cases h with
      | nil => exact ⟨[], .nil⟩
      | plain _ backslash _ tail =>
          obtain ⟨t, ht⟩ := ih _ (by simp [← hn]) tail rfl
          exact ⟨_, .plain backslash ht⟩
      | escape valid tail =>
          obtain ⟨t, ht⟩ := ih _ (by simp only [← hn, List.length_cons]; omega) tail rfl
          exact ⟨_, .escape valid ht⟩
      | @unit h1 h2 h3 h4 rest _ _ _ _ tail =>
          obtain ⟨t, ht⟩ := ih rest.length (by simp only [← hn, List.length_cons]; omega) tail rfl
          cases half : isSurrogate (Json.unit h1 h2 h3 h4) with
          | false => exact ⟨_, .unit half ht⟩
          | true =>
              cases hnext : unitEscape? rest with
              | none => exact ⟨_, .lone half hnext ht⟩
              | some p =>
                  obtain ⟨k1, k2, k3, k4, -, rfl⟩ := eq_of_unitEscape? hnext
                  obtain ⟨t', ht'⟩ := ih p.2.length
                    (by simp only [← hn, List.length_cons, List.length_append]; omega)
                    tail.of_unitEscape rfl
                  cases hpair : pair? (Json.unit h1 h2 h3 h4) (Json.unit k1 k2 k3 k4) with
                  | none => exact ⟨_, .unpaired half hpair ht'⟩
                  | some c => exact ⟨_, .pair hpair ht'⟩

theorem unescape_eq_iff {b t : Bytes} (h : IsBody b) : unescape true b = t ↔ StandsFor b t := by
  constructor
  · rintro rfl
    obtain ⟨t, ht⟩ := h.exists_standsFor
    rwa [ht.unescape_eq]
  · exact StandsFor.unescape_eq

theorem StandsFor.eq_nil {b : Bytes} (h : StandsFor b []) : b = [] := by
  have hchar : ∀ (c : Char) (t : Bytes), [] ≠ Bytes.ofChar c ++ t := by
    intro c t
    obtain ⟨lead, tails, hc, -⟩ := Utf8.exists_ofChar_eq_cons c
    simp [hc]
  generalize ht : ([] : Bytes) = t at h
  cases h with
  | nil => rfl
  | plain _ _ => cases ht
  | escape _ _ => cases ht
  | unit _ _ => exact absurd ht (hchar _ _)
  | pair _ _ => exact absurd ht (hchar _ _)
  | unpaired _ _ _ => exact absurd ht (hchar _ _)
  | lone _ _ _ => exact absurd ht (hchar _ _)

def isPlain (c : UInt8) : Bool :=
  c ≠ Bytes.byte '"' && c ≠ Bytes.byte '\\' && 0x20 ≤ c

theorem IsBody.of_plain {b : Bytes} (h : b.all isPlain = true) : IsBody b := by
  induction b with
  | nil => exact .nil
  | cons c b ih =>
      obtain ⟨hc, hb⟩ := Bool.and_eq_true_iff.mp h
      simp only [isPlain, Bool.and_eq_true, decide_eq_true_eq] at hc
      obtain ⟨⟨quote, backslash⟩, control⟩ := hc
      exact .plain quote backslash (UInt8.not_lt.mpr control) (ih hb)

theorem standsFor_self {b : Bytes} (h : Bytes.byte '\\' ∉ b) : StandsFor b b := by
  induction b with
  | nil => exact .nil
  | cons c b ih =>
      have hc : c ≠ Bytes.byte '\\' := fun hc => h (hc ▸ List.mem_cons_self)
      exact .plain hc (ih fun hb => h (List.mem_cons_of_mem c hb))

/-! ## Members -/

/-- `v` is the value of the first member whose key stands for `name`. -/
def IsFirst (members : List (Bytes × Json)) (name : Bytes) (v : Json) : Prop :=
  ∃ before key after, members = before ++ (key, v) :: after ∧ StandsFor key name ∧
    ∀ m ∈ before, ¬ StandsFor m.1 name

theorem isFirst_cons {m : Bytes × Json} {ms : List (Bytes × Json)} {name : Bytes} {v : Json} :
    IsFirst (m :: ms) name v ↔
      StandsFor m.1 name ∧ m.2 = v ∨ ¬ StandsFor m.1 name ∧ IsFirst ms name v := by
  constructor
  · rintro ⟨before, key, after, heq, hkey, hbefore⟩
    cases before with
    | nil =>
        obtain ⟨rfl, rfl⟩ := List.cons.inj heq
        exact Or.inl ⟨hkey, rfl⟩
    | cons n before =>
        obtain ⟨rfl, rfl⟩ := List.cons.inj heq
        have hrest : ∀ k ∈ before, ¬ StandsFor k.1 name :=
          fun k hk => hbefore k (List.mem_cons_of_mem m hk)
        exact Or.inr ⟨hbefore m List.mem_cons_self, before, key, after, rfl, hkey, hrest⟩
  · rintro (⟨hkey, rfl⟩ | ⟨hm, before, key, after, rfl, hkey, hbefore⟩)
    · exact ⟨[], m.1, ms, rfl, hkey, nofun⟩
    · exact ⟨m :: before, key, after, rfl, hkey, List.forall_mem_cons.mpr ⟨hm, hbefore⟩⟩

theorem IsFirst.unique {ms : List (Bytes × Json)} {name : Bytes} {v w : Json}
    (hv : IsFirst ms name v) (hw : IsFirst ms name w) : v = w := by
  induction ms with
  | nil =>
      obtain ⟨before, key, after, heq, -⟩ := hv
      simp at heq
  | cons m ms ih =>
      rcases isFirst_cons.mp hv with ⟨hkey, rfl⟩ | ⟨hkey, hv⟩
      · rcases isFirst_cons.mp hw with ⟨-, rfl⟩ | ⟨hnot, -⟩
        · rfl
        · exact absurd hkey hnot
      · rcases isFirst_cons.mp hw with ⟨hnot, -⟩ | ⟨-, hw⟩
        · exact absurd hnot hkey
        · exact ih hv hw

theorem isFirst_append {l r : List (Bytes × Json)} {name : Bytes} {v : Json} :
    IsFirst (l ++ r) name v ↔
      IsFirst l name v ∨ (∀ m ∈ l, ¬ StandsFor m.1 name) ∧ IsFirst r name v := by
  induction l with
  | nil =>
      have hnil : ¬ IsFirst [] name v := by
        rintro ⟨before, key, after, heq, -⟩
        simp at heq
      simp [hnil]
  | cons m l ih =>
      rw [List.cons_append, isFirst_cons, isFirst_cons, ih, List.forall_mem_cons]
      by_cases hm : StandsFor m.1 name
      · simp only [hm, not_true, false_and, or_false, true_and]
      · simp only [hm, not_false_iff, false_and, false_or, true_and]

/-- A member changes no look-up that an earlier member answers, and none of another name. -/
theorem isFirst_insert {l r : List (Bytes × Json)} {m : Bytes × Json} {name : Bytes} {v : Json}
    (h : StandsFor m.1 name → ∃ n ∈ l, StandsFor n.1 name) :
    IsFirst (l ++ m :: r) name v ↔ IsFirst (l ++ r) name v := by
  rw [isFirst_append, isFirst_append, isFirst_cons]
  by_cases hl : ∀ n ∈ l, ¬ StandsFor n.1 name
  · have hm : ¬ StandsFor m.1 name := by
      intro hm
      obtain ⟨n, hn, hname⟩ := h hm
      exact hl n hn hname
    simp only [hm, not_false_iff, false_and, false_or, true_and]
  · simp only [hl, false_and]

theorem isFirst_swap {l r : List (Bytes × Json)} {m n : Bytes × Json} {name : Bytes} {v : Json}
    (h : StandsFor m.1 name → ¬ StandsFor n.1 name) :
    IsFirst (l ++ m :: n :: r) name v ↔ IsFirst (l ++ n :: m :: r) name v := by
  simp only [isFirst_append, isFirst_cons]
  by_cases hm : StandsFor m.1 name
  · simp only [hm, h hm, true_and, false_and, false_or, not_true, not_false_iff, or_false]
  · simp only [hm, true_and, false_and, false_or, not_false_iff]

theorem Legal.isBody_of_mem_members {v : Json} (h : Legal v) {m : Bytes × Json}
    (hm : m ∈ v.members) : IsBody m.1 := by
  cases h with
  | object _ _ keys _ _ =>
      obtain ⟨w, hw, rfl⟩ := List.mem_map.mp hm
      exact (keys w hw).value
  | _ => cases hm

theorem Legal.of_isFirst {v w : Json} (h : Legal v) {name : Bytes} (hw : IsFirst v.members name w) :
    Legal w := by
  obtain ⟨before, key, after, hmembers, -⟩ := hw
  have hmem : (key, w) ∈ v.members := by simp [hmembers]
  cases h with
  | object _ _ _ _ values =>
      obtain ⟨m, hm, heq⟩ := List.mem_map.mp hmem
      obtain ⟨-, rfl⟩ := Prod.mk.inj heq
      exact values m hm
  | _ => cases hmem

theorem Legal.of_members {members : List (Spaced Bytes × Spaced Json)}
    (h : ∀ m ∈ members, m.1.Good IsBody ∧ m.2.Good Legal) : Legal (.object [] members) := by
  refine .object nofun (Or.inr rfl) ?_ ?_ ?_
  · exact fun m hm => (h m hm).1
  · exact fun m hm => ⟨(h m hm).2.before, (h m hm).2.after⟩
  · exact fun m hm => (h m hm).2.value

theorem Spaced.good_of_plain {b : Bytes} (h : b.all isPlain = true) :
    Spaced.Good IsBody ⟨[], b, []⟩ :=
  ⟨nofun, .of_plain h, nofun⟩

theorem get?_eq_some_iff {v w : Json} {name : Bytes} (h : Legal v) :
    v.get? name = some w ↔ IsFirst v.members name w := by
  have hkey : ∀ m ∈ v.members, (unescape true m.1 = name ↔ StandsFor m.1 name) :=
    fun m hm => unescape_eq_iff (h.isBody_of_mem_members hm)
  simp only [get?, Option.map_eq_some_iff, List.find?_eq_some_iff_append, decide_eq_true_eq]
  constructor
  · rintro ⟨m, ⟨hm, before, after, heq, hbefore⟩, rfl⟩
    refine ⟨before, m.1, after, heq, (hkey m (by simp [heq])).mp hm, ?_⟩
    intro n hn hstands
    have := hbefore n hn
    rw [(hkey n (by simp [heq, hn])).mpr hstands] at this
    simp at this
  · rintro ⟨before, key, after, heq, hstands, hbefore⟩
    refine ⟨(key, w), ⟨(hkey (key, w) (by simp [heq])).mpr hstands, before, after, heq, ?_⟩, rfl⟩
    intro n hn
    have hne : unescape true n.1 ≠ name :=
      fun hread => hbefore n hn ((hkey n (by simp [heq, hn])).mp hread)
    simpa using hne

end Json

end MerlinBridge
