import Mathlib.Data.List.TakeWhile
import MerlinBridge.Json.Parser

/-!
# The grammar of JSON

`Legal` says which values stand for a JSON text: literals and the bodies of strings
follow the grammar of the format, and only white space stands between the parts of an
array or an object. Reading accepts exactly the texts of legal values with white space
around them (`parse?_eq_some_iff`), and what it gives is the value whose text that is.

A reader of parts is sound if what it takes is the text of what it gives, and complete
if it takes the text of a part from the front of any text that does not go on with it.
Both are carried from the parts of an array or an object to the whole.
-/

namespace MerlinBridge

namespace Json

def Blank (s : Bytes) : Prop :=
  ∀ b ∈ s, isBlank b = true

def Begins (P : UInt8 → Prop) (s : Bytes) : Prop :=
  ∀ c, s.head? = some c → P c

theorem Begins.cons {P : UInt8 → Prop} {c : UInt8} {s : Bytes} (h : P c) : Begins P (c :: s) := by
  rintro d ⟨⟩
  exact h

theorem Begins.append {P : UInt8 → Prop} {a b : Bytes} (ha : Begins P a) (hb : Begins P b) :
    Begins P (a ++ b) := by
  cases a with
  | nil => exact hb
  | cons c a => exact .cons (ha c rfl)

theorem Begins.imp {P Q : UInt8 → Prop} {s : Bytes} (h : Begins P s) (himp : ∀ c, P c → Q c) :
    Begins Q s :=
  fun c hc => himp c (h c hc)

/-! ## Strings -/

inductive IsBody : Bytes → Prop where
  | nil : IsBody []
  | plain {c : UInt8} {rest : Bytes} (quote : c ≠ Bytes.byte '"') (backslash : c ≠ Bytes.byte '\\')
      (control : ¬ c < 0x20) (tail : IsBody rest) : IsBody (c :: rest)
  | escape {e : UInt8} {rest : Bytes} (valid : isEscape e = true) (tail : IsBody rest) :
      IsBody (Bytes.byte '\\' :: e :: rest)
  | unit {h1 h2 h3 h4 : UInt8} {rest : Bytes} (hex1 : isHex h1 = true) (hex2 : isHex h2 = true)
      (hex3 : isHex h3 = true) (hex4 : isHex h4 = true) (tail : IsBody rest) :
      IsBody (Bytes.byte '\\' :: Bytes.byte 'u' :: h1 :: h2 :: h3 :: h4 :: rest)

theorem extend_eq_some_iff {lead b rest : Bytes} {r : Option (Bytes × Bytes)} :
    extend lead r = some (b, rest) ↔ ∃ tail, r = some (tail, rest) ∧ lead ++ tail = b := by
  simp only [extend, Option.map_eq_some_iff, Prod.exists, Prod.mk.injEq]
  constructor
  · rintro ⟨tail, after, hr, htail, rfl⟩
    exact ⟨tail, hr, htail⟩
  · rintro ⟨tail, hr, htail⟩
    exact ⟨tail, rest, hr, htail, rfl⟩

theorem body_sound {s b rest : Bytes} (h : body s = some (b, rest)) :
    IsBody b ∧ s = b ++ Bytes.byte '"' :: rest := by
  fun_induction body s generalizing b rest with
  | case2 after =>
      obtain ⟨rfl, rfl⟩ := Prod.mk.inj (Option.some.inj h)
      exact ⟨.nil, rfl⟩
  | case4 h1 h2 h3 h4 after hhex _ ih =>
      obtain ⟨tail, htail, rfl⟩ := extend_eq_some_iff.mp h
      obtain ⟨hbody, rfl⟩ := ih htail
      simp only [Bool.and_eq_true] at hhex
      obtain ⟨⟨⟨hex1, hex2⟩, hex3⟩, hex4⟩ := hhex
      exact ⟨.unit hex1 hex2 hex3 hex4 hbody, rfl⟩
  | case7 e after _ hescape _ ih =>
      obtain ⟨tail, htail, rfl⟩ := extend_eq_some_iff.mp h
      obtain ⟨hbody, rfl⟩ := ih htail
      exact ⟨.escape hescape hbody, rfl⟩
  | case10 c after hquote hbackslash hcontrol ih =>
      obtain ⟨tail, htail, rfl⟩ := extend_eq_some_iff.mp h
      obtain ⟨hbody, rfl⟩ := ih htail
      exact ⟨.plain hquote hbackslash hcontrol hbody, rfl⟩
  | _ => cases h

theorem body_complete {b : Bytes} (h : IsBody b) (rest : Bytes) :
    body (b ++ Bytes.byte '"' :: rest) = some (b, rest) := by
  have hquote : Bytes.byte '\\' ≠ Bytes.byte '"' := by decide
  induction h with
  | nil =>
      rw [List.nil_append, body.eq_def]
      simp only [if_true]
  | plain quote backslash control _ ih =>
      rw [List.cons_append, body.eq_def]
      simp only [if_neg quote, if_neg backslash, if_neg control, ih]
      rfl
  | @escape e tail valid _ ih =>
      have hu : e ≠ Bytes.byte 'u' := by
        rintro rfl
        exact absurd valid (by decide)
      rw [List.cons_append, body.eq_def]
      simp only [List.cons_append, if_neg hquote, if_true, if_neg hu, valid, ih]
      rfl
  | unit hex1 hex2 hex3 hex4 _ ih =>
      rw [List.cons_append, body.eq_def]
      simp only [List.cons_append, if_neg hquote, if_true, hex1, hex2, hex3, hex4, Bool.and_self,
        ih]
      rfl

/-! ## Numbers -/

def IsDigits (ds : Bytes) : Prop :=
  ds ≠ [] ∧ ∀ d ∈ ds, Bytes.isDigit d = true

inductive IsWhole : Bytes → Prop where
  | zero : IsWhole [Bytes.byte '0']
  | run {d : UInt8} {ds : Bytes} (first : d ≠ Bytes.byte '0') (digits : IsDigits (d :: ds)) :
      IsWhole (d :: ds)

inductive IsFraction : Bytes → Prop where
  | none : IsFraction []
  | point {ds : Bytes} (digits : IsDigits ds) : IsFraction (Bytes.byte '.' :: ds)

def IsMark (c : UInt8) : Prop :=
  c = Bytes.byte 'e' ∨ c = Bytes.byte 'E'

inductive IsExponent : Bytes → Prop where
  | none : IsExponent []
  | bare {c : UInt8} {ds : Bytes} (mark : IsMark c) (digits : IsDigits ds) : IsExponent (c :: ds)
  | signed {c d : UInt8} {ds : Bytes} (mark : IsMark c)
      (sign : d = Bytes.byte '+' ∨ d = Bytes.byte '-') (digits : IsDigits ds) :
      IsExponent (c :: d :: ds)

inductive IsLiteral : Bytes → Prop where
  | mk {minus whole part power : Bytes} (sign : minus = [] ∨ minus = [Bytes.byte '-'])
      (isWhole : IsWhole whole) (isFraction : IsFraction part) (isExponent : IsExponent power) :
      IsLiteral (minus ++ whole ++ part ++ power)

def NoDigit (c : UInt8) : Prop :=
  Bytes.isDigit c = false

/-- A byte with which no number goes on. -/
def Stops (c : UInt8) : Prop :=
  NoDigit c ∧ c ≠ Bytes.byte '.' ∧ ¬ IsMark c

theorem IsMark.noDigit {c : UInt8} (h : IsMark c) : NoDigit c ∧ c ≠ Bytes.byte '.' := by
  unfold NoDigit
  rcases h with rfl | rfl
  · decide
  · decide

theorem IsExponent.begins {power : Bytes} (h : IsExponent power) :
    Begins (fun c => NoDigit c ∧ c ≠ Bytes.byte '.') power := by
  cases h with
  | none => nofun
  | bare mark _ => exact .cons mark.noDigit
  | signed mark _ _ => exact .cons mark.noDigit

theorem IsFraction.begins {part : Bytes} (h : IsFraction part) : Begins NoDigit part := by
  cases h with
  | none => nofun
  | point _ => exact .cons (show Bytes.isDigit (Bytes.byte '.') = false by decide)

theorem IsWhole.exists_cons {w : Bytes} (h : IsWhole w) :
    ∃ d ds, w = d :: ds ∧ Bytes.isDigit d = true := by
  cases h with
  | zero => exact ⟨_, [], rfl, by decide⟩
  | run _ digits => exact ⟨_, _, rfl, digits.2 _ List.mem_cons_self⟩

theorem digits_sound {s ds rest : Bytes} (h : digits s = some (ds, rest)) :
    IsDigits ds ∧ s = ds ++ rest := by
  unfold digits at h
  split at h
  · cases h
  · rename_i hne
    obtain ⟨rfl, rfl⟩ := Prod.mk.inj (Option.some.inj h)
    exact ⟨⟨hne, fun d hd => List.mem_takeWhile_imp hd⟩, List.takeWhile_append_dropWhile.symm⟩

theorem digits_complete {ds rest : Bytes} (h : IsDigits ds) (hrest : Begins NoDigit rest) :
    digits (ds ++ rest) = some (ds, rest) := by
  obtain ⟨htake, hdrop⟩ := Bytes.takeWhile_dropWhile_append h.2 hrest
  unfold digits
  rw [htake, hdrop]
  split
  · exact absurd rfl h.1
  · rfl

theorem integer_sound {s w rest : Bytes} (h : integer s = some (w, rest)) :
    IsWhole w ∧ s = w ++ rest := by
  unfold integer at h
  split at h
  · cases h
  · rename_i c after
    split at h
    · rename_i hzero
      obtain ⟨rfl, rfl⟩ := Prod.mk.inj (Option.some.inj h)
      rw [hzero]
      exact ⟨.zero, rfl⟩
    · rename_i hfirst
      obtain ⟨hdigits, heq⟩ := digits_sound h
      cases w with
      | nil => exact absurd rfl hdigits.1
      | cons d ds =>
          rw [List.cons_append, List.cons.injEq] at heq
          obtain ⟨rfl, rfl⟩ := heq
          exact ⟨.run hfirst hdigits, rfl⟩

theorem integer_complete {w rest : Bytes} (h : IsWhole w) (hrest : Begins NoDigit rest) :
    integer (w ++ rest) = some (w, rest) := by
  cases h with
  | zero => rfl
  | run first run =>
      rw [List.cons_append, integer, if_neg first, ← List.cons_append]
      exact digits_complete run hrest

theorem fraction_sound {s part rest : Bytes} (h : fraction s = some (part, rest)) :
    IsFraction part ∧ s = part ++ rest := by
  unfold fraction at h
  split at h
  · obtain ⟨rfl, rfl⟩ := Prod.mk.inj (Option.some.inj h)
    exact ⟨.none, rfl⟩
  · rename_i c after
    split at h
    · rename_i hpoint
      obtain ⟨ds, hds, rfl⟩ := extend_eq_some_iff.mp h
      obtain ⟨hdigits, rfl⟩ := digits_sound hds
      rw [hpoint]
      exact ⟨.point hdigits, rfl⟩
    · obtain ⟨rfl, rfl⟩ := Prod.mk.inj (Option.some.inj h)
      exact ⟨.none, rfl⟩

theorem fraction_complete {part rest : Bytes} (h : IsFraction part)
    (hrest : Begins (fun c => NoDigit c ∧ c ≠ Bytes.byte '.') rest) :
    fraction (part ++ rest) = some (part, rest) := by
  cases h with
  | none =>
      cases rest with
      | nil => rfl
      | cons c rest => rw [List.nil_append, fraction, if_neg (hrest c rfl).2]
  | point digits =>
      rw [List.cons_append, fraction, if_pos rfl, digits_complete digits (hrest.imp fun _ h => h.1)]
      rfl

theorem exponent_sound {s power rest : Bytes} (h : exponent s = some (power, rest)) :
    IsExponent power ∧ s = power ++ rest := by
  unfold exponent at h
  split at h
  · obtain ⟨rfl, rfl⟩ := Prod.mk.inj (Option.some.inj h)
    exact ⟨.none, rfl⟩
  · rename_i c after
    split at h
    · rename_i hmark
      have hmark' : IsMark c := by simpa [IsMark] using hmark
      split at h
      · cases h
      · rename_i d after'
        split at h
        · rename_i hsign
          obtain ⟨ds, hds, rfl⟩ := extend_eq_some_iff.mp h
          obtain ⟨hdigits, rfl⟩ := digits_sound hds
          exact ⟨.signed hmark' (by simpa using hsign) hdigits, rfl⟩
        · obtain ⟨ds, hds, rfl⟩ := extend_eq_some_iff.mp h
          obtain ⟨hdigits, heq⟩ := digits_sound hds
          exact ⟨.bare hmark' hdigits, by rw [heq]; rfl⟩
    · obtain ⟨rfl, rfl⟩ := Prod.mk.inj (Option.some.inj h)
      exact ⟨.none, rfl⟩

theorem exponent_complete {power rest : Bytes} (h : IsExponent power) (hrest : Begins Stops rest) :
    exponent (power ++ rest) = some (power, rest) := by
  have hdigit : Begins NoDigit rest := hrest.imp fun _ h => h.1
  cases h with
  | none =>
      cases rest with
      | nil => rfl
      | cons c rest =>
          have hmark : ¬ (c = Bytes.byte 'e' || c = Bytes.byte 'E') = true := by
            simpa [IsMark] using (hrest c rfl).2.2
          rw [List.nil_append, exponent.eq_def]
          simp only [if_neg hmark]
  | @bare c ds mark digits =>
      have hmark : (c = Bytes.byte 'e' || c = Bytes.byte 'E') = true := by simpa [IsMark] using mark
      cases ds with
      | nil => exact absurd rfl digits.1
      | cons d ds =>
          have hsign : ¬ (d = Bytes.byte '+' || d = Bytes.byte '-') = true := by
            have hd := digits.2 d List.mem_cons_self
            intro hsign
            simp only [Bool.or_eq_true, decide_eq_true_eq] at hsign
            rcases hsign with rfl | rfl
            · exact absurd hd (by decide)
            · exact absurd hd (by decide)
          simp only [List.cons_append, exponent, hmark, if_true, if_neg hsign]
          rw [← List.cons_append, digits_complete digits hdigit]
          rfl
  | @signed c d ds mark sign digits =>
      have hmark : (c = Bytes.byte 'e' || c = Bytes.byte 'E') = true := by simpa [IsMark] using mark
      have hsign : (d = Bytes.byte '+' || d = Bytes.byte '-') = true := by simpa using sign
      simp only [List.cons_append, exponent, hmark, hsign, if_true, digits_complete digits hdigit]
      rfl

theorem sign_sound (s : Bytes) :
    ((sign s).1 = [] ∨ (sign s).1 = [Bytes.byte '-']) ∧ s = (sign s).1 ++ (sign s).2 := by
  unfold sign
  split
  · exact ⟨Or.inl rfl, rfl⟩
  · split
    · rename_i hminus
      rw [hminus]
      exact ⟨Or.inr rfl, rfl⟩
    · exact ⟨Or.inl rfl, rfl⟩

theorem literal_sound {s l rest : Bytes} (h : literal s = some (l, rest)) :
    IsLiteral l ∧ s = l ++ rest := by
  obtain ⟨hminus, hs⟩ := sign_sound s
  unfold literal at h
  simp only [bind, Option.bind_eq_some_iff, pure, Option.some.injEq, Prod.mk.injEq] at h
  obtain ⟨⟨w, s1⟩, hw, ⟨part, s2⟩, hpart, ⟨power, s3⟩, hpower, rfl, rfl⟩ := h
  obtain ⟨hwhole, heq1⟩ := integer_sound hw
  obtain ⟨hfraction, heq2⟩ := fraction_sound hpart
  obtain ⟨hexponent, heq3⟩ := exponent_sound hpower
  simp only at heq2 heq3
  refine ⟨.mk hminus hwhole hfraction hexponent, ?_⟩
  calc s = (sign s).1 ++ (sign s).2 := hs
    _ = (sign s).1 ++ w ++ part ++ power ++ s3 := by rw [heq1, heq2, heq3]; simp

theorem literal_complete {l rest : Bytes} (h : IsLiteral l) (hrest : Begins Stops rest) :
    literal (l ++ rest) = some (l, rest) := by
  cases h with
  | @mk minus w part power hminus hwhole hfraction hexponent =>
      have hsign : sign (minus ++ (w ++ (part ++ (power ++ rest)))) =
          (minus, w ++ (part ++ (power ++ rest))) := by
        rcases hminus with rfl | rfl
        · obtain ⟨d, ds, rfl, hd⟩ := hwhole.exists_cons
          have hminus : d ≠ Bytes.byte '-' := by
            rintro rfl
            exact absurd hd (by decide)
          rw [List.nil_append, List.cons_append, sign, if_neg hminus]
        · rfl
      have hpower : Begins (fun c => NoDigit c ∧ c ≠ Bytes.byte '.') (power ++ rest) :=
        hexponent.begins.append (hrest.imp fun _ h => ⟨h.1, h.2.1⟩)
      have hpart : Begins NoDigit (part ++ (power ++ rest)) :=
        hfraction.begins.append (hpower.imp fun _ h => h.1)
      simp only [List.append_assoc, literal, hsign, integer_complete hwhole hpart,
        fraction_complete hfraction hpower, exponent_complete hexponent hrest, bind, Option.bind]
      rfl

theorem IsLiteral.exists_cons {l : Bytes} (h : IsLiteral l) :
    ∃ c rest, l = c :: rest ∧ (c = Bytes.byte '-' ∨ Bytes.isDigit c = true) := by
  cases h with
  | mk hminus hwhole _ _ =>
      obtain ⟨d, ds, rfl, hd⟩ := hwhole.exists_cons
      rcases hminus with rfl | rfl
      · exact ⟨d, _, rfl, Or.inr hd⟩
      · exact ⟨_, _, rfl, Or.inl rfl⟩

/-! ## Parts and white space -/

section Parts

variable {α : Type} {p : Bytes → Option (α × Bytes)} {good : α → Prop} {render : α → Bytes}

/-- What `p` takes is the text of what it gives. -/
def Sound (p : Bytes → Option (α × Bytes)) (good : α → Prop) (render : α → Bytes) : Prop :=
  ∀ s v rest, p s = some (v, rest) → good v ∧ s = render v ++ rest

/-- `p` takes the text of a part from the front of any text that goes on with a byte of which
`follow` holds. -/
def Complete (p : Bytes → Option (α × Bytes)) (good : α → Prop) (render : α → Bytes)
    (follow : UInt8 → Prop) : Prop :=
  ∀ v rest, good v → Begins follow rest → p (render v ++ rest) = some (v, rest)

theorem blank_takeWhile (s : Bytes) : Blank (s.takeWhile isBlank) :=
  fun _ hb => List.mem_takeWhile_imp hb

def Spaced.written (render : α → Bytes) (a : Spaced α) : Bytes :=
  a.before ++ render a.value ++ a.after

structure Spaced.Good (good : α → Prop) (a : Spaced α) : Prop where
  before : Blank a.before
  value : good a.value
  after : Blank a.after

theorem spaced_sound (h : Sound p good render) :
    Sound (spaced p) (Spaced.Good good) (Spaced.written render) := by
  intro s a rest hread
  simp only [spaced, bind, Option.bind_eq_some_iff, pure, Option.some.injEq, Prod.mk.injEq] at hread
  obtain ⟨⟨v, after⟩, hv, rfl, rfl⟩ := hread
  obtain ⟨hgood, heq⟩ := h _ _ _ hv
  refine ⟨⟨blank_takeWhile s, hgood, blank_takeWhile after⟩, ?_⟩
  calc s = s.takeWhile isBlank ++ s.dropWhile isBlank := List.takeWhile_append_dropWhile.symm
    _ = s.takeWhile isBlank ++ (render v ++ after) := by rw [heq]
    _ = _ := by simp [Spaced.written]

theorem spaced_complete {follow : UInt8 → Prop} (h : Complete p good render follow)
    (hblank : ∀ c, isBlank c = true → follow c)
    (hstart : ∀ v rest, good v → Begins (fun c => isBlank c = false) (render v ++ rest)) :
    Complete (spaced p) (Spaced.Good good) (Spaced.written render)
      (fun c => isBlank c = false ∧ follow c) := by
  rintro ⟨before, v, after⟩ rest hgood hrest
  have hafter : Begins follow (after ++ rest) := by
    refine Begins.append (fun c hc => hblank c ?_) (hrest.imp fun _ h => h.2)
    exact hgood.after c (List.mem_of_mem_head? hc)
  have hread := h v (after ++ rest) hgood.value hafter
  obtain ⟨htake, hdrop⟩ := Bytes.takeWhile_dropWhile_append hgood.before
    (hstart v (after ++ rest) hgood.value)
  obtain ⟨htake', hdrop'⟩ := Bytes.takeWhile_dropWhile_append hgood.after (hrest.imp fun _ h => h.1)
  simp only [Spaced.written, List.append_assoc, spaced, htake, hdrop, hread, htake', hdrop', bind,
    Option.bind]
  rfl

def listed (render : α → Bytes) (vs : List α) : Bytes :=
  Bytes.join "," (vs.map render)

theorem listed_singleton (render : α → Bytes) (v : α) : listed render [v] = render v := rfl

theorem listed_cons_cons (render : α → Bytes) (v w : α) (vs : List α) :
    listed render (v :: w :: vs) = render v ++ Bytes.byte ',' :: listed render (w :: vs) := by
  simp only [listed, List.map_cons, Bytes.join_cons_cons, List.append_assoc]
  rfl

theorem separated_sound (h : Sound p good render) {close : UInt8} {fuel : Nat} {s rest : Bytes}
    {vs : List α} (hread : separated p close fuel s = some (vs, rest)) :
    vs ≠ [] ∧ (∀ v ∈ vs, good v) ∧ s = listed render vs ++ close :: rest := by
  induction fuel generalizing s vs rest with
  | zero => cases hread
  | succ fuel ih =>
      simp only [separated, bind, Option.bind_eq_some_iff] at hread
      obtain ⟨⟨v, after⟩, hv, hread⟩ := hread
      obtain ⟨hgood, rfl⟩ := h _ _ _ hv
      cases after with
      | nil => cases hread
      | cons c after =>
          by_cases hclose : c = close
          · simp only [hclose, if_true, Option.some.injEq, Prod.mk.injEq] at hread
            obtain ⟨rfl, rfl⟩ := hread
            exact ⟨by simp, by simpa using hgood, by rw [listed_singleton, hclose]⟩
          · by_cases hcomma : c = Bytes.byte ','
            · simp only [if_neg hclose, if_pos hcomma, Option.bind_eq_some_iff, pure,
                Option.some.injEq, Prod.mk.injEq] at hread
              obtain ⟨⟨ws, after'⟩, hws, rfl, rfl⟩ := hread
              obtain ⟨hne, hall, rfl⟩ := ih hws
              obtain ⟨w, ws', rfl⟩ := List.exists_cons_of_ne_nil hne
              refine ⟨by simp, ?_, by rw [listed_cons_cons, hcomma]; simp⟩
              intro u hu
              rcases List.mem_cons.mp hu with rfl | hu
              · exact hgood
              · exact hall u hu
            · simp only [if_neg hclose, if_neg hcomma] at hread
              cases hread

theorem separated_complete {follow : UInt8 → Prop} (h : Complete p good render follow)
    {close : UInt8} (hclose : follow close) (hcomma : follow (Bytes.byte ','))
    (hne : close ≠ Bytes.byte ',') {fuel : Nat} {vs : List α} (hvs : vs ≠ [])
    (hfuel : vs.length ≤ fuel) (hgood : ∀ v ∈ vs, good v) (rest : Bytes) :
    separated p close fuel (listed render vs ++ close :: rest) = some (vs, rest) := by
  induction fuel generalizing vs with
  | zero =>
      rw [Nat.le_zero, List.length_eq_zero_iff] at hfuel
      exact absurd hfuel hvs
  | succ fuel ih =>
      obtain ⟨v, ws, rfl⟩ := List.exists_cons_of_ne_nil hvs
      have hv := hgood v List.mem_cons_self
      cases ws with
      | nil =>
          have hread := h v (close :: rest) hv (.cons hclose)
          simp only [listed_singleton, separated, hread, bind, Option.bind, if_true]
      | cons w ws =>
          have hread := h v (Bytes.byte ',' :: (listed render (w :: ws) ++ close :: rest)) hv
            (.cons hcomma)
          have htail := ih (List.cons_ne_nil w ws) (Nat.le_of_succ_le_succ hfuel)
            fun u hu => hgood u (List.mem_cons_of_mem v hu)
          rw [listed_cons_cons, List.append_assoc, List.cons_append]
          simp only [separated, hread, bind, Option.bind, if_neg (Ne.symm hne), if_true, htail]
          rfl

theorem length_le_listed {vs : List α} (h : ∀ v ∈ vs, render v ≠ []) :
    vs.length ≤ (listed render vs).length := by
  induction vs with
  | nil => exact Nat.zero_le _
  | cons v ws ih =>
      have hv := List.length_pos_iff.mpr (h v List.mem_cons_self)
      have hws := ih fun w hw => h w (List.mem_cons_of_mem v hw)
      cases ws with
      | nil => exact hv
      | cons w ws =>
          rw [listed_cons_cons, List.length_append]
          simp only [List.length_cons] at hws ⊢
          omega

theorem length_render_le_listed {v : α} {vs : List α} (h : v ∈ vs) :
    (render v).length ≤ (listed render vs).length := by
  induction vs with
  | nil => cases h
  | cons w ws ih =>
      cases ws with
      | nil => rw [List.mem_singleton.mp h, listed_singleton]
      | cons u us =>
          rw [listed_cons_cons, List.length_append, List.length_cons]
          rcases List.mem_cons.mp h with rfl | h
          · omega
          · have := ih h
            omega

theorem enclosed_sound (h : Sound p good render) {close : UInt8} {most : Nat}
    {s blank rest : Bytes} {vs : List α}
    (hread : enclosed p close most s = some (blank, vs, rest)) :
    Blank blank ∧ (vs = [] ∨ blank = []) ∧ (∀ v ∈ vs, good v) ∧
      s = blank ++ listed render vs ++ close :: rest := by
  unfold enclosed at hread
  split at hread
  · cases hread
  · rename_i c after hdrop
    split at hread
    · rename_i hclose
      simp only [Option.some.injEq, Prod.mk.injEq] at hread
      obtain ⟨rfl, rfl, rfl⟩ := hread
      refine ⟨blank_takeWhile s, Or.inl rfl, by simp, ?_⟩
      rw [← hclose, ← hdrop]
      exact (List.append_nil _).symm ▸ List.takeWhile_append_dropWhile.symm
    · obtain ⟨⟨ws, after'⟩, hws, heq⟩ := Option.map_eq_some_iff.mp hread
      simp only [Prod.mk.injEq] at heq
      obtain ⟨rfl, rfl, rfl⟩ := heq
      obtain ⟨-, hgood, hs⟩ := separated_sound h hws
      exact ⟨by simp [Blank], Or.inr rfl, hgood, hs⟩

theorem enclosed_complete {follow : UInt8 → Prop} (h : Complete p good render follow)
    {close : UInt8} (hclose : follow close) (hcomma : follow (Bytes.byte ','))
    (hne : close ≠ Bytes.byte ',') (hnotBlank : isBlank close = false)
    (hfirst : ∀ v rest, good v →
      ∃ c tail, (render v ++ rest).dropWhile isBlank = c :: tail ∧ c ≠ close)
    {most : Nat} {blank : Bytes} {vs : List α} (hblank : Blank blank)
    (hempty : vs = [] ∨ blank = [])
    (hmost : vs.length ≤ most) (hgood : ∀ v ∈ vs, good v) (rest : Bytes) :
    enclosed p close most (blank ++ listed render vs ++ close :: rest) =
      some (blank, vs, rest) := by
  cases vs with
  | nil =>
      have hbegins : Begins (fun c => isBlank c = false) (close :: rest) := .cons hnotBlank
      obtain ⟨htake, hdrop⟩ := Bytes.takeWhile_dropWhile_append hblank hbegins
      have hnil : listed render [] = [] := rfl
      rw [hnil, List.append_nil]
      simp only [enclosed, hdrop, htake, if_true]
  | cons v ws =>
      obtain rfl : blank = [] := hempty.resolve_left (List.cons_ne_nil v ws)
      obtain ⟨c, tail, hdrop, hc⟩ : ∃ c tail,
          (listed render (v :: ws) ++ close :: rest).dropWhile isBlank = c :: tail ∧ c ≠ close := by
        cases ws with
        | nil => exact hfirst v (close :: rest) (hgood v List.mem_cons_self)
        | cons w ws =>
            rw [listed_cons_cons, List.append_assoc]
            exact hfirst v _ (hgood v List.mem_cons_self)
      have hread := separated_complete h hclose hcomma hne (List.cons_ne_nil v ws) hmost hgood rest
      simp only [enclosed, List.nil_append, hdrop, if_neg hc, hread, Option.map_some]

end Parts

/-! ## Values -/

/-- The values that a JSON text can stand for. -/
inductive Legal : Json → Prop where
  | null : Legal .null
  | bool (b : Bool) : Legal (.bool b)
  | number {literal : Bytes} (isLiteral : IsLiteral literal) : Legal (.number literal)
  | string {body : Bytes} (isBody : IsBody body) : Legal (.string body)
  | array {blank : Bytes} {items : List (Spaced Json)} (isBlank : Blank blank)
      (empty : items = [] ∨ blank = []) (spaces : ∀ i ∈ items, Blank i.before ∧ Blank i.after)
      (values : ∀ i ∈ items, Legal i.value) : Legal (.array blank items)
  | object {blank : Bytes} {members : List (Spaced Bytes × Spaced Json)} (isBlank : Blank blank)
      (empty : members = [] ∨ blank = []) (keys : ∀ m ∈ members, m.1.Good IsBody)
      (spaces : ∀ m ∈ members, Blank m.2.before ∧ Blank m.2.after)
      (values : ∀ m ∈ members, Legal m.2.value) : Legal (.object blank members)

theorem spacedText_eq : spacedText = Spaced.written text := by
  funext v
  obtain ⟨before, v, after⟩ := v
  rw [spacedText]
  rfl

theorem itemsText_eq (items : List (Spaced Json)) :
    itemsText items = listed (Spaced.written text) items := by
  induction items with
  | nil => rw [itemsText]; rfl
  | cons v ws ih =>
      cases ws with
      | nil => rw [itemsText, spacedText_eq]; rfl
      | cons w ws => rw [itemsText, ih, spacedText_eq, listed_cons_cons, List.append_assoc]; rfl

theorem membersText_eq (members : List (Spaced Bytes × Spaced Json)) :
    membersText members = listed memberText members := by
  induction members with
  | nil => rw [membersText]; rfl
  | cons m ns ih =>
      cases ns with
      | nil => rw [membersText]; rfl
      | cons n ns => rw [membersText, ih, listed_cons_cons, List.append_assoc]; rfl

theorem text_array (blank : Bytes) (items : List (Spaced Json)) :
    (array blank items).text =
      Bytes.byte '[' :: (blank ++ listed (Spaced.written text) items ++ [Bytes.byte ']']) := by
  rw [text, itemsText_eq]
  simp only [List.append_assoc]
  rfl

theorem text_object (blank : Bytes) (members : List (Spaced Bytes × Spaced Json)) :
    (object blank members).text = 0x7B :: (blank ++ listed memberText members ++ [0x7D]) := by
  rw [text, membersText_eq]
  simp only [List.append_assoc]
  rfl

/-- The first byte of a value is no white space and closes nothing. -/
theorem Legal.exists_text_cons {v : Json} (h : Legal v) :
    ∃ c tail, v.text = c :: tail ∧ isBlank c = false ∧ c ≠ Bytes.byte ']' := by
  cases h with
  | null => exact ⟨_, _, rfl, by decide, by decide⟩
  | bool b => cases b <;> exact ⟨_, _, rfl, by decide, by decide⟩
  | number isLiteral =>
      obtain ⟨c, tail, rfl, hc⟩ := isLiteral.exists_cons
      refine ⟨c, tail, by rw [text], ?_, ?_⟩
      · rw [← Bool.not_eq_true]
        intro hblank
        simp only [isBlank, Bool.or_eq_true, decide_eq_true_eq] at hblank
        rcases hblank with ((rfl | rfl) | rfl) | rfl <;> exact absurd hc (by decide)
      · rintro rfl
        exact absurd hc (by decide)
  | string _ => exact ⟨_, _, by rw [text]; rfl, by decide, by decide⟩
  | array _ _ _ _ => exact ⟨_, _, text_array _ _, by decide, by decide⟩
  | object _ _ _ _ _ => exact ⟨_, _, text_object _ _, by decide, by decide⟩

theorem key_sound : Sound key IsBody quoted := by
  intro s k rest h
  unfold key at h
  split at h
  · cases h
  · split at h
    · rename_i hquote
      obtain ⟨hbody, rfl⟩ := body_sound h
      rw [hquote]
      exact ⟨hbody, by simp [quoted]; rfl⟩
    · cases h

theorem key_complete : Complete key IsBody quoted fun _ => True := by
  intro k rest hk _
  have hquoted : quoted k ++ rest = Bytes.byte '"' :: (k ++ Bytes.byte '"' :: rest) := by
    simp only [quoted, List.append_assoc]
    rfl
  rw [hquoted, key, if_pos rfl, body_complete hk]

structure IsMember (good : Json → Prop) (m : Spaced Bytes × Spaced Json) : Prop where
  key : m.1.Good IsBody
  value : m.2.Good good

theorem memberText_eq (m : Spaced Bytes × Spaced Json) :
    memberText m = m.1.written quoted ++ Bytes.byte ':' :: m.2.written text := by
  obtain ⟨⟨before, k, after⟩, v⟩ := m
  rw [memberText, spacedText_eq]
  simp only [Spaced.written, List.append_assoc]
  rfl

theorem member_sound {p : Bytes → Option (Json × Bytes)} {good : Json → Prop}
    (h : Sound p good text) : Sound (member p) (IsMember good) memberText := by
  rintro s ⟨k, v⟩ rest hread
  simp only [member, bind, Option.bind_eq_some_iff] at hread
  obtain ⟨⟨k', after⟩, hk, hread⟩ := hread
  obtain ⟨hkey, rfl⟩ := spaced_sound key_sound _ _ _ hk
  cases after with
  | nil => cases hread
  | cons c after =>
      by_cases hcolon : c = Bytes.byte ':'
      · simp only [if_pos hcolon, Option.bind_eq_some_iff, pure, Option.some.injEq,
          Prod.mk.injEq] at hread
        obtain ⟨⟨v', after'⟩, hv, ⟨rfl, rfl⟩, rfl⟩ := hread
        obtain ⟨hvalue, rfl⟩ := spaced_sound h _ _ _ hv
        refine ⟨⟨hkey, hvalue⟩, ?_⟩
        rw [memberText_eq, hcolon]
        simp
      · simp only [if_neg hcolon] at hread
        cases hread

def Follows (c : UInt8) : Prop :=
  isBlank c = false ∧ Stops c

theorem stops_of_isBlank {c : UInt8} (h : isBlank c = true) : Stops c := by
  simp only [isBlank, Bool.or_eq_true, decide_eq_true_eq] at h
  unfold Stops NoDigit IsMark
  rcases h with ((rfl | rfl) | rfl) | rfl <;> decide

theorem spaced_value_complete {p : Bytes → Option (Json × Bytes)} {good : Json → Prop}
    (h : Complete p good text Stops) (hlegal : ∀ v, good v → Legal v) :
    Complete (spaced p) (Spaced.Good good) (Spaced.written text) Follows := by
  refine spaced_complete h (fun c => stops_of_isBlank) ?_
  intro v rest hgood
  obtain ⟨c, tail, htext, hblank, -⟩ := (hlegal v hgood).exists_text_cons
  rw [htext]
  exact .cons hblank

theorem member_complete {p : Bytes → Option (Json × Bytes)} {good : Json → Prop}
    (h : Complete p good text Stops) (hlegal : ∀ v, good v → Legal v) :
    Complete (member p) (IsMember good) memberText Follows := by
  rintro ⟨k, v⟩ rest hgood hrest
  have hkey : Complete (spaced key) (Spaced.Good IsBody) (Spaced.written quoted)
      fun c => isBlank c = false ∧ True :=
    spaced_complete key_complete (fun _ _ => trivial) fun k rest _ => .cons (by decide)
  have hread := hkey k (Bytes.byte ':' :: (v.written text ++ rest)) hgood.key (.cons (by decide))
  have hvalue := spaced_value_complete h hlegal v rest hgood.value hrest
  rw [memberText_eq, List.append_assoc, List.cons_append]
  simp only [member, hread, hvalue, bind, Option.bind, if_true]
  rfl

theorem word_sound {w : Bytes} {v : Json} (hv : Legal v) (hw : v.text = w) {s rest : Bytes}
    {u : Json} (h : word w v s = some (u, rest)) : Legal u ∧ s = u.text ++ rest := by
  unfold word at h
  split at h
  · rename_i hstarts
    obtain ⟨rfl, rfl⟩ := Prod.mk.inj (Option.some.inj h)
    obtain ⟨tail, rfl⟩ := List.isPrefixOf_iff_prefix.mp hstarts
    exact ⟨hv, by rw [hw, List.drop_left]⟩
  · cases h

theorem value_sound (depth : Nat) : Sound (value depth) Legal text := by
  induction depth with
  | zero => nofun
  | succ depth ih =>
      intro s v rest h
      unfold value at h
      split at h
      · cases h
      rename_i c after
      split at h
      · rename_i hquote
        obtain ⟨⟨b, tail⟩, hb, heq⟩ := Option.map_eq_some_iff.mp h
        obtain ⟨rfl, rfl⟩ := Prod.mk.inj heq
        obtain ⟨hbody, rfl⟩ := body_sound hb
        refine ⟨.string hbody, ?_⟩
        rw [hquote, text, quoted]
        simp only [List.append_assoc]
        rfl
      split at h
      · rename_i hopen
        obtain ⟨⟨blank, items, tail⟩, hitems, heq⟩ := Option.map_eq_some_iff.mp h
        obtain ⟨rfl, rfl⟩ := Prod.mk.inj heq
        obtain ⟨hblank, hempty, hgood, rfl⟩ := enclosed_sound (spaced_sound ih) hitems
        refine ⟨.array hblank hempty (fun i hi => ⟨(hgood i hi).before, (hgood i hi).after⟩)
          fun i hi => (hgood i hi).value, ?_⟩
        rw [hopen, text_array]
        simp
      split at h
      · rename_i hopen
        obtain ⟨⟨blank, members, tail⟩, hmembers, heq⟩ := Option.map_eq_some_iff.mp h
        obtain ⟨rfl, rfl⟩ := Prod.mk.inj heq
        obtain ⟨hblank, hempty, hgood, rfl⟩ := enclosed_sound (member_sound ih) hmembers
        refine ⟨.object hblank hempty (fun m hm => (hgood m hm).key)
          (fun m hm => ⟨(hgood m hm).value.before, (hgood m hm).value.after⟩)
          fun m hm => (hgood m hm).value.value, ?_⟩
        rw [hopen, text_object]
        simp
      split at h
      · exact word_sound (.bool true) (by rw [text]) h
      split at h
      · exact word_sound (.bool false) (by rw [text]) h
      split at h
      · exact word_sound .null (by rw [text]) h
      · obtain ⟨⟨l, tail⟩, hl, heq⟩ := Option.map_eq_some_iff.mp h
        obtain ⟨rfl, rfl⟩ := Prod.mk.inj heq
        obtain ⟨hliteral, heq⟩ := literal_sound hl
        exact ⟨.number hliteral, by rw [text, heq]⟩

theorem value_of_literal {l : Bytes} (h : IsLiteral l) (depth : Nat) (rest : Bytes) :
    value (depth + 1) (l ++ rest) = (literal (l ++ rest)).map fun p => (number p.1, p.2) := by
  obtain ⟨c, tail, rfl, hc⟩ := h.exists_cons
  have hother : ∀ d : UInt8, ¬ (d = Bytes.byte '-' ∨ Bytes.isDigit d = true) → c ≠ d := by
    rintro d hd rfl
    exact hd hc
  rw [List.cons_append, value]
  rw [if_neg (hother _ (by decide)), if_neg (hother _ (by decide)), if_neg (hother _ (by decide)),
    if_neg (hother _ (by decide)), if_neg (hother _ (by decide)), if_neg (hother _ (by decide))]

structure FitsIn (n : Nat) (v : Json) : Prop where
  legal : Legal v
  length : v.text.length ≤ n

theorem written_ne_nil {n : Nat} {i : Spaced Json} (h : i.Good (FitsIn n)) :
    i.written text ≠ [] := by
  obtain ⟨c, tail, htext, -⟩ := h.value.legal.exists_text_cons
  simp [Spaced.written, htext]

theorem memberText_ne_nil (m : Spaced Bytes × Spaced Json) : memberText m ≠ [] := by
  simp [memberText_eq]

theorem array_complete {depth : Nat} (h : Complete (value depth) (FitsIn depth) text Stops)
    {blank : Bytes} {items : List (Spaced Json)} (hblank : Blank blank)
    (hempty : items = [] ∨ blank = []) (hgood : ∀ i ∈ items, i.Good (FitsIn depth))
    (hcount : items.length ≤ depth) (rest : Bytes) :
    value (depth + 1) ((array blank items).text ++ rest) = some (array blank items, rest) := by
  have hclose : Follows (Bytes.byte ']') ∧ Follows (Bytes.byte ',') := by
    unfold Follows Stops NoDigit IsMark
    decide
  have hfirst : ∀ (i : Spaced Json) (tail : Bytes), i.Good (FitsIn depth) →
      ∃ c tail', (i.written text ++ tail).dropWhile isBlank = c :: tail' ∧ c ≠ Bytes.byte ']' := by
    intro i tail hi
    obtain ⟨c, tail', htext, hc, hne⟩ := hi.value.legal.exists_text_cons
    refine ⟨c, tail' ++ i.after ++ tail, ?_, hne⟩
    simp [Spaced.written, htext, List.dropWhile_append_of_pos hi.before, hc]
  have hread := enclosed_complete (spaced_value_complete h fun _ hv => hv.legal) hclose.1 hclose.2
    (by decide) (by decide) hfirst hblank hempty hcount hgood rest
  rw [text_array, List.cons_append, value, if_neg (by decide), if_pos rfl, List.append_assoc,
    List.singleton_append, hread]
  rfl

theorem object_complete {depth : Nat} (h : Complete (value depth) (FitsIn depth) text Stops)
    {blank : Bytes} {members : List (Spaced Bytes × Spaced Json)} (hblank : Blank blank)
    (hempty : members = [] ∨ blank = []) (hgood : ∀ m ∈ members, IsMember (FitsIn depth) m)
    (hcount : members.length ≤ depth) (rest : Bytes) :
    value (depth + 1) ((object blank members).text ++ rest) =
      some (object blank members, rest) := by
  have hclose : Follows 0x7D ∧ Follows (Bytes.byte ',') := by
    unfold Follows Stops NoDigit IsMark
    decide
  have hfirst : ∀ (m : Spaced Bytes × Spaced Json) (tail : Bytes), IsMember (FitsIn depth) m →
      ∃ c tail', (memberText m ++ tail).dropWhile isBlank = c :: tail' ∧ c ≠ 0x7D := by
    intro m tail hm
    refine ⟨Bytes.byte '"', m.1.value ++ Bytes.byte '"' ::
      (m.1.after ++ Bytes.byte ':' :: (m.2.written text ++ tail)), ?_, by decide⟩
    have hquoted : quoted m.1.value = Bytes.byte '"' :: (m.1.value ++ [Bytes.byte '"']) := rfl
    have hquote : isBlank (Bytes.byte '"') = false := by decide
    rw [memberText_eq, Spaced.written, hquoted]
    simp [List.dropWhile_append_of_pos hm.key.before, hquote]
  have hread := enclosed_complete (member_complete h fun _ hv => hv.legal) hclose.1 hclose.2
    (by decide) (by decide) hfirst hblank hempty hcount hgood rest
  rw [text_object, List.cons_append, value, if_neg (by decide), if_neg (by decide), if_pos rfl,
    List.append_assoc, List.singleton_append, hread]
  rfl

theorem value_complete (depth : Nat) : Complete (value depth) (FitsIn depth) text Stops := by
  induction depth with
  | zero =>
      rintro v rest ⟨hlegal, hlength⟩ -
      obtain ⟨c, tail, htext, -⟩ := hlegal.exists_text_cons
      simp [htext] at hlength
  | succ depth ih =>
      rintro v rest ⟨hlegal, hlength⟩ hrest
      cases hlegal with
      | null => rfl
      | bool b => cases b <;> rfl
      | number isLiteral =>
          rw [text, value_of_literal isLiteral, literal_complete isLiteral hrest]
          rfl
      | @string b isBody =>
          have hquoted : quoted b ++ rest = Bytes.byte '"' :: (b ++ Bytes.byte '"' :: rest) := by
            simp only [quoted, List.append_assoc]
            rfl
          rw [text, hquoted, value, if_pos rfl, body_complete isBody]
          rfl
      | @array blank items isBlank empty spaces values =>
          rw [text_array] at hlength
          simp only [List.length_cons, List.length_append, List.length_nil] at hlength
          have hgood : ∀ i ∈ items, i.Good (FitsIn depth) := by
            intro i hi
            have hle : (i.written text).length ≤ (listed (Spaced.written text) items).length :=
              length_render_le_listed hi
            simp only [Spaced.written, List.length_append] at hle
            exact ⟨(spaces i hi).1, ⟨values i hi, by omega⟩, (spaces i hi).2⟩
          have hcount : items.length ≤ (listed (Spaced.written text) items).length :=
            length_le_listed fun i hi => written_ne_nil (hgood i hi)
          exact array_complete ih isBlank empty hgood (by omega) rest
      | @object blank members isBlank empty keys spaces values =>
          rw [text_object] at hlength
          simp only [List.length_cons, List.length_append, List.length_nil] at hlength
          have hgood : ∀ m ∈ members, IsMember (FitsIn depth) m := by
            intro m hm
            have hle : (memberText m).length ≤ (listed memberText members).length :=
              length_render_le_listed hm
            rw [memberText_eq] at hle
            simp only [Spaced.written, List.length_append, List.length_cons] at hle
            exact ⟨keys m hm, (spaces m hm).1, ⟨values m hm, by omega⟩, (spaces m hm).2⟩
          have hcount : members.length ≤ (listed memberText members).length :=
            length_le_listed fun m _ => memberText_ne_nil m
          exact object_complete ih isBlank empty hgood (by omega) rest

/-- A byte string is read as `v` if it is the text of `v` with white space around it. -/
theorem parse?_eq_some_iff {s : Bytes} {v : Json} :
    parse? s = some v ↔
      Legal v ∧ ∃ before after, Blank before ∧ Blank after ∧ s = before ++ v.text ++ after := by
  constructor
  · intro h
    unfold parse? at h
    split at h
    · rename_i w rest hfirst
      split at h
      · rename_i hrest
        obtain rfl := Option.some.inj h
        obtain ⟨hlegal, heq⟩ := value_sound _ _ _ _ hfirst
        refine ⟨hlegal, s.takeWhile isBlank, rest, blank_takeWhile s, ?_, ?_⟩
        · simpa [Blank] using hrest
        · rw [List.append_assoc, ← heq, List.takeWhile_append_dropWhile]
      · cases h
    · cases h
  · rintro ⟨hlegal, before, after, hbefore, hafter, rfl⟩
    obtain ⟨c, tail, htext, hc, -⟩ := hlegal.exists_text_cons
    have hdrop : (before ++ v.text ++ after).dropWhile isBlank = v.text ++ after := by
      have hbegins : Begins (fun c => isBlank c = false) (v.text ++ after) := by
        rw [htext]
        exact .cons hc
      rw [List.append_assoc]
      exact (Bytes.takeWhile_dropWhile_append hbefore hbegins).2
    have hfits : FitsIn ((before ++ v.text ++ after).length + 1) v := by
      refine ⟨hlegal, ?_⟩
      simp only [List.length_append]
      omega
    have hread := value_complete _ v after hfits fun c hc =>
      stops_of_isBlank (hafter c (List.mem_of_mem_head? hc))
    have hall : after.all isBlank = true := by simpa [Blank] using hafter
    simp only [parse?, first?, hdrop, hread, hall, if_true]

end Json

end MerlinBridge
