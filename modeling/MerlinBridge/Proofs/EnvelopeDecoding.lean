import Mathlib.Logic.Relation
import MerlinBridge.Proofs.JsonStrings
import MerlinBridge.Reply.Envelope

/-!
# What an output decodes to

`Decodes` says what an output is without reading it: it is the text of a JSON value with
white space around it or it is not, and if the value is an object, then its first `class`
and its first `value` are the envelope. `decode` gives what `Decodes` says, and nothing
else in the output has a part in it: neither the other members, nor their order, nor the
white space between them, nor a later member of either name.
-/

namespace MerlinBridge

namespace Trim

/-- Between two characters that are no white space there is nothing to strip. -/
theorem strips_self {c d : Char} (b : Bytes) (hc : Unicode.isBlank c = false)
    (hd : Unicode.isBlank d = false) :
    Strips (Bytes.ofChar c ++ b ++ Bytes.ofChar d) (Bytes.ofChar c ++ b ++ Bytes.ofChar d) := by
  refine ⟨⟨[], [], nofun, nofun, by simp [Bytes.ofChars]⟩, ?_, ?_⟩
  · rw [startsBlank_iff, List.append_assoc, Utf8.pieces_ofChar_append]
    rintro ⟨p, ⟨⟩, hp⟩
    exact absurd hp (by simp [isBlank, hc])
  · have hpieces := Utf8.pieces_append_ofChars (Bytes.ofChar c ++ b) [d]
    rw [Bytes.ofChars, List.flatMap_singleton] at hpieces
    rw [endsBlank_iff, hpieces]
    rintro ⟨p, hlast, hp⟩
    obtain rfl : Utf8.Piece.char d = p := by simpa using hlast
    exact absurd hp (by simp [isBlank, hd])

end Trim

namespace Json

theorem exists_ofChar_of_isBlank {c : UInt8} (h : isBlank c = true) :
    ∃ d, Unicode.isBlank d = true ∧ Bytes.ofChar d = [c] := by
  simp only [isBlank, Bool.or_eq_true, decide_eq_true_eq] at h
  rcases h with ((rfl | rfl) | rfl) | rfl
  · exact ⟨' ', by decide, by decide⟩
  · exact ⟨'\t', by decide, by decide⟩
  · exact ⟨'\n', by decide, by decide⟩
  · exact ⟨'\r', by decide, by decide⟩

theorem eq_nil_of_blank_append {a b : Bytes} (ha : Blank a) (h : ¬ Trim.StartsBlank (a ++ b)) :
    a = [] := by
  cases a with
  | nil => rfl
  | cons c a =>
      obtain ⟨d, hd, hchar⟩ := exists_ofChar_of_isBlank (ha c List.mem_cons_self)
      exact absurd ⟨d, a ++ b, hd, by rw [hchar]; rfl⟩ h

theorem eq_nil_of_append_blank {a b : Bytes} (hb : Blank b) (h : ¬ Trim.EndsBlank (a ++ b)) :
    b = [] := by
  rcases List.eq_nil_or_concat b with rfl | ⟨b, c, rfl⟩
  · rfl
  · obtain ⟨d, hd, hchar⟩ := exists_ofChar_of_isBlank (hb c (by simp))
    exact absurd ⟨d, a ++ b, hd, by rw [hchar]; simp⟩ h

/-- Once the white space around it is stripped, a text of a value is that value's own text. -/
theorem parse?_of_strips {out body : Bytes} (h : Trim.Strips out body) {v : Json} :
    parse? body = some v ↔ Legal v ∧ v.text = body := by
  rw [parse?_eq_some_iff]
  constructor
  · rintro ⟨hlegal, before, after, hbefore, hafter, rfl⟩
    obtain rfl := eq_nil_of_append_blank hafter h.stop
    have hstart := h.start
    rw [List.append_nil] at hstart
    obtain rfl := eq_nil_of_blank_append hbefore hstart
    exact ⟨hlegal, by simp⟩
  · rintro ⟨hlegal, rfl⟩
    exact ⟨hlegal, [], [], nofun, nofun, by simp⟩

theorem strips_object (blank : Bytes) (members : List (Spaced Bytes × Spaced Json)) :
    Trim.Strips (object blank members).text (object blank members).text := by
  rw [text_object]
  exact Trim.strips_self (c := '{') (d := '}') (blank ++ listed memberText members) (by decide)
    (by decide)

theorem get?_eq_get? {v w : Json} (hv : Legal v) (hw : Legal w) {name : Bytes}
    (h : ∀ u, IsFirst v.members name u ↔ IsFirst w.members name u) : v.get? name = w.get? name := by
  apply Option.ext
  intro u
  rw [get?_eq_some_iff hv, get?_eq_some_iff hw, h]

end Json

namespace Envelope

open Json Trim

/-- The first `class` of an object is a string that stands for `c`, and `c` is not empty. -/
def HasClass (v : Json) (c : Bytes) : Prop :=
  ∃ body, IsFirst v.members "class" (.string body) ∧ StandsFor body c ∧ c ≠ []

inductive Decodes (out : Bytes) : Except Error Envelope → Prop where
  | empty (strips : Strips out []) : Decodes out (.error .empty)
  | notJson {body : Bytes} (strips : Strips out body) (nonempty : body ≠ [])
      (illegal : ∀ v, Legal v → v.text ≠ body) : Decodes out (.error .notJson)
  | notObject {v : Json} (strips : Strips out v.text) (legal : Legal v)
      (shape : v.isObject = false) : Decodes out (.error .notObject)
  | missingClass {v : Json} (strips : Strips out v.text) (legal : Legal v)
      (shape : v.isObject = true) (noClass : ∀ c, ¬ HasClass v c) :
      Decodes out (.error .missingClass)
  | envelope {v : Json} {e : Envelope} (strips : Strips out v.text) (legal : Legal v)
      (shape : v.isObject = true) (hasClass : HasClass v e.cls)
      (value : ∀ w, e.value = some w ↔ IsFirst v.members "value" w) : Decodes out (.ok e)

theorem classOf?_eq_some_iff {v : Json} (h : Legal v) {c : Bytes} :
    classOf? (v.get? "class") = some c ↔ HasClass v c := by
  constructor
  · intro hc
    unfold classOf? at hc
    split at hc
    · rename_i body hget
      have hfirst := (get?_eq_some_iff h).mp hget
      dsimp only at hc
      split at hc
      · cases hc
      · rename_i hne
        obtain rfl := Option.some.inj hc
        cases h.of_isFirst hfirst with
        | string isBody => exact ⟨body, hfirst, (unescape_eq_iff isBody).mp rfl, hne⟩
    · cases hc
  · rintro ⟨body, hfirst, hstands, hne⟩
    rw [(get?_eq_some_iff h).mpr hfirst]
    simp only [classOf?, hstands.unescape_eq, if_neg hne]

theorem decode_of_strips {out : Bytes} {v : Json} (hstrips : Strips out v.text) (hlegal : Legal v) :
    decode out = ofJson v := by
  obtain ⟨c, tail, htext, -⟩ := hlegal.exists_text_cons
  have hne : v.text ≠ [] := by simp [htext]
  simp only [decode, hstrips.trim_eq, if_neg hne, (parse?_of_strips hstrips).mpr ⟨hlegal, rfl⟩]

/-- The rule that applies to an output gives what it decodes to. -/
theorem Decodes.decode_eq {out : Bytes} {r : Except Error Envelope} (h : Decodes out r) :
    decode out = r := by
  cases h with
  | empty strips => simp only [decode, strips.trim_eq, if_true]
  | @notJson body strips nonempty illegal =>
      have hnone : parse? body = none := by
        rw [Option.eq_none_iff_forall_ne_some]
        intro v hv
        obtain ⟨hlegal, htext⟩ := (parse?_of_strips strips).mp hv
        exact illegal v hlegal htext
      simp only [decode, strips.trim_eq, if_neg nonempty, hnone]
  | notObject strips legal shape =>
      rw [decode_of_strips strips legal]
      simp [ofJson, shape]
  | @missingClass v strips legal shape noClass =>
      have hnone : classOf? (v.get? "class") = none := by
        rw [Option.eq_none_iff_forall_ne_some]
        exact fun c hc => noClass c ((classOf?_eq_some_iff legal).mp hc)
      rw [decode_of_strips strips legal]
      simp only [ofJson, shape, if_true, hnone]
  | @envelope v e strips legal shape hasClass value =>
      have hvalue : v.get? "value" = e.value := by
        apply Option.ext
        intro w
        rw [get?_eq_some_iff legal, value]
      rw [decode_of_strips strips legal]
      simp only [ofJson, shape, if_true, (classOf?_eq_some_iff legal).mpr hasClass, hvalue]

theorem exists_decodes (out : Bytes) : ∃ r, Decodes out r := by
  have hstrips := strips_trim out
  by_cases hempty : trim out = []
  · exact ⟨_, .empty (hempty ▸ hstrips)⟩
  by_cases hlegal : ∀ v, Legal v → v.text ≠ trim out
  · exact ⟨_, .notJson hstrips hempty hlegal⟩
  simp only [ne_eq, not_forall, Decidable.not_not] at hlegal
  obtain ⟨v, hlegal, htext⟩ := hlegal
  rw [← htext] at hstrips
  cases hshape : v.isObject with
  | false => exact ⟨_, .notObject hstrips hlegal hshape⟩
  | true =>
      cases hclass : classOf? (v.get? "class") with
      | none =>
          refine ⟨_, .missingClass hstrips hlegal hshape fun c hc => ?_⟩
          rw [(classOf?_eq_some_iff hlegal).mpr hc] at hclass
          cases hclass
      | some c =>
          refine ⟨.ok ⟨c, v.get? "value"⟩, .envelope hstrips hlegal hshape ?_ ?_⟩
          · exact (classOf?_eq_some_iff hlegal).mp hclass
          · exact fun w => get?_eq_some_iff hlegal

theorem decode_eq_iff (out : Bytes) (r : Except Error Envelope) :
    decode out = r ↔ Decodes out r := by
  constructor
  · rintro rfl
    obtain ⟨r, hr⟩ := exists_decodes out
    rwa [hr.decode_eq]
  · exact Decodes.decode_eq

/-! ## The members that count -/

/-- The names of the members that an envelope is made of. -/
def Counts (name : Bytes) : Prop :=
  name = "class" ∨ name = "value"

/-- One change to the members of an object that an envelope does not depend on. -/
inductive Edit : List (Bytes × Json) → List (Bytes × Json) → Prop where
  | other {l r : List (Bytes × Json)} {m : Bytes × Json}
      (unrelated : ∀ name, Counts name → ¬ StandsFor m.1 name) : Edit (l ++ r) (l ++ m :: r)
  | later {l r : List (Bytes × Json)} {m : Bytes × Json} {name : Bytes}
      (same : StandsFor m.1 name) (earlier : ∃ n ∈ l, StandsFor n.1 name) :
      Edit (l ++ r) (l ++ m :: r)
  /-- Two neighbours change places that are not both a `class` or both a `value`. -/
  | swap {l r : List (Bytes × Json)} {m n : Bytes × Json}
      (apart : ∀ name, Counts name → StandsFor m.1 name → ¬ StandsFor n.1 name) :
      Edit (l ++ m :: n :: r) (l ++ n :: m :: r)

theorem Edit.isFirst_iff {ms ns : List (Bytes × Json)} (h : Edit ms ns) {name : Bytes}
    (hname : Counts name) (v : Json) : IsFirst ms name v ↔ IsFirst ns name v := by
  cases h with
  | other unrelated =>
      exact (isFirst_insert fun hm => absurd hm (unrelated name hname)).symm
  | later same earlier =>
      refine (isFirst_insert fun hm => ?_).symm
      rwa [← hm.unescape_eq, same.unescape_eq]
  | swap apart => exact isFirst_swap (apart name hname)

theorem isFirst_iff_of_edits {ms ns : List (Bytes × Json)} (h : Relation.EqvGen Edit ms ns)
    {name : Bytes} (hname : Counts name) (v : Json) :
    IsFirst ms name v ↔ IsFirst ns name v := by
  induction h with
  | rel _ _ h => exact h.isFirst_iff hname v
  | refl _ => exact Iff.rfl
  | symm _ _ _ ih => exact ih.symm
  | trans _ _ _ _ _ ih ih' => exact ih.trans ih'

def returned (v : Spaced Json) : Json :=
  .object [] [(⟨[], "class", []⟩, ⟨[], .string "return", []⟩), (⟨[], "value", []⟩, v)]

theorem text_returned (v : Spaced Json) :
    (returned v).text =
      "\x7b\"class\":\"return\",\"value\":" ++ (v.before ++ v.value.text ++ v.after) ++ "\x7d" := by
  rw [returned, text_object, listed_cons_cons, listed_singleton, memberText_eq, memberText_eq]
  simp only [Spaced.written, text]
  rfl

theorem legal_returned {v : Spaced Json} (h : v.Good Legal) : Legal (returned v) := by
  have hreturn : Legal (.string "return") := .string (.of_plain (by decide))
  refine Legal.of_members (List.forall_mem_cons.mpr ⟨?_, List.forall_mem_singleton.mpr ?_⟩)
  · exact ⟨Spaced.good_of_plain (by decide), nofun, hreturn, nofun⟩
  · exact ⟨Spaced.good_of_plain (by decide), h⟩

theorem strips_returned (v : Spaced Json) : Strips (returned v).text (returned v).text :=
  strips_object _ _

theorem decodes_returned {v : Spaced Json} (h : v.Good Legal) :
    Decodes (returned v).text (.ok ⟨"return", some v.value⟩) := by
  have hself : StandsFor (Bytes.ofString "class") "class" ∧
      StandsFor (Bytes.ofString "value") "value" ∧ StandsFor (Bytes.ofString "return") "return" :=
    ⟨standsFor_self (by decide), standsFor_self (by decide), standsFor_self (by decide)⟩
  have hne : ¬ StandsFor (Bytes.ofString "class") "value" :=
    fun h => absurd h.unescape_eq (by decide)
  have hclass : IsFirst (returned v).members "class" (.string "return") :=
    isFirst_cons.mpr (Or.inl ⟨hself.1, rfl⟩)
  have hvalue : IsFirst (returned v).members "value" v.value :=
    isFirst_cons.mpr (Or.inr ⟨hne, isFirst_cons.mpr (Or.inl ⟨hself.2.1, rfl⟩)⟩)
  have hlegal := legal_returned h
  refine .envelope (strips_returned v) hlegal rfl ⟨"return", hclass, hself.2.2, ?_⟩ ?_
  · exact (by decide : Bytes.ofString "return" ≠ [])
  · intro w
    rw [← get?_eq_some_iff hlegal, (get?_eq_some_iff hlegal).mpr hvalue]

/-- Two objects with the same first `class` and the same first `value` hold the same envelope. -/
theorem ofJson_eq_ofJson {v w : Json} (hv : Legal v) (hw : Legal w)
    (hshape : v.isObject = w.isObject)
    (h : ∀ name, Counts name → ∀ u, IsFirst v.members name u ↔ IsFirst w.members name u) :
    ofJson v = ofJson w := by
  have hclass := get?_eq_get? hv hw (h "class" (Or.inl rfl))
  have hvalue := get?_eq_get? hv hw (h "value" (Or.inr rfl))
  simp only [ofJson, hshape, hclass, hvalue]

/-- An output is decided by the first `class` and the first `value` of the object that it is.
A value in an object of the class `return` is found as it is written, and changes that leave
the first member of either name in place do not matter. -/
theorem decode_by_class_and_value :
    (∀ out r, decode out = r ↔ Decodes out r) ∧
    (∀ (before after : Bytes) (v : Json), Blank before → Blank after → Legal v →
      decode ("\x7b\"class\":\"return\",\"value\":" ++ (before ++ v.text ++ after) ++ "\x7d") =
        .ok ⟨"return", some v⟩) ∧
    ∀ (out out' : Bytes) (v w : Json), Strips out v.text → Strips out' w.text → Legal v → Legal w →
      v.isObject = true → w.isObject = true → Relation.EqvGen Edit v.members w.members →
      decode out = decode out' := by
  refine ⟨decode_eq_iff, ?_, ?_⟩
  · intro before after v hbefore hafter hlegal
    have hdecodes := decodes_returned (v := ⟨before, v, after⟩) ⟨hbefore, hlegal, hafter⟩
    rw [text_returned] at hdecodes
    exact hdecodes.decode_eq
  · intro out out' v w hv hw hlegal hlegal' hobject hobject' hedits
    rw [decode_of_strips hv hlegal, decode_of_strips hw hlegal']
    refine ofJson_eq_ofJson hlegal hlegal' (hobject.trans hobject'.symm) ?_
    exact fun name hname u => isFirst_iff_of_edits hedits hname u

/-- A reply with its members the other way round, another member between them and a second
`class` behind them. -/
def shuffled : Json :=
  .object [] [(⟨[], "value", []⟩, ⟨[], .null, []⟩), (⟨" ", "notes", []⟩, ⟨[], .string [], []⟩),
    (⟨[], "class", []⟩, ⟨[], .string "return", []⟩), (⟨[], "class", []⟩, ⟨[], .null, []⟩)]

theorem text_shuffled :
    shuffled.text =
      "\x7b\"value\":null, \"notes\":\"\",\"class\":\"return\",\"class\":null\x7d" := by
  rw [shuffled, text_object, listed_cons_cons, listed_cons_cons, listed_cons_cons, listed_singleton]
  simp only [memberText_eq, Spaced.written, text]
  decide

theorem legal_shuffled : Legal shuffled := by
  have hreturn : Legal (.string "return") := .string (.of_plain (by decide))
  refine Legal.of_members (List.forall_mem_cons.mpr ⟨?_, List.forall_mem_cons.mpr ⟨?_,
    List.forall_mem_cons.mpr ⟨?_, List.forall_mem_singleton.mpr ?_⟩⟩⟩)
  · exact ⟨Spaced.good_of_plain (by decide), nofun, .null, nofun⟩
  · have hblank : Blank " " := fun b hb => by
      obtain rfl := List.mem_singleton.mp hb
      decide
    exact ⟨⟨hblank, .of_plain (by decide), nofun⟩, nofun, .string .nil, nofun⟩
  · exact ⟨Spaced.good_of_plain (by decide), nofun, hreturn, nofun⟩
  · exact ⟨Spaced.good_of_plain (by decide), nofun, .null, nofun⟩

theorem edits_shuffled :
    Relation.EqvGen Edit shuffled.members (returned ⟨[], .null, []⟩).members := by
  let value : Bytes × Json := ("value", .null)
  let notes : Bytes × Json := ("notes", .string [])
  let cls : Bytes × Json := ("class", .string "return")
  have hclass : StandsFor cls.1 "class" := standsFor_self (by decide)
  have hnotes : ∀ name, Counts name → ¬ StandsFor notes.1 name := by
    rintro name (rfl | rfl) h
    · exact absurd h.unescape_eq (by decide)
    · exact absurd h.unescape_eq (by decide)
  have hapart : ∀ name, Counts name → StandsFor value.1 name → ¬ StandsFor cls.1 name := by
    intro name _ hvalue hcls
    exact absurd (hvalue.unescape_eq.trans hcls.unescape_eq.symm) (by decide)
  have hlater : Edit [value, notes, cls] [value, notes, cls, ("class", .null)] :=
    .later (l := [value, notes, cls]) (r := []) hclass ⟨cls, by simp, hclass⟩
  have hother : Edit [value, cls] [value, notes, cls] := .other (l := [value]) (r := [cls]) hnotes
  have hswap : Edit [value, cls] [cls, value] := .swap (l := []) (r := []) hapart
  exact (Relation.EqvGen.rel _ _ hlater).symm.trans _ _ _
    ((Relation.EqvGen.rel _ _ hother).symm.trans _ _ _ (.rel _ _ hswap))

theorem decode_of_shuffled :
    decode "\n\x7b\"value\":null, \"notes\":\"\",\"class\":\"return\",\"class\":null\x7d" =
      .ok ⟨"return", some .null⟩ := by
  have hself : Strips shuffled.text shuffled.text := strips_object _ _
  have hstrips :
      Strips "\n\x7b\"value\":null, \"notes\":\"\",\"class\":\"return\",\"class\":null\x7d"
        shuffled.text :=
    ⟨⟨['\n'], [], List.forall_mem_singleton.mpr (by decide), nofun, by rw [text_shuffled]; decide⟩,
      hself.start, hself.stop⟩
  have hsame := decode_by_class_and_value.2.2 _ _ shuffled (returned ⟨[], .null, []⟩) hstrips
    (strips_returned _) legal_shuffled (legal_returned ⟨nofun, .null, nofun⟩) rfl rfl edits_shuffled
  rw [hsame, text_returned]
  exact decode_by_class_and_value.2.1 [] [] .null nofun nofun .null

end Envelope

end MerlinBridge
