import Mathlib.Data.List.Forall2
import Mathlib.Logic.Relation
import MerlinBridge.Proofs.Navigation
import MerlinBridge.Proofs.QuickFixCommand

/-!
# What the entries of a payload look like

Three payloads hold arrays of entries. A `Shape` says of the entries of one array which are
well-formed, what is read from such an entry, and which notes are about an entry of this array. It
speaks about the first member of a name, and not about how a member is looked up. Each reader of
entries follows its shape.

The entries are `Sifted` if what is kept is read from the well-formed ones, in order, and the notes
have the indices of the others. So what is kept depends on the well-formed entries only, wherever
malformed ones stand between them (`Shape.Isolates`).
-/

namespace MerlinBridge

namespace Json

/-- The first member of a name is an object with a line and a column that are numbers. -/
def HasPlace (v : Json) (name : Bytes) : Prop :=
  ∃ p, IsFirst v.members name p ∧ p.isObject = true ∧
    (∃ line, IsFirst p.members "line" (.number line)) ∧ ∃ col, IsFirst p.members "col" (.number col)

def IsPlaced (v : Json) : Prop :=
  HasPlace v "start" ∧ HasPlace v "end"

def HasSpan (v : Json) (s : Span) : Prop :=
  HasPos v "start" s.start ∧ HasPos v "end" s.stop

/-- The first member of a name reads as `b`. Where there is none, `b` is empty. -/
def ReadsAs (v : Json) (name b : Bytes) : Prop :=
  (∃ w, IsFirst v.members name w ∧ w.content = b) ∨ (∀ w, ¬ IsFirst v.members name w) ∧ b = []

theorem hasPlace_iff {v : Json} {name : Bytes} : HasPlace v name ↔ ∃ pos, HasPos v name pos := by
  constructor
  · rintro ⟨p, hfirst, hobject, ⟨line, hline⟩, col, hcol⟩
    obtain ⟨l, hl⟩ := exists_passesOn line
    obtain ⟨c, hc⟩ := exists_passesOn col
    exact ⟨⟨l, c⟩, p, hfirst, hobject, ⟨line, hline, hl⟩, col, hcol, hc⟩
  · rintro ⟨pos, p, hfirst, hobject, ⟨line, hline, -⟩, col, hcol, -⟩
    exact ⟨p, hfirst, hobject, ⟨line, hline⟩, col, hcol⟩

theorem isPlaced_iff {v : Json} : IsPlaced v ↔ ∃ s, HasSpan v s := by
  rw [IsPlaced, hasPlace_iff, hasPlace_iff]
  constructor
  · rintro ⟨⟨start, hstart⟩, stop, hstop⟩
    exact ⟨⟨start, stop⟩, hstart, hstop⟩
  · rintro ⟨s, hstart, hstop⟩
    exact ⟨⟨s.start, hstart⟩, s.stop, hstop⟩

theorem get?_eq_none_iff {v : Json} (h : Legal v) {name : Bytes} :
    v.get? name = none ↔ ∀ w, ¬ IsFirst v.members name w := by
  rw [Option.eq_none_iff_forall_ne_some]
  exact forall_congr' fun w => not_congr (get?_eq_some_iff h)

theorem contentOf_get?_iff {v : Json} (h : Legal v) {name b : Bytes} :
    contentOf (v.get? name) = b ↔ ReadsAs v name b := by
  cases hget : v.get? name with
  | none =>
      have hnone := (get?_eq_none_iff h).mp hget
      simp [contentOf, ReadsAs, hnone, eq_comm]
  | some w =>
      have hfirst := (get?_eq_some_iff h).mp hget
      constructor
      · intro hb
        exact Or.inl ⟨w, hfirst, hb⟩
      · rintro (⟨u, hu, rfl⟩ | ⟨hnone, -⟩)
        · rw [hu.unique hfirst]
          rfl
        · exact absurd hfirst (hnone w)

theorem isArray_eq_true_iff {v : Json} :
    v.isArray = true ↔ ∃ blank items, v = .array blank items := by
  cases v <;> simp [isArray]

theorem isObject_eq_true_iff {v : Json} :
    v.isObject = true ↔ ∃ blank members, v = .object blank members := by
  cases v <;> simp [isObject]

theorem isObject_of_isFirst {v w : Json} {name : Bytes} (h : IsFirst v.members name w) :
    v.isObject = true := by
  obtain ⟨before, key, after, hmembers, -⟩ := h
  cases v with
  | object _ _ => rfl
  | _ => simp [members] at hmembers

theorem Legal.of_mem_items {blank : Bytes} {items : List (Spaced Json)}
    (h : Legal (.array blank items)) {v : Json} (hv : v ∈ items.map Spaced.value) : Legal v := by
  cases h with
  | array _ _ _ values =>
      obtain ⟨i, hi, rfl⟩ := List.mem_map.mp hv
      exact values i hi

end Json

open Json

theorem Span.ofJson_eq_ok_iff {v : Json} (h : Legal v) {s : Span} :
    Span.ofJson v = .ok s ↔ HasSpan v s := by
  rw [HasSpan, ← Pos.ofMember_eq_ok_iff h, ← Pos.ofMember_eq_ok_iff h, Span.ofJson]
  cases Pos.ofMember v "start" with
  | error e => simp [bind, Except.bind]
  | ok start =>
      cases Pos.ofMember v "end" with
      | error e => simp [bind, Except.bind]
      | ok stop =>
          obtain ⟨start', stop'⟩ := s
          simp [bind, Except.bind]

namespace Payload

/-! ## Sifting -/

structure Shape (α : Type) where
  WellFormed : Json → Prop
  Describes : Json → α → Prop
  index? : Skip → Option Nat

namespace Shape

variable {α : Type} {s : Shape α} {read : Nat → Json → Except Skip α} {entries : List Json}

structure Follows (s : Shape α) (read : Nat → Json → Except Skip α) : Prop where
  wellFormed_iff : ∀ {v}, Legal v → (s.WellFormed v ↔ ∃ a, s.Describes v a)
  ok_iff : ∀ {v}, Legal v → ∀ i a, read i v = .ok a ↔ s.Describes v a
  index_of_error : ∀ {i v n}, read i v = .error n → s.index? n = some i

open Classical in
/-- What is kept is read from the well-formed entries, in order, and the notes have the indices of
the others. -/
structure Sifted (s : Shape α) (entries : List Json) (kept : List α) (skipped : List Skip) :
    Prop where
  described : List.Forall₂ s.Describes (entries.filter fun v => s.WellFormed v) kept
  indices : skipped.filterMap s.index? =
    (entries.zipIdx.filter fun e => ¬ s.WellFormed e.1).map Prod.snd
  count : kept.length + (skipped.filterMap s.index?).length = entries.length

inductive Pads (s : Shape α) : List Json → List Json → Prop where
  | insert {l r : List Json} {v : Json} (malformed : ¬ s.WellFormed v) :
      Pads s (l ++ r) (l ++ v :: r)

open Classical in
theorem filter_eq_of_pads {others : List Json} (h : Relation.EqvGen s.Pads entries others) :
    (entries.filter fun v => s.WellFormed v) = others.filter fun v => s.WellFormed v := by
  induction h with
  | rel _ _ h =>
      cases h with
      | insert malformed => simp [malformed]
  | refl _ => rfl
  | symm _ _ _ ih => exact ih.symm
  | trans _ _ _ _ _ ih ih' => exact ih.trans ih'

open Classical in
theorem Follows.siftFrom (h : s.Follows read) (legal : ∀ v ∈ entries, Legal v) (i : Nat) :
    List.Forall₂ s.Describes (entries.filter fun v => s.WellFormed v)
        (siftFrom read i entries).1 ∧
      (siftFrom read i entries).2.map s.index? =
        ((entries.zipIdx i).filter fun e => ¬ s.WellFormed e.1).map fun e => some e.2 := by
  induction entries generalizing i with
  | nil => exact ⟨.nil, rfl⟩
  | cons v rest ih =>
      obtain ⟨hv, hrest⟩ := List.forall_mem_cons.mp legal
      obtain ⟨hkept, hskipped⟩ := ih hrest (i + 1)
      cases hread : read i v with
      | ok a =>
          have ha := (h.ok_iff hv i a).mp hread
          have hgood := (h.wellFormed_iff hv).mpr ⟨a, ha⟩
          simp only [Payload.siftFrom, hread, List.filter_cons, List.zipIdx_cons, hgood,
            decide_true, not_true, decide_false, if_true]
          exact ⟨.cons ha hkept, hskipped⟩
      | error n =>
          have hbad : ¬ s.WellFormed v := by
            intro hgood
            obtain ⟨a, ha⟩ := (h.wellFormed_iff hv).mp hgood
            rw [(h.ok_iff hv i a).mpr ha] at hread
            cases hread
          simp only [Payload.siftFrom, hread, List.filter_cons, List.zipIdx_cons, hbad,
            not_false_iff, decide_true, decide_false, if_true, List.map_cons,
            h.index_of_error hread, hskipped]
          exact ⟨hkept, trivial⟩

open Classical in
theorem length_filter_add (s : Shape α) (entries : List Json) :
    (entries.filter fun v => s.WellFormed v).length +
      (entries.zipIdx.filter fun e => ¬ s.WellFormed e.1).length = entries.length := by
  have hfst : ((entries.zipIdx.filter fun e => ¬ s.WellFormed e.1).map Prod.fst) =
      entries.filter fun v => ¬ s.WellFormed v := by
    conv_rhs => rw [← List.zipIdx_map_fst 0 entries, List.filter_map]
    rfl
  rw [← List.length_map Prod.fst, hfst,
    List.length_eq_length_filter_add (l := entries) fun v => decide (s.WellFormed v)]
  simp

/-- Sifting keeps to the shape, whatever notes of other kinds stand around. -/
theorem Follows.sifted (h : s.Follows read) (legal : ∀ v ∈ entries, Legal v)
    {before after : List Skip} (hbefore : ∀ n ∈ before, s.index? n = none)
    (hafter : ∀ n ∈ after, s.index? n = none) :
    s.Sifted entries (sift read entries).1 (before ++ (sift read entries).2 ++ after) := by
  classical
  obtain ⟨hkept, hskipped⟩ := h.siftFrom legal 0
  have hindices : (before ++ (sift read entries).2 ++ after).filterMap s.index? =
      (entries.zipIdx.filter fun e => ¬ s.WellFormed e.1).map Prod.snd := by
    calc (before ++ (sift read entries).2 ++ after).filterMap s.index?
      _ = (sift read entries).2.filterMap s.index? := by
          rw [List.filterMap_append, List.filterMap_append, List.filterMap_eq_nil_iff.mpr hbefore,
            List.filterMap_eq_nil_iff.mpr hafter, List.nil_append, List.append_nil]
      _ = ((sift read entries).2.map s.index?).filterMap id := by
          rw [List.filterMap_map, Function.id_comp]
      _ = _ := by
          rw [show (sift read entries).2.map s.index? = _ from hskipped, List.filterMap_map]
          exact congrFun List.filterMap_eq_map _
  refine ⟨hkept, hindices, ?_⟩
  rw [hindices, List.length_map, sift, ← hkept.length_eq]
  exact s.length_filter_add entries

/-- Entries with the same well-formed ones among them have the same results. -/
theorem Follows.kept_eq (h : s.Follows read) {others : List Json} {kept kept' : List α}
    {skipped skipped' : List Skip} (legal : ∀ v ∈ entries, Legal v)
    (hsifted : s.Sifted entries kept skipped) (hsifted' : s.Sifted others kept' skipped')
    (hpads : Relation.EqvGen s.Pads entries others) : kept = kept' := by
  classical
  obtain ⟨hdescribed, -, -⟩ := hsifted
  obtain ⟨hother, -, -⟩ := hsifted'
  rw [← filter_eq_of_pads hpads] at hother
  have hlegal : ∀ v ∈ entries.filter fun v => s.WellFormed v, Legal v :=
    fun v hv => legal v (List.mem_filter.mp hv).1
  generalize (entries.filter fun v => decide (s.WellFormed v)) = good at hdescribed hother hlegal
  induction hdescribed generalizing kept' with
  | nil => exact (List.forall₂_nil_left_iff.mp hother).symm
  | cons ha _ ih =>
      obtain ⟨b, rest, hb, hrest, rfl⟩ := List.forall₂_cons_left_iff.mp hother
      obtain ⟨hv, hlegal⟩ := List.forall_mem_cons.mp hlegal
      have hsame := ((h.ok_iff hv 0 _).mpr ha).symm.trans ((h.ok_iff hv 0 _).mpr hb)
      rw [Except.ok.inj hsame, ih hrest hlegal]

/-- A value is read as the array of entries that it holds: it is accepted if it holds one, its
entries are sifted, and malformed entries change nothing about what is kept. -/
structure Isolates (s : Shape α) (Holds : Json → List Json → Prop)
    (results : Json → Option (List α × List Skip)) : Prop where
  accepted_iff : ∀ {v}, Legal v → ((∃ r, results v = some r) ↔ ∃ entries, Holds v entries)
  sifted : ∀ {v entries kept skipped}, Legal v → Holds v entries →
    results v = some (kept, skipped) → s.Sifted entries kept skipped
  unpadded : ∀ {v w entries others r r'}, Legal v → Legal w → Holds v entries → Holds w others →
    Relation.EqvGen s.Pads entries others → results v = some r → results w = some r' → r.1 = r'.1

theorem Follows.isolates (h : s.Follows read) {Holds : Json → List Json → Prop}
    {results : Json → Option (List α × List Skip)}
    (accepted : ∀ {v}, Legal v → ((∃ r, results v = some r) ↔ ∃ entries, Holds v entries))
    (legal : ∀ {v entries}, Legal v → Holds v entries → ∀ e ∈ entries, Legal e)
    (sifts : ∀ {v entries r}, Legal v → Holds v entries → results v = some r →
      ∃ before after, (∀ n ∈ before, s.index? n = none) ∧ (∀ n ∈ after, s.index? n = none) ∧
        r = ((sift read entries).1, before ++ (sift read entries).2 ++ after)) :
    s.Isolates Holds results := by
  have hsifted : ∀ {v entries r}, Legal v → Holds v entries → results v = some r →
      s.Sifted entries r.1 r.2 := by
    intro v entries r hv hholds hr
    obtain ⟨before, after, hbefore, hafter, rfl⟩ := sifts hv hholds hr
    exact h.sifted (legal hv hholds) hbefore hafter
  refine ⟨accepted, fun hv hholds hr => hsifted hv hholds hr, ?_⟩
  intro v w entries others r r' hv hw hholds hholds' hpads hr hr'
  exact h.kept_eq (legal hv hholds) (hsifted hv hholds hr) (hsifted hw hholds' hr') hpads

end Shape

/-! ## The four kinds of entries -/

namespace Skip

def errorIndex? : Skip → Option Nat
  | error index _ => some index
  | _ => none

def quickFixIndex? : Skip → Option Nat
  | quickFix index _ => some index
  | suggestions index => some index
  | _ => none

def completionIndex? : Skip → Option Nat
  | completion index _ => some index
  | _ => none

def occurrenceIndex? : Skip → Option Nat
  | occurrence index _ => some index
  | _ => none

end Skip

/-- Diagnostics have a start and an end; what they have as message and type is read as text. -/
def errorShape : Shape ErrorEntry where
  WellFormed := IsPlaced
  Describes v e := HasSpan v e.span ∧ ReadsAs v "message" e.message ∧ ReadsAs v "type" e.type
  index? := Skip.errorIndex?

def quickFixShape : Shape QuickFixEntry where
  WellFormed v := IsPlaced v ∧ ∃ blank items, IsFirst v.members "suggs" (.array blank items)
  Describes v q := HasSpan v q.span ∧ ∃ blank items,
    IsFirst v.members "suggs" (.array blank items) ∧
      q.suggestions = items.map fun i => i.value.content
  index? := Skip.quickFixIndex?

def candidateShape : Shape Candidate where
  WellFormed v := ∃ body, IsFirst v.members "name" (.string body)
  Describes v c :=
    (∃ body, IsFirst v.members "name" (.string body) ∧ StandsFor body c.name) ∧
      ReadsAs v "desc" c.desc
  index? := Skip.completionIndex?

def occurrenceShape : Shape Span where
  WellFormed := IsPlaced
  Describes := HasSpan
  index? := Skip.occurrenceIndex?

theorem errorShape_follows : errorShape.Follows ErrorEntry.read where
  wellFormed_iff := by
    intro v hv
    constructor
    · intro hplaced
      obtain ⟨s, hs⟩ := isPlaced_iff.mp hplaced
      exact ⟨⟨s, contentOf (v.get? "message"), contentOf (v.get? "type")⟩, hs,
        (contentOf_get?_iff hv).mp rfl, (contentOf_get?_iff hv).mp rfl⟩
    · rintro ⟨e, hs, -⟩
      exact isPlaced_iff.mpr ⟨e.span, hs⟩
  ok_iff := by
    intro v hv i e
    obtain ⟨span, message, type⟩ := e
    simp only [errorShape, ← Span.ofJson_eq_ok_iff hv, ← contentOf_get?_iff hv, ErrorEntry.read]
    cases Span.ofJson v <;> simp
  index_of_error := by
    intro i v n h
    unfold ErrorEntry.read at h
    split at h
    · cases h
    · obtain rfl := Except.error.inj h
      rfl

theorem quickFixShape_follows : quickFixShape.Follows QuickFixEntry.read where
  wellFormed_iff := by
    intro v hv
    constructor
    · rintro ⟨hplaced, blank, items, hsuggs⟩
      obtain ⟨s, hs⟩ := isPlaced_iff.mp hplaced
      exact ⟨⟨s, items.map fun i => i.value.content⟩, hs, blank, items, hsuggs, rfl⟩
    · rintro ⟨q, hs, blank, items, hsuggs, -⟩
      exact ⟨isPlaced_iff.mpr ⟨q.span, hs⟩, blank, items, hsuggs⟩
  ok_iff := by
    intro v hv i q
    obtain ⟨span, suggestions⟩ := q
    simp only [quickFixShape, ← Span.ofJson_eq_ok_iff hv, ← get?_eq_some_iff hv, QuickFixEntry.read]
    cases Span.ofJson v with
    | error e => simp
    | ok s =>
        dsimp only
        split
        · rename_i blank items hsuggs
          simp [hsuggs, eq_comm]
        · rename_i hsuggs
          simp only [reduceCtorEq, false_iff]
          rintro ⟨-, blank, items, heq, -⟩
          exact hsuggs blank items heq
  index_of_error := by
    intro i v n h
    unfold QuickFixEntry.read at h
    split at h
    · obtain rfl := Except.error.inj h
      rfl
    · split at h
      · cases h
      · obtain rfl := Except.error.inj h
        rfl

theorem candidateShape_follows : candidateShape.Follows Candidate.read where
  wellFormed_iff := by
    intro v hv
    constructor
    · rintro ⟨body, hname⟩
      cases hv.of_isFirst hname with
      | string isBody =>
          exact ⟨⟨unescape true body, contentOf (v.get? "desc")⟩,
            ⟨body, hname, (unescape_eq_iff isBody).mp rfl⟩, (contentOf_get?_iff hv).mp rfl⟩
    · rintro ⟨c, ⟨body, hname, -⟩, -⟩
      exact ⟨body, hname⟩
  ok_iff := by
    intro v hv i c
    obtain ⟨name, desc⟩ := c
    simp only [candidateShape, ← contentOf_get?_iff hv, ← get?_eq_some_iff hv, Candidate.read]
    split
    · rename_i body hname
      cases hv.of_isFirst ((get?_eq_some_iff hv).mp hname) with
      | string isBody => simp [hname, unescape_eq_iff isBody]
    · rename_i hname
      simp only [reduceCtorEq, false_iff]
      rintro ⟨⟨body, heq, -⟩, -⟩
      exact hname body heq
  index_of_error := by
    intro i v n h
    unfold Candidate.read at h
    split at h
    · cases h
    · obtain rfl := Except.error.inj h
      rfl

theorem occurrenceShape_follows : occurrenceShape.Follows Occurrences.read where
  wellFormed_iff := fun _ => isPlaced_iff
  ok_iff := by
    intro v hv i s
    simp only [occurrenceShape, ← Span.ofJson_eq_ok_iff hv, Occurrences.read]
    cases Span.ofJson v <;> simp
  index_of_error := by
    intro i v n h
    unfold Occurrences.read at h
    split at h
    · cases h
    · obtain rfl := Except.error.inj h
      rfl

end Payload

/-! ## Values without white space -/

namespace Json

open Console (plainObject plainArray fixEntry)

theorem legal_of_isWhole {ds : Bytes} (h : IsWhole ds) : Legal (.number ds) :=
  .number h.isLiteral

theorem legal_plainObject {members : List (Bytes × Json)}
    (keys : (members.all fun m => m.1.all isPlain) = true) (values : ∀ m ∈ members, Legal m.2) :
    Legal (plainObject members) := by
  refine Legal.of_members fun m hm => ?_
  obtain ⟨n, hn, rfl⟩ := List.mem_map.mp hm
  exact ⟨Spaced.good_of_plain (List.all_eq_true.mp keys n hn), nofun, values n hn, nofun⟩

theorem legal_plainArray {items : List Json} (h : ∀ v ∈ items, Legal v) :
    Legal (plainArray items) := by
  have hplain : ∀ i ∈ items.map fun v => (⟨[], v, []⟩ : Spaced Json),
      Blank i.before ∧ Blank i.after ∧ Legal i.value := by
    intro i hi
    obtain ⟨v, hv, rfl⟩ := List.mem_map.mp hi
    exact ⟨nofun, nofun, h v hv⟩
  exact .array nofun (Or.inr rfl) (fun i hi => ⟨(hplain i hi).1, (hplain i hi).2.1⟩)
    fun i hi => (hplain i hi).2.2

/-- A legal value with a member of the name `name` in front finds it. -/
theorem isFirst_plainObject {name : Bytes} {v : Json} {members : List (Bytes × Json)}
    (plain : Bytes.byte '\\' ∉ name) :
    IsFirst (plainObject ((name, v) :: members)).members name v :=
  isFirst_cons.mpr (Or.inl ⟨standsFor_self plain, rfl⟩)

theorem legal_fixEntry {start stop : Bytes} (hstart : IsWhole start) (hstop : IsWhole stop) :
    Legal (fixEntry start stop []) := by
  have hone : IsWhole "1" := isWhole_of_all (by decide) (by decide)
  have hpos : ∀ {col : Bytes}, IsWhole col →
      Legal (plainObject [("line", .number "1"), ("col", .number col)]) := fun hcol =>
    legal_plainObject rfl (List.forall_mem_cons.mpr ⟨legal_of_isWhole hone,
      List.forall_mem_singleton.mpr (legal_of_isWhole hcol)⟩)
  refine legal_plainObject rfl (List.forall_mem_cons.mpr ⟨hpos hstart,
    List.forall_mem_cons.mpr ⟨hpos hstop, List.forall_mem_singleton.mpr ?_⟩⟩)
  exact legal_plainArray nofun

end Json

end MerlinBridge
