import MerlinBridge.Bridge.Client

/-!
# What the bridge says and what it decides by

A bridge splits in two. Its `control` is everything that decides what it does
next: the queue, the run under way, the protocol state, the breaker, the clock
and the flags of its end. The rest is what it has said, found and delivered. A
function that only talks leaves the control alone and appends events to the
trace, which `Notes b b'` records in one statement.

A line of the log is `Ordinary` when it opens in one of the ways in which the
bridge reports its regular work. The lines of the protocol machine about events
it ignores, and those about replies that match no request, open in other ways,
so a trace of ordinary lines has none of them.
-/

namespace MerlinBridge

/-- How the lines of the log open that report the regular work of the bridge. A
line about a request opens with the name of its kind. -/
def openings : List Bytes :=
  ["enqueue ", "start ", "dropping ", "CRITICAL: ", "errors ", "completion ",
    "go-to-definition ", "find-usages "]

def Ordinary (line : Bytes) : Prop :=
  ∃ p ∈ openings, p <+: line

instance (line : Bytes) : Decidable (Ordinary line) :=
  inferInstanceAs (Decidable (∃ p ∈ openings, p <+: line))

namespace Ordinary

/-- What is added at the end does not change how a line opens. -/
theorem append {line : Bytes} (h : Ordinary line) (rest : Bytes) :
    Ordinary (line ++ rest) := by
  obtain ⟨p, hp, hline⟩ := h
  exact ⟨p, hp, hline.trans (List.prefix_append line rest)⟩

/-- No opening ends in a newline, so a line that loses its last newline opens as
before. -/
theorem dropEnd {line : Bytes} (h : Ordinary line) : Ordinary (line.dropEnd "\n") := by
  obtain ⟨p, hp, hline⟩ := h
  refine ⟨p, hp, ?_⟩
  unfold Bytes.dropEnd
  split
  · rename_i hend
    have hopen : ∀ p ∈ openings, ¬ Bytes.endsWith p "\n" = true := by decide
    have hne : p ≠ line := by
      rintro rfl
      exact hopen p hp hend
    have hlt : p.length < line.length := by
      refine Nat.lt_of_le_of_ne hline.length_le ?_
      intro hlen
      exact hne (hline.eq_of_length hlen)
    have hone : ((("\n" : String) : Bytes)).length = 1 := by decide
    rw [List.prefix_take_iff]
    exact ⟨hline, by omega⟩
  · exact hline

/-- A line that opens otherwise is not ordinary: of two prefixes of one line the
shorter is a prefix of the longer. -/
theorem not_lead {line lead : Bytes} (h : Ordinary line)
    (hlead : ∀ p ∈ openings, ¬ p <+: lead ∧ ¬ lead <+: p) : ¬ lead <+: line := by
  obtain ⟨p, hp, hline⟩ := h
  intro hl
  rcases List.prefix_or_prefix_of_prefix hline hl with hpl | hlp
  · exact (hlead p hp).1 hpl
  · exact (hlead p hp).2 hlp

theorem request_text (r : Request) : Ordinary r.text := by
  have hkind : Ordinary (r.kind.name ++ " request <id> for ") := by
    cases r.kind <;> decide
  unfold Request.text
  exact (((hkind.append _).append _).append _).append _

theorem about (r : Request) (text : Bytes) : Ordinary (Bridge.about r text) :=
  ((request_text r).append _).append _

end Ordinary

namespace Fault

/-- The faults that say that the protocol machine and the request in flight do
not fit together. -/
def isIncoherence : Fault → Bool
  | undetectableState => true
  | protocolViolation => true
  | notInFlight _ => true
  | _ => false

end Fault

namespace Event

/-- An event of handling a reply: an ordinary line of the log, or a call of the
editor. -/
def IsNote : Event → Prop
  | log line => Ordinary line
  | host _ => True
  | started _ => False
  | finished _ _ => False

def IsOrdinary : Event → Prop
  | log line => Ordinary line
  | host _ => True
  | started _ => True
  | finished _ fault => ∀ f, fault = some f → f.isIncoherence = false

def started? : Event → Option Request
  | started r => some r
  | _ => none

theorem IsNote.isOrdinary {e : Event} (h : e.IsNote) : e.IsOrdinary := by
  cases e with
  | log line => exact h
  | host call => trivial
  | started r => exact h.elim
  | finished r fault => exact h.elim

theorem IsNote.started?_eq_none {e : Event} (h : e.IsNote) : e.started? = none := by
  cases e with
  | log line => rfl
  | host call => rfl
  | started r => exact h.elim
  | finished r fault => rfl

end Event

namespace Bridge

def starts (b : Bridge) : List Request :=
  b.trace.filterMap Event.started?

/-- The part of a bridge that decides what it does next. What it has said, found
and delivered is blotted out. -/
def control (b : Bridge) : Bridge :=
  { b with trace := [], store := {}, delivery := fun _ => {} }

theorem logAll_eq (b : Bridge) (lines : List Bytes) :
    b.logAll lines =
      { b with trace := b.trace ++ lines.map fun line => .log (line.dropEnd "\n") } := by
  induction lines generalizing b with
  | nil => simp [logAll]
  | cons line lines ih =>
      refine (ih (b.log line)).trans ?_
      simp [log, emit]

@[simp] theorem control_finishRequest (b : Bridge) (r : Request) (fault : Option Fault) :
    (b.finishRequest r fault).control = b.control := rfl

/-- `b'` comes from `b` by talking alone: the control is the same, and the trace
has grown by notes. -/
structure Notes (b b' : Bridge) : Prop where
  control : b'.control = b.control
  trace : ∃ notes, b'.trace = b.trace ++ notes ∧ ∀ e ∈ notes, e.IsNote

namespace Notes

theorem refl (b : Bridge) : Notes b b :=
  ⟨rfl, [], by simp, by simp⟩

theorem trans {a b c : Bridge} (h : Notes a b) (h' : Notes b c) : Notes a c := by
  obtain ⟨notes, htrace, hnotes⟩ := h.trace
  obtain ⟨notes', htrace', hnotes'⟩ := h'.trace
  refine ⟨h'.control.trans h.control, notes ++ notes', ?_, ?_⟩
  · rw [htrace', htrace, List.append_assoc]
  · intro e he
    rcases List.mem_append.mp he with he | he
    · exact hnotes e he
    · exact hnotes' e he

theorem emit (b : Bridge) {e : Event} (h : e.IsNote) : Notes b (b.emit e) :=
  ⟨rfl, [e], rfl, by simpa using h⟩

theorem log (b : Bridge) {line : Bytes} (h : Ordinary line) : Notes b (b.log line) :=
  emit b h.dropEnd

theorem tell (b : Bridge) (call : HostCall) : Notes b (b.tell call) :=
  emit b trivial

theorem logAll (b : Bridge) (lines : List Bytes) (h : ∀ line ∈ lines, Ordinary line) :
    Notes b (b.logAll lines) := by
  induction lines generalizing b with
  | nil => exact refl b
  | cons line lines ih =>
      have hhead := log b (h line List.mem_cons_self)
      have htail := ih (b.log line) fun l hl => h l (List.mem_cons_of_mem line hl)
      exact hhead.trans htail

theorem updateDelivery (b : Bridge) (id : Nat) (f : Delivery Fault → Delivery Fault) :
    Notes b (b.updateDelivery id f) :=
  ⟨rfl, [], by simp [Bridge.updateDelivery], by simp⟩

theorem store (b : Bridge) (store : Store) : Notes b { b with store := store } :=
  ⟨rfl, [], by simp, by simp⟩

end Notes

end Bridge

end MerlinBridge
