import MerlinBridge.Text.Bytes

/-!
# One-shot delivery

A request has a slot for its outcome, and a completion request a second one for its result. A slot
takes one value, hands it out once, and is closed from then on. Whoever comes first fills it: that
the first call alone puts anything in is kept by a flag of its own, and `Slot.put?` fails on a slot
that is full or closed.
-/

namespace MerlinBridge

inductive Slot (α : Type) where
  | empty
  | full (a : α)
  | closed
deriving DecidableEq

namespace Slot

variable {α : Type}

def put? : Slot α → α → Option (Slot α)
  | empty, a => some (full a)
  | full _, _ => none
  | closed, _ => none

def take : Slot α → Slot α
  | empty => empty
  | full _ => closed
  | closed => closed

end Slot

structure OneShot (α : Type) where
  fired : Bool := false
  slot : Slot α := .empty
deriving DecidableEq

namespace OneShot

variable {α : Type}

/-- Delivers a value, unless one has been delivered before. Tells whether this call did. -/
def fire (o : OneShot α) (a : α) : OneShot α × Bool :=
  if o.fired then (o, false)
  else
    match o.slot.put? a with
    | some s => (⟨true, s⟩, true)
    | none => (⟨true, o.slot⟩, false)

def take (o : OneShot α) : OneShot α :=
  { o with slot := o.slot.take }

end OneShot

structure CompletionItem where
  text : Bytes
  detail : Bytes
deriving DecidableEq

/-- The result of a completion request. The items replace the text from `startOffset` to the
cursor. -/
structure CompletionResult (ε : Type) where
  startOffset : Int64
  items : List CompletionItem
  error : Option ε
deriving DecidableEq

/-- The slots of a request: the error it ended with, if any, and the result of a completion. -/
structure Delivery (ε : Type) where
  done : OneShot (Option ε) := {}
  result : OneShot (CompletionResult ε) := {}
deriving DecidableEq

namespace Delivery

variable {ε : Type}

/-- Delivers the result of a completion that starts at `startOffset`. Tells whether this call
did. -/
def deliver (d : Delivery ε) (startOffset : Int64) (items : List CompletionItem)
    (error : Option ε) : Delivery ε × Bool :=
  let r := d.result.fire ⟨startOffset, items, error⟩
  ({ d with result := r.1 }, r.2)

/-- Ends a request. A completion, given by its start, that has no result yet gets an empty one with
the error. Only the first call has any effect. -/
def finish (d : Delivery ε) (completionStart : Option Int64) (error : Option ε) : Delivery ε :=
  if d.done.fired then d
  else
    let d :=
      match completionStart with
      | some start => (d.deliver start [] error).1
      | none => d
    { d with done := (d.done.fire error).1 }

def take (d : Delivery ε) : Delivery ε :=
  { done := d.done.take, result := d.result.take }

end Delivery

end MerlinBridge
