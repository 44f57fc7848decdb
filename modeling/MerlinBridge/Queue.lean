/-!
# The queue of requests

Any number of clients append at the tail, and one consumer takes from the head. After appending, a
client raises a signal, which is a single flag: several signals that nobody has taken yet are one.

`remove` works in place. It runs over the items once, moves every item that stays down to the next
free place, and cuts off the rest. `toList` is the view through which the other operations are
described.
-/

namespace MerlinBridge

structure Queue (α : Type) where
  work : Array α := #[]
  signal : Bool := false

namespace Queue

variable {α : Type}

def toList (q : Queue α) : List α :=
  q.work.toList

def length (q : Queue α) : Nat :=
  q.work.size

def append (q : Queue α) (a : α) : Queue α :=
  { q with work := q.work.push a }

def raise (q : Queue α) : Queue α :=
  { q with signal := true }

def lower (q : Queue α) : Queue α :=
  { q with signal := false }

def add (q : Queue α) (a : α) : Queue α :=
  (q.append a).raise

def peek? (q : Queue α) : Option α :=
  q.work[0]?

def pop (q : Queue α) : Queue α :=
  { q with work := q.work.extract 1 q.work.size }

@[simp] theorem toList_append (q : Queue α) (a : α) : (q.append a).toList = q.toList ++ [a] := by
  simp [append, toList]

@[simp] theorem toList_raise (q : Queue α) : q.raise.toList = q.toList := rfl

@[simp] theorem toList_add (q : Queue α) (a : α) : (q.add a).toList = q.toList ++ [a] := by
  simp [add]

theorem peek?_eq_head? (q : Queue α) : q.peek? = q.toList.head? := by
  simp [peek?, toList, List.head?_eq_getElem?]

/-- The run of `remove` from index `i` on. The first `kept` places hold the items that stay, and
`removed` those that do not. -/
def compact (gone : Nat → α → Bool) (work : Array α) (i kept : Nat) (removed : Array α) :
    Array α × Array α :=
  if h : i < work.size then
    let item := work[i]
    if gone i item then compact gone work (i + 1) kept (removed.push item)
    else compact gone (work.setIfInBounds kept item) (i + 1) (kept + 1) removed
  else (work.extract 0 kept, removed)
termination_by work.size - i
decreasing_by
  · omega
  · simp only [Array.size_setIfInBounds]
    omega

/-- Removes the items in `drop`, except that the head stays when `keepHead` is set. The result is
the queue of the others and the removed items, both in order. -/
def remove (q : Queue α) (keepHead : Bool) (drop : α → Bool) : Queue α × List α :=
  let r := compact (fun i a => (0 < i || !keepHead) && drop a) q.work 0 0 #[]
  ({ q with work := r.1 }, r.2.toList)

end Queue

end MerlinBridge
