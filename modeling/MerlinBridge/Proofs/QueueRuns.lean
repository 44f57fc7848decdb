import MerlinBridge.Proofs.QueueView

/-!
# Runs of a queue

The operations of a queue can be mixed in any order. `run` carries out a list of them
on anything that answers them and keeps what was answered, and three things are run:
the queue itself, a plain list (`onList`), and `Storage`, which is where the items of a
queue are: a stretch of cells in an array that is moved along when the head is taken,
compacted in place when items are removed, and copied when there is no cell left. All
three give the same answers (`runs_agree`). Cells that are not in use are blank, so
nothing that was taken or removed is held on to.
-/

namespace MerlinBridge

namespace Queue

variable {α σ τ : Type}

inductive Op (α : Type) where
  | add (a : α)
  | get
  | peek
  | remove (keepHead : Bool) (drop : α → Bool)

inductive Answer (α : Type) where
  | done
  | item (a : Option α)
  | items (l : List α)

/-- Carries out operations one after the other: what is left, and each operation with its
answer. -/
def run (step : σ → Op α → σ × Answer α) (s : σ) : List (Op α) → σ × List (Op α × Answer α)
  | [] => (s, [])
  | op :: ops =>
    let r := step s op
    let rest := run step r.1 ops
    (rest.1, (op, r.2) :: rest.2)

@[simp] theorem run_nil (step : σ → Op α → σ × Answer α) (s : σ) : run step s [] = (s, []) := rfl

theorem run_cons (step : σ → Op α → σ × Answer α) (s : σ) (op : Op α) (ops : List (Op α)) :
    run step s (op :: ops) =
      ((run step (step s op).1 ops).1, (op, (step s op).2) :: (run step (step s op).1 ops).2) :=
  rfl

/-- Steps that answer alike and keep a relation make runs that do. -/
theorem run_simulates {step : σ → Op α → σ × Answer α} {step' : τ → Op α → τ × Answer α}
    {R : σ → τ → Prop}
    (h : ∀ s t op, R s t → (step s op).2 = (step' t op).2 ∧ R (step s op).1 (step' t op).1)
    {s : σ} {t : τ} (start : R s t) (ops : List (Op α)) :
    (run step s ops).2 = (run step' t ops).2 ∧ R (run step s ops).1 (run step' t ops).1 := by
  induction ops generalizing s t with
  | nil => exact ⟨rfl, start⟩
  | cons op ops ih =>
      obtain ⟨hanswer, hstep⟩ := h s t op start
      obtain ⟨hanswers, hrun⟩ := ih hstep
      simp only [run_cons]
      exact ⟨by rw [hanswer, hanswers], hrun⟩

/-! ## Queues and lists -/

def step (q : Queue α) : Op α → Queue α × Answer α
  | .add a => (q.add a, .done)
  | .get => (q.pop, .item q.peek?)
  | .peek => (q, .item q.peek?)
  | .remove keepHead drop => ((q.remove keepHead drop).1, .items (q.remove keepHead drop).2)

def onList : List α → Op α → List α × Answer α
  | l, .add a => (l ++ [a], .done)
  | l, .get => (l.tail, .item l.head?)
  | l, .peek => (l, .item l.head?)
  | l, .remove false drop => (l.filter fun a => !drop a, .items (l.filter drop))
  | [], .remove true _ => ([], .items [])
  | a :: l, .remove true drop => (a :: l.filter fun a => !drop a, .items (l.filter drop))

theorem step_onList (q : Queue α) (op : Op α) :
    (q.step op).2 = (onList q.toList op).2 ∧ (q.step op).1.toList = (onList q.toList op).1 := by
  cases op with
  | add a => exact ⟨rfl, q.toList_add a⟩
  | get => exact ⟨congrArg Answer.item q.peek?_eq_head?, q.toList_pop⟩
  | peek => exact ⟨congrArg Answer.item q.peek?_eq_head?, rfl⟩
  | remove keepHead drop =>
      simp only [step, toList_remove, remove_snd]
      cases keepHead with
      | false => simp [onList, reserved]
      | true =>
          cases q.toList with
          | nil => simp [onList]
          | cons a l => simp [onList, reserved]

/-! ## What becomes of the items -/

def addedBy : Op α → List α
  | .add a => [a]
  | _ => []

def gotBy : Op α × Answer α → List α
  | (.get, .item a) => a.toList
  | _ => []

def removedBy : Op α × Answer α → List α
  | (.remove .., .items l) => l
  | _ => []

/-- An operation takes an item from the head, removes items or leaves them. -/
theorem step_perm (q : Queue α) (op : Op α) :
    (gotBy (op, (q.step op).2) ++ (removedBy (op, (q.step op).2) ++ (q.step op).1.toList)).Perm
      (q.toList ++ addedBy op) := by
  cases op with
  | add a => simp [step, gotBy, removedBy, addedBy]
  | get =>
      cases hhead : q.peek? with
      | none => simp [step, gotBy, removedBy, addedBy, hhead, q.toList_eq_nil_of_peek? hhead]
      | some a =>
          have hcons := q.toList_eq_cons_of_peek? hhead
          simp only [step, gotBy, removedBy, addedBy, hhead, Option.toList_some, List.nil_append,
            List.append_nil, List.singleton_append, hcons, List.Perm.refl]
  | peek => simp [step, gotBy, removedBy, addedBy]
  | remove keepHead drop =>
      simpa [step, gotBy, removedBy, addedBy] using q.remove_perm keepHead drop

/-- What an operation takes from the head was in front of what it leaves. -/
theorem step_sublist (q : Queue α) (op : Op α) :
    (gotBy (op, (q.step op).2) ++ (q.step op).1.toList).Sublist
      (q.toList ++ addedBy op) := by
  cases op with
  | add a => simp [step, gotBy, addedBy]
  | get =>
      cases hhead : q.peek? with
      | none => simp [step, gotBy, addedBy, hhead, q.toList_eq_nil_of_peek? hhead]
      | some a =>
          have hcons := q.toList_eq_cons_of_peek? hhead
          simp only [step, gotBy, addedBy, hhead, Option.toList_some, List.append_nil,
            List.singleton_append, hcons, List.Sublist.refl]
  | peek => simp [step, gotBy, addedBy]
  | remove keepHead drop =>
      simpa [step, gotBy, addedBy] using q.toList_remove_sublist keepHead drop

theorem run_perm (q : Queue α) (ops : List (Op α)) :
    ((run step q ops).2.flatMap gotBy ++
        ((run step q ops).2.flatMap removedBy ++ (run step q ops).1.toList)).Perm
      (q.toList ++ ops.flatMap addedBy) := by
  induction ops generalizing q with
  | nil => simp
  | cons op ops ih =>
      simp only [run_cons, List.flatMap_cons, List.append_assoc]
      have hstep := (q.step_perm op).append_right (ops.flatMap addedBy)
      have hrest := (ih (q.step op).1).append_left (removedBy (op, (q.step op).2))
      have hswap := List.perm_append_comm_assoc ((run step (q.step op).1 ops).2.flatMap gotBy)
        (removedBy (op, (q.step op).2))
        ((run step (q.step op).1 ops).2.flatMap removedBy ++ (run step (q.step op).1 ops).1.toList)
      simp only [List.append_assoc] at hstep
      exact ((hswap.trans hrest).append_left _).trans hstep

theorem run_sublist (q : Queue α) (ops : List (Op α)) :
    ((run step q ops).2.flatMap gotBy ++ (run step q ops).1.toList).Sublist
      (q.toList ++ ops.flatMap addedBy) := by
  induction ops generalizing q with
  | nil => simp
  | cons op ops ih =>
      simp only [run_cons, List.flatMap_cons, List.append_assoc]
      have hrest := (ih (q.step op).1).append_left (gotBy (op, (q.step op).2))
      have hstep := (q.step_sublist op).append_right (ops.flatMap addedBy)
      rw [List.append_assoc, List.append_assoc] at hstep
      exact hrest.trans hstep

/-! ## Where the items are -/

/-- The cells of a queue: `length` of them, from `start` on, in an array that may have more. -/
structure Storage (α : Type) where
  cells : Array α
  start : Nat
  length : Nat
  fits : start + length ≤ cells.size

namespace Storage

def window (s : Storage α) : Array α :=
  s.cells.extract s.start (s.start + s.length)

def empty : Storage α :=
  ⟨#[], 0, 0, Nat.le_refl 0⟩

theorem size_window (s : Storage α) : s.window.size = s.length := by
  have hfits := s.fits
  simp only [window, Array.size_extract]
  omega

def read (s : Storage α) (i : Nat) (h : i < s.length) : α :=
  have inside : s.start + i < s.cells.size := by
    have hfits := s.fits
    omega
  s.cells[s.start + i]

def write (s : Storage α) (i : Nat) (a : α) : Storage α where
  cells := s.cells.setIfInBounds (s.start + i) a
  start := s.start
  length := s.length
  fits := by simpa using s.fits

def cut (s : Storage α) (k : Nat) : Storage α where
  cells := s.cells
  start := s.start
  length := min k s.length
  fits := by
    have hfits := s.fits
    omega

/-- Puts an item into the next cell, or into a larger array, with as many more cells as `spare`
says. -/
def add (blank : α) (spare : Nat → Nat) (s : Storage α) (a : α) : Storage α :=
  if h : s.start + s.length < s.cells.size then
    ⟨s.cells.setIfInBounds (s.start + s.length) a, s.start, s.length + 1, by
      simp only [Array.size_setIfInBounds]
      omega⟩
  else
    ⟨s.window.push a ++ Array.replicate (spare s.length) blank, 0, s.length + 1, by
      simp [size_window]⟩

def get (blank : α) (s : Storage α) : Storage α × Option α :=
  if h : 0 < s.length then
    (⟨s.cells.setIfInBounds s.start blank, s.start + 1, s.length - 1, by
      have hfits := s.fits
      simp only [Array.size_setIfInBounds]
      omega⟩, some (s.read 0 h))
  else (s, none)

def peek? (s : Storage α) : Option α :=
  if h : 0 < s.length then some (s.read 0 h) else none

/-- Moves the items that stay down to the next free cell, from the index `i` on. The first `kept`
cells hold those that stay. -/
def compact (gone : Nat → α → Bool) (s : Storage α) (i kept : Nat) (removed : Array α) :
    Storage α × Nat × Array α :=
  if h : i < s.length then
    let item := s.read i h
    if gone i item then compact gone s (i + 1) kept (removed.push item)
    else compact gone (s.write kept item) (i + 1) (kept + 1) removed
  else (s, kept, removed)
termination_by s.length - i
decreasing_by
  · omega
  · simp only [write]
    omega

def clear (blank : α) (s : Storage α) (i : Nat) : Storage α :=
  if i < s.length then clear blank (s.write i blank) (i + 1) else s
termination_by s.length - i
decreasing_by
  simp only [write]
  omega

def remove (blank : α) (s : Storage α) (keepHead : Bool) (drop : α → Bool) :
    Storage α × List α :=
  let r := compact (fun i a => (0 < i || !keepHead) && drop a) s 0 0 #[]
  ((clear blank r.1 r.2.1).cut r.2.1, r.2.2.toList)

def step (blank : α) (spare : Nat → Nat) (s : Storage α) : Op α → Storage α × Answer α
  | .add a => (s.add blank spare a, .done)
  | .get => ((s.get blank).1, .item (s.get blank).2)
  | .peek => (s, .item s.peek?)
  | .remove keepHead drop =>
    ((s.remove blank keepHead drop).1, .items (s.remove blank keepHead drop).2)

/-! ### The cells in use -/

theorem getElem?_window (s : Storage α) (i : Nat) :
    s.window[i]? = if i < s.length then s.cells[s.start + i]? else none := by
  have hfits := s.fits
  rw [window, Array.getElem?_extract, Nat.min_eq_left hfits, Nat.add_sub_cancel_left]

theorem getElem_window (s : Storage α) {i : Nat} (h : i < s.length) (h' : i < s.window.size) :
    s.window[i] = s.read i h := by
  simp only [window, read, Array.getElem_extract]

theorem window_write (s : Storage α) (k : Nat) (a : α) :
    (s.write k a).window = s.window.setIfInBounds k a := by
  apply Array.ext_getElem?
  intro i
  rw [Array.getElem?_setIfInBounds, getElem?_window, getElem?_window, size_window]
  simp only [write, Array.getElem?_setIfInBounds]
  have hfits := s.fits
  grind

theorem window_cut (s : Storage α) (k : Nat) : (s.cut k).window = s.window.extract 0 k := by
  apply Array.ext_getElem?
  intro i
  rw [Array.getElem?_extract, getElem?_window, getElem?_window, size_window]
  simp only [cut]
  grind

theorem window_add (blank : α) (spare : Nat → Nat) (s : Storage α) (a : α) :
    (s.add blank spare a).window = s.window.push a := by
  have hfits := s.fits
  apply Array.ext_getElem?
  intro i
  rw [getElem?_window, Array.getElem?_push, size_window, getElem?_window]
  unfold add
  split
  · simp only [Array.getElem?_setIfInBounds]
    grind
  · have hsize := s.size_window
    simp only [Array.getElem?_append, Array.getElem?_push, Nat.zero_add, getElem?_window]
    grind

theorem window_get (blank : α) (s : Storage α) :
    (s.get blank).1.window = s.window.extract 1 s.window.size := by
  have hfits := s.fits
  apply Array.ext_getElem?
  intro i
  rw [Array.getElem?_extract, getElem?_window, getElem?_window, size_window]
  unfold get
  split
  · simp only [Array.getElem?_setIfInBounds]
    grind
  · grind

theorem peek?_eq (s : Storage α) : s.peek? = s.window[0]? := by
  unfold peek?
  split
  · rename_i h
    rw [← s.getElem_window h (by rwa [size_window]), Array.getElem?_eq_getElem]
  · rename_i h
    rw [getElem?_window, if_neg h]

theorem get_snd (blank : α) (s : Storage α) : (s.get blank).2 = s.peek? := by
  unfold get peek?
  split <;> rfl

theorem compact_window (gone : Nat → α → Bool) (s : Storage α) (i kept : Nat)
    (removed : Array α) :
    Queue.compact gone s.window i kept removed =
      ((compact gone s i kept removed).1.window.extract 0 (compact gone s i kept removed).2.1,
        (compact gone s i kept removed).2.2) := by
  fun_induction compact gone s i kept removed with
  | case1 s i kept removed h item hgone ih =>
      rw [Queue.compact, dif_pos (by rwa [size_window])]
      simp only [s.getElem_window h]
      rw [if_pos hgone, ih]
  | case2 s i kept removed h item hgone ih =>
      rw [Queue.compact, dif_pos (by rwa [size_window])]
      simp only [s.getElem_window h]
      rw [if_neg hgone, ← window_write, ih]
  | case3 s i kept removed h =>
      rw [Queue.compact, dif_neg (by rwa [size_window])]

/-- Compaction writes to cells in use only, since it has read at least as many as it writes. -/
theorem cells_compact (gone : Nat → α → Bool) (s : Storage α) (i kept : Nat) (removed : Array α)
    (h : kept ≤ i) :
    (compact gone s i kept removed).1.start = s.start ∧
      (compact gone s i kept removed).1.length = s.length ∧
      (compact gone s i kept removed).1.cells.size = s.cells.size ∧
      ∀ j, j < s.start ∨ s.start + s.length ≤ j →
        (compact gone s i kept removed).1.cells[j]? = s.cells[j]? := by
  fun_induction compact gone s i kept removed with
  | case1 s i kept removed hi item hgone ih => exact ih (Nat.le_succ_of_le h)
  | case2 s i kept removed hi item hgone ih =>
      obtain ⟨hstart, hlength, hsize, hcells⟩ := ih (Nat.succ_le_succ h)
      refine ⟨hstart, hlength, hsize.trans (by simp [write]), fun j hj => ?_⟩
      have hne : s.start + kept ≠ j := by omega
      rw [hcells j hj]
      simp only [write, Array.getElem?_setIfInBounds, if_neg hne]
  | case3 s i kept removed hi => exact ⟨rfl, rfl, rfl, fun _ _ => rfl⟩

theorem cells_clear (blank : α) (s : Storage α) (i : Nat) :
    (clear blank s i).start = s.start ∧ (clear blank s i).length = s.length ∧
      (clear blank s i).cells.size = s.cells.size ∧
      ∀ j, (clear blank s i).cells[j]? =
        if s.start + i ≤ j ∧ j < s.start + s.length then some blank else s.cells[j]? := by
  fun_induction clear blank s i with
  | case1 s i hi ih =>
      obtain ⟨hstart, hlength, hsize, hcells⟩ := ih
      refine ⟨hstart, hlength, hsize.trans (by simp [write]), fun j => ?_⟩
      have hfits := s.fits
      rw [hcells]
      simp only [write, Array.getElem?_setIfInBounds]
      grind
  | case2 s i hi =>
      refine ⟨rfl, rfl, rfl, fun j => ?_⟩
      rw [if_neg (by omega)]

theorem extract_window_clear (blank : α) (s : Storage α) (k : Nat) :
    (clear blank s k).window.extract 0 k = s.window.extract 0 k := by
  obtain ⟨hstart, hlength, -, hcells⟩ := cells_clear blank s k
  apply Array.ext_getElem?
  intro i
  simp only [Array.getElem?_extract, size_window, getElem?_window, hstart, hlength, hcells]
  grind

def IsClean (blank : α) (s : Storage α) : Prop :=
  ∀ j, j < s.cells.size → j < s.start ∨ s.start + s.length ≤ j → s.cells[j]? = some blank

variable {blank : α} {spare : Nat → Nat} {s : Storage α}

theorem isClean_empty : (empty : Storage α).IsClean blank :=
  fun _ hj => absurd hj (Nat.not_lt_zero _)

theorem IsClean.add (h : s.IsClean blank) (a : α) : (s.add blank spare a).IsClean blank := by
  intro j hj hout
  by_cases hroom : s.start + s.length < s.cells.size
  · simp only [Storage.add, dif_pos hroom, Array.size_setIfInBounds,
      Array.getElem?_setIfInBounds] at hj hout ⊢
    rw [if_neg (by omega)]
    exact h j hj (by omega)
  · have hsize := s.size_window
    simp only [Storage.add, dif_neg hroom, Array.size_append, Array.size_push,
      Array.size_replicate, hsize, Nat.zero_add] at hj hout ⊢
    rw [Array.getElem?_append_right (by simp only [Array.size_push]; omega)]
    simp only [Array.size_push, hsize, Array.getElem?_replicate]
    rw [if_pos (by omega)]

theorem IsClean.get (h : s.IsClean blank) : (s.get blank).1.IsClean blank := by
  intro j hj hout
  by_cases hsome : 0 < s.length
  · simp only [Storage.get, dif_pos hsome, Array.size_setIfInBounds,
      Array.getElem?_setIfInBounds] at hj hout ⊢
    split
    · rename_i hhead
      rw [if_pos (hhead ▸ hj)]
    · exact h j hj (by omega)
  · simp only [Storage.get, dif_neg hsome] at hj hout ⊢
    exact h j hj hout

theorem IsClean.remove (h : s.IsClean blank) (keepHead : Bool) (drop : α → Bool) :
    (s.remove blank keepHead drop).1.IsClean blank := by
  intro j hj hout
  obtain ⟨hstart, hlength, hsize, hcells⟩ := cells_compact
    (fun i a => (0 < i || !keepHead) && drop a) s 0 0 #[] (Nat.le_refl 0)
  simp only [Storage.remove, cut] at hj hout ⊢
  generalize compact (fun i a => (0 < i || !keepHead) && drop a) s 0 0 #[] = r at *
  obtain ⟨hstart', hlength', hsize', hcells'⟩ := cells_clear blank r.1 r.2.1
  rw [hstart', hlength'] at hout
  rw [hsize', hsize] at hj
  rw [hcells']
  split
  · rfl
  · rw [hcells j (by omega)]
    exact h j hj (by omega)

/-! ### Operations on the cells -/

def Holds (blank : α) (s : Storage α) (q : Queue α) : Prop :=
  s.window = q.work ∧ s.IsClean blank

theorem window_remove (blank : α) (keepHead : Bool) (drop : α → Bool) {q : Queue α}
    (h : s.window = q.work) :
    (s.remove blank keepHead drop).1.window = (q.remove keepHead drop).1.work ∧
      (s.remove blank keepHead drop).2 = (q.remove keepHead drop).2 := by
  have hcompact := compact_window (fun i a => (0 < i || !keepHead) && drop a) s 0 0 #[]
  rw [h] at hcompact
  simp only [Storage.remove, Queue.remove, hcompact, window_cut, extract_window_clear, and_self]

theorem Holds.step {q : Queue α} (h : s.Holds blank q) (spare : Nat → Nat) (op : Op α) :
    (s.step blank spare op).2 = (q.step op).2 ∧
      (s.step blank spare op).1.Holds blank (q.step op).1 := by
  obtain ⟨hwindow, hclean⟩ := h
  have hpeek : s.peek? = q.peek? := by rw [peek?_eq, hwindow, Queue.peek?]
  cases op with
  | add a =>
      refine ⟨rfl, ?_, hclean.add a⟩
      change (s.add blank spare a).window = q.work.push a
      rw [window_add, hwindow]
  | get =>
      refine ⟨congrArg Answer.item ((get_snd blank s).trans hpeek), ?_, hclean.get⟩
      change (s.get blank).1.window = q.work.extract 1 q.work.size
      rw [window_get, hwindow]
  | peek => exact ⟨congrArg Answer.item hpeek, hwindow, hclean⟩
  | remove keepHead drop =>
      obtain ⟨hleft, hremoved⟩ := window_remove blank keepHead drop hwindow
      exact ⟨congrArg Answer.items hremoved, hleft, hclean.remove keepHead drop⟩

end Storage

/-- Operations in any order are answered by a queue, and by its cells, as by a plain list, and leave
the same items. The items that were got, removed and left are those that were added, and those got
and left are in the order in which they were added. -/
theorem runs_agree (ops : List (Op α)) :
    (run step {} ops).2 = (run onList [] ops).2 ∧
    (run step {} ops).1.toList = (run onList [] ops).1 ∧
    (run step {} ops).1.length = (run onList [] ops).1.length ∧
    (∀ (blank : α) (spare : Nat → Nat),
      (run (Storage.step blank spare) .empty ops).2 = (run onList [] ops).2 ∧
      (run (Storage.step blank spare) .empty ops).1.window.toList = (run onList [] ops).1 ∧
      (run (Storage.step blank spare) .empty ops).1.IsClean blank) ∧
    ((run step {} ops).2.flatMap gotBy ++
        ((run step {} ops).2.flatMap removedBy ++ (run step {} ops).1.toList)).Perm
      (ops.flatMap addedBy) ∧
    ((run step {} ops).2.flatMap gotBy ++ (run step {} ops).1.toList).Sublist
      (ops.flatMap addedBy) := by
  have hlist := run_simulates (R := fun (q : Queue α) l => q.toList = l)
    (fun q l op h => h ▸ q.step_onList op) (show ({} : Queue α).toList = [] from rfl) ops
  refine ⟨hlist.1, hlist.2, ?_, fun blank spare => ?_, run_perm {} ops, run_sublist {} ops⟩
  · rw [length_eq, hlist.2]
  · have hcells := run_simulates (R := Storage.Holds blank)
      (fun s q op h => h.step spare op)
      (show Storage.Holds blank .empty ({} : Queue α) from ⟨rfl, Storage.isClean_empty⟩) ops
    refine ⟨hcells.1.trans hlist.1, ?_, hcells.2.2⟩
    rw [hcells.2.1]
    exact hlist.2

end Queue

end MerlinBridge
