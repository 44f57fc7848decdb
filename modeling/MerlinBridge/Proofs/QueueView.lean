import MerlinBridge.Queue

/-!
# The queue as a list

Every operation of a queue is described here through `Queue.toList`. Removal
works in place on an array, with a read index that runs ahead of a write index;
its list form is `picked p i l`, the items of `l` that satisfy `p` at their own
index, where the index is carried along explicitly. It is tied to the array loop
in `compact_eq`, and `toList_remove` and `remove_snd` give the form that the
dispatcher needs: the head is kept aside or not, and the others are filtered.
-/

namespace MerlinBridge

namespace Queue

variable {α : Type}

theorem length_eq (q : Queue α) : q.length = q.toList.length := by
  simp [length, toList]

@[simp] theorem toList_pop (q : Queue α) : q.pop.toList = q.toList.tail := by
  simp [pop, toList, ← List.drop_one, List.take_of_length_le]

theorem toList_eq_nil_of_peek? (q : Queue α) (h : q.peek? = none) : q.toList = [] := by
  rw [peek?_eq_head?] at h
  exact List.head?_eq_none_iff.mp h

theorem toList_eq_cons_of_peek? (q : Queue α) {a : α} (h : q.peek? = some a) :
    q.toList = a :: q.pop.toList := by
  rw [peek?_eq_head?] at h
  obtain ⟨l, hl⟩ := List.head?_eq_some_iff.mp h
  rw [toList_pop, hl, List.tail_cons]

theorem peek?_of_toList_eq_cons (q : Queue α) {a : α} {l : List α} (h : q.toList = a :: l) :
    q.peek? = some a := by
  rw [peek?_eq_head?, h, List.head?_cons]

/-- Whoever comes last does not become the head of a queue that has one. -/
theorem peek?_append (q : Queue α) {a : α} (b : α) (h : q.peek? = some a) :
    (q.append b).peek? = some a := by
  apply peek?_of_toList_eq_cons
  rw [toList_append, toList_eq_cons_of_peek? q h, List.cons_append]

/-- The items of a list that satisfy `p` at their index, where the first one has
the index `i`. -/
def picked (p : Nat → α → Bool) : Nat → List α → List α
  | _, [] => []
  | i, a :: l => if p i a then a :: picked p (i + 1) l else picked p (i + 1) l

/-- Where the index does not matter from `i` on, picking is filtering. -/
theorem picked_eq_filter (p : Nat → α → Bool) (f : α → Bool) (i : Nat) (l : List α)
    (h : ∀ j a, i ≤ j → p j a = f a) : picked p i l = l.filter f := by
  induction l generalizing i with
  | nil => rfl
  | cons a l ih =>
      have htail : picked p (i + 1) l = l.filter f :=
        ih (i + 1) fun j b hj => h j b (Nat.le_of_succ_le hj)
      simp only [picked, List.filter_cons, htail, h i a (Nat.le_refl i)]

/-- The loop of a removal, from the read index `i` and the write index `kept`
on: what lies below the write index is never written again, and what lies above
the read index has not been touched yet. -/
theorem compact_eq (gone : Nat → α → Bool) (work : Array α) (i kept : Nat)
    (removed : Array α) (h : kept ≤ i) :
    (compact gone work i kept removed).1.toList =
        work.toList.take kept ++ picked (fun i a => !gone i a) i (work.toList.drop i) ∧
      (compact gone work i kept removed).2.toList =
        removed.toList ++ picked gone i (work.toList.drop i) := by
  fun_induction compact gone work i kept removed with
  | case1 work i kept removed hi item hgone ih =>
      have hdrop : work.toList.drop i = item :: work.toList.drop (i + 1) := by
        simp [item, List.drop_eq_getElem_cons, hi]
      obtain ⟨hstay, hleave⟩ := ih (Nat.le_succ_of_le h)
      rw [hstay, hleave, hdrop]
      simp [picked, hgone]
  | case2 work i kept removed hi item hgone ih =>
      have hdrop : work.toList.drop i = item :: work.toList.drop (i + 1) := by
        simp [item, List.drop_eq_getElem_cons, hi]
      have hkept : kept < (work.toList.set kept item).length := by
        simp only [List.length_set, Array.length_toList]
        omega
      have hwritten : (work.toList.set kept item).take (kept + 1) =
          work.toList.take kept ++ [item] := by
        rw [List.take_succ_eq_append_getElem hkept, List.take_set_of_le (Nat.le_refl kept),
          List.getElem_set_self]
      have hunread : (work.toList.set kept item).drop (i + 1) = work.toList.drop (i + 1) :=
        List.drop_set_of_lt (by omega)
      obtain ⟨hstay, hleave⟩ := ih (Nat.succ_le_succ h)
      rw [hstay, hleave, hdrop]
      simp only [Array.toList_setIfInBounds, hwritten, hunread]
      simp [picked, hgone]
  | case3 work i kept removed hi =>
      have hdrop : work.toList.drop i = [] := by
        simp only [List.drop_eq_nil_iff, Array.length_toList]
        omega
      simp [hdrop, picked]

def reserved (keepHead : Bool) : Nat :=
  if keepHead then 1 else 0

/-- Removal leaves the reserved head and, of the others, those not in `drop`. -/
theorem toList_remove (q : Queue α) (keepHead : Bool) (drop : α → Bool) :
    (q.remove keepHead drop).1.toList =
      q.toList.take (reserved keepHead) ++
        (q.toList.drop (reserved keepHead)).filter fun a => !drop a := by
  obtain ⟨hstay, -⟩ :=
    compact_eq (fun i a => (0 < i || !keepHead) && drop a) q.work 0 0 #[] (Nat.le_refl 0)
  change (compact _ q.work 0 0 #[]).1.toList = _
  rw [hstay]
  change [] ++ picked _ 0 q.toList = _
  cases q.toList with
  | nil => simp [picked]
  | cons a l =>
      have htail : picked (fun i a => !((0 < i || !keepHead) && drop a)) 1 l =
          l.filter fun a => !drop a := by
        apply picked_eq_filter
        intro j b hj
        simp [Nat.lt_of_lt_of_le Nat.zero_lt_one hj]
      simp only [picked, htail]
      cases keepHead <;> by_cases ha : drop a = true <;> simp [reserved, ha]

theorem remove_snd (q : Queue α) (keepHead : Bool) (drop : α → Bool) :
    (q.remove keepHead drop).2 = (q.toList.drop (reserved keepHead)).filter drop := by
  obtain ⟨-, hleave⟩ :=
    compact_eq (fun i a => (0 < i || !keepHead) && drop a) q.work 0 0 #[] (Nat.le_refl 0)
  change (compact _ q.work 0 0 #[]).2.toList = _
  rw [hleave]
  change [] ++ picked _ 0 q.toList = _
  cases q.toList with
  | nil => simp [picked]
  | cons a l =>
      have htail : picked (fun i a => (0 < i || !keepHead) && drop a) 1 l = l.filter drop := by
        apply picked_eq_filter
        intro j b hj
        simp [Nat.lt_of_lt_of_le Nat.zero_lt_one hj]
      simp only [picked, htail]
      cases keepHead <;> by_cases ha : drop a = true <;> simp [reserved, ha]

/-- What stays after a removal was there before, in the same order. -/
theorem toList_remove_sublist (q : Queue α) (keepHead : Bool) (drop : α → Bool) :
    (q.remove keepHead drop).1.toList.Sublist q.toList := by
  rw [toList_remove]
  have hrest : ((q.toList.drop (reserved keepHead)).filter fun a => !drop a).Sublist
      (q.toList.drop (reserved keepHead)) := List.filter_sublist
  have hall := (List.Sublist.refl (q.toList.take (reserved keepHead))).append hrest
  rwa [List.take_append_drop] at hall

theorem remove_perm (q : Queue α) (keepHead : Bool) (drop : α → Bool) :
    ((q.remove keepHead drop).2 ++ (q.remove keepHead drop).1.toList).Perm q.toList := by
  rw [toList_remove, remove_snd]
  have hrest := List.filter_append_perm drop (q.toList.drop (reserved keepHead))
  have hall := hrest.append_left (q.toList.take (reserved keepHead))
  rw [List.take_append_drop] at hall
  refine List.Perm.trans ?_ hall
  rw [← List.append_assoc, ← List.append_assoc]
  exact List.perm_append_comm.append_right _

theorem peek?_remove_true (q : Queue α) (drop : α → Bool) {a : α} (h : q.peek? = some a) :
    (q.remove true drop).1.peek? = some a := by
  apply peek?_of_toList_eq_cons
  rw [toList_remove, toList_eq_cons_of_peek? q h]
  rfl

theorem toList_remove_all (q : Queue α) :
    (q.remove false fun _ => true).1.toList = [] := by
  simp [toList_remove, reserved]

theorem remove_all_snd (q : Queue α) : (q.remove false fun _ => true).2 = q.toList := by
  simp [remove_snd, reserved]

end Queue

end MerlinBridge
