import Mathlib.Data.List.TakeWhile
import MerlinBridge.Disk

/-!
# Clean paths

A clean path is written from its components, and the components can be read back
(`components_render`), so that cleaning it again changes nothing (`clean_clean`).
The components that are kept on the way are names, behind a number of `..` that
only a relative path has (`Kept`).

A clean path is its directory, a slash and its base, unless the directory is `.`
or the root: there the directory is not written, or its slash is (`reported_eq_iff`).
-/

namespace MerlinBridge

namespace Bytes

theorem join_eq_intercalate (sep : Bytes) (cs : List Bytes) : join sep cs = sep.intercalate cs := by
  fun_induction join sep cs with
  | case1 => rfl
  | case2 b => simp
  | case3 b c rest ih => rw [List.intercalate_cons_cons, ih]

theorem split_eq_splitOn (sep : UInt8) (b : Bytes) : split sep b = b.splitOn sep := by
  induction b with
  | nil => rfl
  | cons x rest ih =>
      rw [split, List.splitOn, List.splitOnP_cons_eq_if_modifyHead, ih, ← List.splitOn]
      by_cases hx : x = sep
      · simp [hx]
      · simp only [hx, if_false, beq_iff_eq]
        cases hsplit : List.splitOn sep rest with
        | nil => exact absurd hsplit (List.splitOnP_ne_nil _ rest)
        | cons piece pieces => rfl

theorem split_join {sep : UInt8} {cs : List Bytes} (h : ∀ c ∈ cs, sep ∉ c) (hne : cs ≠ []) :
    split sep (join [sep] cs) = cs := by
  rw [split_eq_splitOn, join_eq_intercalate]
  exact List.splitOn_intercalate sep h hne

theorem split_append_cons (sep : UInt8) (a b : Bytes) :
    split sep (a ++ sep :: b) = split sep a ++ split sep b := by
  simp only [split_eq_splitOn]
  exact List.splitOnP_append_cons a b (by simp)

theorem notMem_of_mem_split {sep : UInt8} {b c : Bytes} (h : c ∈ split sep b) : sep ∉ c := by
  induction b generalizing c with
  | nil =>
      rw [List.mem_singleton.mp h]
      exact List.not_mem_nil
  | cons x rest ih =>
      rw [split] at h
      by_cases hx : x = sep
      · rcases List.mem_cons.mp (by simpa [hx] using h) with rfl | hc
        · exact List.not_mem_nil
        · exact ih hc
      · simp only [hx, if_false] at h
        cases hsplit : split sep rest with
        | nil =>
            rw [hsplit] at h
            rw [List.mem_singleton.mp h]
            simpa using fun heq => hx heq.symm
        | cons piece pieces =>
            rw [hsplit] at h ih
            rcases List.mem_cons.mp h with rfl | hc
            · rw [List.mem_cons, not_or]
              exact ⟨fun heq => hx heq.symm, ih List.mem_cons_self⟩
            · exact ih (List.mem_cons_of_mem piece hc)

theorem join_append_singleton (sep : Bytes) {cs : List Bytes} (h : cs ≠ []) (c : Bytes) :
    join sep (cs ++ [c]) = join sep cs ++ sep ++ c := by
  induction cs with
  | nil => exact absurd rfl h
  | cons b rest ih =>
      cases rest with
      | nil => rfl
      | cons d rest =>
          have htail := ih (by simp)
          simp only [List.cons_append] at htail ⊢
          rw [join_cons_cons, htail, join_cons_cons]
          simp

end Bytes

namespace Path

theorem text_slash : ("/" : Bytes) = [slash] := rfl

structure IsName (c : Bytes) : Prop where
  ne_nil : c ≠ []
  ne_dot : c ≠ "."
  ne_up : c ≠ ".."
  notMem : slash ∉ c

theorem addComponent_of_skip {rooted : Bool} {kept : List Bytes} {c : Bytes}
    (h : c = [] ∨ c = ".") : addComponent rooted kept c = kept := by
  simp [addComponent, h]

theorem addComponent_up_cons (rooted : Bool) (last : Bytes) (before : List Bytes) :
    addComponent rooted (last :: before) ".." =
      if last = ".." then (".." : Bytes) :: last :: before else before := rfl

theorem IsName.addComponent_eq {c : Bytes} (h : IsName c) (rooted : Bool) (kept : List Bytes) :
    addComponent rooted kept c = c :: kept := by
  simp [addComponent, h.ne_nil, h.ne_dot, h.ne_up]

/-- The components that are kept, last one first. Whatever is above a relative path
stands in front of all names. -/
inductive Kept (rooted : Bool) : List Bytes → Prop where
  | nil : Kept rooted []
  | name {c : Bytes} {kept : List Bytes} (isName : IsName c) (before : Kept rooted kept) :
      Kept rooted (c :: kept)
  | up {kept : List Bytes} (relative : rooted = false) (before : Kept rooted kept)
      (ups : ∀ c ∈ kept, c = (".." : Bytes)) : Kept rooted ((".." : Bytes) :: kept)

namespace Kept

variable {rooted : Bool} {kept : List Bytes}

theorem tail {c : Bytes} (h : Kept rooted (c :: kept)) : Kept rooted kept := by
  cases h with
  | name _ before => exact before
  | up _ before _ => exact before

theorem mem {c : Bytes} (h : Kept rooted kept) (hc : c ∈ kept) :
    c ≠ [] ∧ c ≠ "." ∧ slash ∉ c := by
  induction h with
  | nil => cases hc
  | name isName _ ih =>
      rcases List.mem_cons.mp hc with rfl | hc
      · exact ⟨isName.ne_nil, isName.ne_dot, isName.notMem⟩
      · exact ih hc
  | up _ _ _ ih =>
      rcases List.mem_cons.mp hc with rfl | hc
      · decide
      · exact ih hc

theorem addComponent (h : Kept rooted kept) {c : Bytes} (hc : slash ∉ c) :
    Kept rooted (addComponent rooted kept c) := by
  by_cases hskip : c = [] ∨ c = "."
  · rw [addComponent_of_skip hskip]
    exact h
  · by_cases hup : c = ".."
    · subst hup
      cases h with
      | nil =>
          cases rooted with
          | true => exact Kept.nil
          | false => exact Kept.up rfl Kept.nil (by simp)
      | name isName before =>
          rw [addComponent_up_cons, if_neg isName.ne_up]
          exact before
      | up relative before ups =>
          rw [addComponent_up_cons, if_pos rfl]
          refine Kept.up relative (Kept.up relative before ups) ?_
          intro d hd
          rcases List.mem_cons.mp hd with rfl | hd
          · rfl
          · exact ups d hd
    · have hname : IsName c := ⟨fun h => hskip (Or.inl h), fun h => hskip (Or.inr h), hup, hc⟩
      rw [hname.addComponent_eq]
      exact Kept.name hname h

theorem addComponent_eq {c : Bytes} (h : Kept rooted (c :: kept)) :
    Path.addComponent rooted kept c = c :: kept := by
  cases h with
  | name isName _ => exact isName.addComponent_eq rooted kept
  | up relative _ ups =>
      cases kept with
      | nil =>
          rw [relative]
          rfl
      | cons last before => rw [addComponent_up_cons, if_pos (ups last List.mem_cons_self)]

theorem foldl_eq (h : Kept rooted kept) :
    kept.reverse.foldl (Path.addComponent rooted) [] = kept := by
  induction kept with
  | nil => rfl
  | cons c kept ih =>
      rw [List.reverse_cons, List.foldl_append, ih h.tail]
      exact h.addComponent_eq

end Kept

theorem kept_foldl (rooted : Bool) {kept : List Bytes} (h : Kept rooted kept) {pieces : List Bytes}
    (hpieces : ∀ c ∈ pieces, slash ∉ c) :
    Kept rooted (pieces.foldl (addComponent rooted) kept) := by
  induction pieces generalizing kept with
  | nil => exact h
  | cons c pieces ih =>
      exact ih (h.addComponent (hpieces c List.mem_cons_self))
        fun d hd => hpieces d (List.mem_cons_of_mem c hd)

theorem kept_components (path : Bytes) : Kept (Disk.isRooted path) (components path).reverse := by
  unfold components
  rw [List.reverse_reverse]
  exact kept_foldl _ Kept.nil fun c hc => Bytes.notMem_of_mem_split hc

def render (rooted : Bool) (cs : List Bytes) : Bytes :=
  if rooted then "/" ++ Bytes.join "/" cs
  else if Bytes.join "/" cs = [] then "."
  else Bytes.join "/" cs

theorem clean_eq_render (path : Bytes) :
    clean path = render (Disk.isRooted path) (components path) := by
  simp [clean, render, Disk.isRooted]

theorem join_eq_nil {cs : List Bytes} (h : ∀ c ∈ cs, c ≠ []) :
    Bytes.join "/" cs = [] ↔ cs = [] := by
  cases cs with
  | nil => simp
  | cons c rest =>
      have hc : c ≠ [] := h c List.mem_cons_self
      cases rest with
      | nil => simpa using hc
      | cons d rest => simp [Bytes.join_cons_cons, hc]

theorem head?_join_ne {cs : List Bytes} (h : ∀ c ∈ cs, c ≠ [] ∧ slash ∉ c) :
    (Bytes.join "/" cs).head? ≠ some slash := by
  cases cs with
  | nil => simp
  | cons c rest =>
      obtain ⟨hc, hslash⟩ := h c List.mem_cons_self
      obtain ⟨x, c, rfl⟩ := List.exists_cons_of_ne_nil hc
      have hx : x ≠ slash := fun heq => hslash (by simp [heq])
      cases rest with
      | nil => simpa using hx
      | cons d rest => simpa [Bytes.join_cons_cons] using hx

theorem foldl_split_join {rooted : Bool} {cs : List Bytes} (h : Kept rooted cs.reverse) :
    (Bytes.split slash (Bytes.join "/" cs)).foldl (addComponent rooted) [] = cs.reverse := by
  by_cases hnil : cs = []
  · subst hnil
    rfl
  · have hslash : ∀ c ∈ cs, slash ∉ c := fun c hc => (h.mem (List.mem_reverse.mpr hc)).2.2
    rw [text_slash, Bytes.split_join hslash hnil]
    simpa using h.foldl_eq

/-- The components are read back from a path that was written from them. -/
theorem components_render {rooted : Bool} {cs : List Bytes} (h : Kept rooted cs.reverse) :
    Disk.isRooted (render rooted cs) = rooted ∧ components (render rooted cs) = cs := by
  have hparts : ∀ c ∈ cs, c ≠ [] ∧ slash ∉ c := by
    intro c hc
    have hmem := h.mem (List.mem_reverse.mpr hc)
    exact ⟨hmem.1, hmem.2.2⟩
  have hrooted : Disk.isRooted (render rooted cs) = rooted := by
    cases rooted with
    | true => simp [Disk.isRooted, render, text_slash]
    | false =>
        by_cases hbody : Bytes.join "/" cs = []
        · simp only [render, hbody]
          rfl
        · simp [Disk.isRooted, render, hbody, head?_join_ne hparts]
  refine ⟨hrooted, ?_⟩
  have hfold : (Bytes.split slash (render rooted cs)).foldl (addComponent rooted) [] =
      cs.reverse := by
    cases rooted with
    | true =>
        have hsplit : Bytes.split slash (render true cs) =
            [] :: Bytes.split slash (Bytes.join "/" cs) := by
          simp [render, text_slash, Bytes.split_cons_self]
        rw [hsplit, List.foldl_cons, addComponent_of_skip (Or.inl rfl)]
        exact foldl_split_join h
    | false =>
        by_cases hbody : Bytes.join "/" cs = []
        · have hcs : cs = [] := (join_eq_nil fun c hc => (hparts c hc).1).mp hbody
          subst hcs
          rfl
        · simpa [render, hbody] using foldl_split_join h
  have hhead : decide ((render rooted cs).head? = some slash) = rooted := hrooted
  rw [components, hhead, hfold, List.reverse_reverse]

theorem clean_render {rooted : Bool} {cs : List Bytes} (h : Kept rooted cs.reverse) :
    clean (render rooted cs) = render rooted cs := by
  obtain ⟨hrooted, hcomponents⟩ := components_render h
  rw [clean_eq_render, hrooted, hcomponents]

theorem clean_clean (path : Bytes) : clean (clean path) = clean path := by
  rw [clean_eq_render path]
  exact clean_render (kept_components path)

theorem clean_ne_nil (path : Bytes) : clean path ≠ [] := by
  rw [clean_eq_render, render]
  split
  · simp [text_slash]
  · split
    · decide
    · assumption

theorem clean_append_slash {path : Bytes} (h : path ≠ []) :
    clean (path ++ [slash]) = clean path := by
  obtain ⟨x, rest, rfl⟩ := List.exists_cons_of_ne_nil h
  have hrooted : Disk.isRooted (x :: rest ++ [slash]) = Disk.isRooted (x :: rest) := by
    simp [Disk.isRooted]
  have hsplit : Bytes.split slash (x :: rest ++ [slash]) =
      Bytes.split slash (x :: rest) ++ [[]] := Bytes.split_append_cons slash (x :: rest) []
  have hcomponents : components (x :: rest ++ [slash]) = components (x :: rest) := by
    unfold components
    rw [hsplit, List.foldl_append, List.foldl_cons, List.foldl_nil,
      addComponent_of_skip (Or.inl rfl)]
    rfl
  rw [clean_eq_render, clean_eq_render, hrooted, hcomponents]

/-! ## Directory and base -/

theorem ne_slash_of_mem_reverse {name : Bytes} (h : slash ∉ name) :
    ∀ x ∈ name.reverse, decide (x ≠ slash) = true := by
  intro x hx
  have hne : x ≠ slash := fun heq => h (heq ▸ List.mem_reverse.mp hx)
  simpa using hne

theorem dir_append {front name : Bytes} (h : slash ∉ name) :
    dir (front ++ slash :: name) = clean (front ++ [slash]) := by
  have hreverse : (front ++ slash :: name).reverse = name.reverse ++ slash :: front.reverse := by
    simp
  have hdrop : (front ++ slash :: name).reverse.dropWhile (· ≠ slash) = slash :: front.reverse := by
    rw [hreverse, List.dropWhile_append_of_pos (ne_slash_of_mem_reverse h)]
    simp
  rw [dir, hdrop]
  simp

theorem dir_of_notMem {name : Bytes} (h : slash ∉ name) : dir name = "." := by
  have hdrop : (name.reverse ++ []).dropWhile (· ≠ slash) = [] :=
    List.dropWhile_append_of_pos (ne_slash_of_mem_reverse h)
  rw [List.append_nil] at hdrop
  rw [dir, hdrop]
  rfl

theorem base_append {front name : Bytes} (h : slash ∉ name) (hne : name ≠ [])
    (hfront : front = [] ∨ front.getLast? = some slash) : base (front ++ name) = name := by
  have hreverse : (front ++ name).reverse = name.reverse ++ front.reverse := by simp
  have hbody : (front ++ name).reverse.dropWhile (· = slash) = name.reverse ++ front.reverse := by
    rw [hreverse]
    obtain ⟨x, rest, hx⟩ := List.exists_cons_of_ne_nil (List.reverse_ne_nil_iff.mpr hne)
    have hfirst := ne_slash_of_mem_reverse h x (by simp [hx])
    rw [hx, List.cons_append, List.dropWhile_cons_of_neg (by simpa using hfirst)]
  have hstop : front.reverse.takeWhile (· ≠ slash) = [] := by
    rcases hfront with rfl | hlast
    · rfl
    · obtain ⟨before, rfl⟩ := List.getLast?_eq_some_iff.mp hlast
      simp
  have hsome : front ++ name ≠ [] := by simp [hne]
  have hwhole : name.reverse ++ front.reverse ≠ [] := by simp [hne]
  rw [base, if_neg hsome]
  simp only [hbody, if_neg hwhole]
  rw [List.takeWhile_append_of_pos (ne_slash_of_mem_reverse h), hstop]
  simp

theorem render_append_singleton {rooted : Bool} {cs : List Bytes} (h : cs ≠ []) (c : Bytes)
    (hparts : ∀ b ∈ cs, b ≠ []) : render rooted (cs ++ [c]) = render rooted cs ++ slash :: c := by
  have hbody : Bytes.join "/" cs ≠ [] := mt (join_eq_nil hparts).mp h
  unfold render
  rw [Bytes.join_append_singleton "/" h c]
  cases rooted with
  | true => simp [text_slash]
  | false =>
      rw [text_slash] at hbody ⊢
      simp [hbody]

/-- The base of a clean path is its last component, and the directory is made of
the others. -/
theorem dir_base_render {rooted : Bool} {cs : List Bytes} {c : Bytes}
    (h : Kept rooted (c :: cs.reverse)) :
    dir (render rooted (cs ++ [c])) = render rooted cs ∧ base (render rooted (cs ++ [c])) = c := by
  obtain ⟨hc, -, hslash⟩ := h.mem List.mem_cons_self
  by_cases hcs : cs = []
  · subst hcs
    cases rooted with
    | true =>
        have hpath : render true ([] ++ [c]) = [slash] ++ c := by simp [render, text_slash]
        have hdir : dir ([] ++ slash :: c) = clean ([] ++ [slash]) := dir_append hslash
        rw [hpath]
        exact ⟨hdir, base_append hslash hc (Or.inr rfl)⟩
    | false =>
        have hpath : render false ([] ++ [c]) = [] ++ c := by simp [render, hc]
        rw [hpath]
        exact ⟨dir_of_notMem hslash, base_append hslash hc (Or.inl rfl)⟩
  · have hparts : ∀ b ∈ cs, b ≠ [] := fun b hb => (h.tail.mem (List.mem_reverse.mpr hb)).1
    have hne : render rooted cs ≠ [] := by
      rw [← clean_render h.tail]
      exact clean_ne_nil _
    have hpath : render rooted (cs ++ [c]) = (render rooted cs ++ [slash]) ++ c := by
      rw [render_append_singleton hcs c hparts]
      simp
    constructor
    · rw [render_append_singleton hcs c hparts, dir_append hslash, clean_append_slash hne,
        clean_render h.tail]
    · rw [hpath]
      exact base_append hslash hc (Or.inr (by simp))

/-- A clean path is the root or `.`, or it has a last component. -/
theorem clean_cases {path : Bytes} (h : clean path = path) :
    path = "/" ∨ path = "." ∨
      ∃ rooted cs c, Kept rooted (c :: cs.reverse) ∧ path = render rooted (cs ++ [c]) := by
  have hkept := kept_components path
  rw [clean_eq_render] at h
  rcases List.eq_nil_or_concat (components path) with hnil | ⟨cs, c, hcs⟩
  · rw [hnil] at h
    cases hrooted : Disk.isRooted path with
    | true => exact Or.inl (by rw [← h, hrooted]; rfl)
    | false => exact Or.inr (Or.inl (by rw [← h, hrooted]; rfl))
  · rw [List.concat_eq_append] at hcs
    rw [hcs] at h hkept
    exact Or.inr (Or.inr ⟨_, cs, c, by simpa using hkept, h.symm⟩)

/-- The base of a clean path other than the root is the name of a file. -/
theorem base_of_clean {path : Bytes} (h : clean path = path) (hroot : path ≠ "/") :
    slash ∉ base path ∧ base path ≠ [] := by
  rcases clean_cases h with rfl | rfl | ⟨rooted, cs, c, hkept, rfl⟩
  · exact absurd rfl hroot
  · decide
  · rw [(dir_base_render hkept).2]
    obtain ⟨hc, -, hslash⟩ := hkept.mem List.mem_cons_self
    exact ⟨hslash, hc⟩

/-! ## Files as a watch reports them -/

/-- The path under which a file is reported by a watch of its directory. -/
def reported (dir name : Bytes) : Bytes :=
  dir ++ "/" ++ name

theorem reported_eq (dir name : Bytes) : reported dir name = dir ++ slash :: name := by
  simp [reported, text_slash]

theorem base_reported (dir : Bytes) {name : Bytes} (h : slash ∉ name) (hne : name ≠ []) :
    base (reported dir name) = name :=
  base_append h hne (Or.inr (by simp [text_slash]))

/-- A file that a watch reports is in the directory that it watches. -/
theorem dir_reported (path : Bytes) {name : Bytes} (h : slash ∉ name) :
    dir (reported (dir path) name) = dir path := by
  have hdir : dir path ≠ [] := clean_ne_nil _
  rw [reported_eq, dir_append h, clean_append_slash hdir]
  exact clean_clean _

/-- A clean path is reported as it is written, unless its directory is `.` or the
root. -/
theorem reported_eq_iff {path : Bytes} (h : clean path = path) :
    reported (dir path) (base path) = path ↔ dir path ≠ "." ∧ dir path ≠ "/" := by
  rcases clean_cases h with rfl | rfl | ⟨rooted, cs, c, hkept, rfl⟩
  · decide
  · decide
  obtain ⟨hdir, hbase⟩ := dir_base_render hkept
  rw [hdir, hbase, reported_eq]
  by_cases hcs : cs = []
  · subst hcs
    refine iff_of_false ?_ ?_
    · intro hsame
      have hlength := congrArg List.length hsame
      have hc := (hkept.mem List.mem_cons_self).1
      cases rooted with
      | true => simp [render, text_slash] at hlength
      | false =>
          simp only [render, List.nil_append, Bytes.join_singleton, hc, List.length_append,
            List.length_cons, Bool.false_eq_true, if_false] at hlength
          omega
    · cases rooted <;> decide
  · have hparts : ∀ b ∈ cs, b ≠ [] := fun b hb => (hkept.tail.mem (List.mem_reverse.mpr hb)).1
    obtain ⟨-, hcomponents⟩ := components_render hkept.tail
    refine iff_of_true (render_append_singleton hcs c hparts).symm ⟨?_, ?_⟩
    · intro hdot
      rw [hdot] at hcomponents
      exact hcs hcomponents.symm
    · intro hroot
      rw [hroot] at hcomponents
      exact hcs hcomponents.symm

/-- Where a clean path is not reported as it is written, it is reported under a path
that is not clean. -/
theorem clean_reported_ne {path : Bytes} (h : clean path = path)
    (hdir : dir path = "." ∨ dir path = "/") :
    clean (reported (dir path) (base path)) ≠ reported (dir path) (base path) := by
  intro hclean
  by_cases hroot : path = "/"
  · subst hroot
    exact absurd hclean (by decide)
  · obtain ⟨hslash, hne⟩ := base_of_clean h hroot
    have hiff := reported_eq_iff hclean
    rw [dir_reported path hslash, base_reported (dir path) hslash hne] at hiff
    obtain ⟨hdot, hslashes⟩ := hiff.mp rfl
    exact hdir.elim hdot hslashes

end Path

end MerlinBridge
