import Mathlib.Data.List.Basic
import MerlinBridge.Json.Parser
import MerlinBridge.Tool.Invocation

/-!
# Replies that are read in pieces

The output of the tool comes in reads of any size up to that of the buffer, and
where one read stops and the next one starts is not up to the tool. The reply is
complete with the first read that ends in a newline, so what is taken for the
reply depends on the reads and not on the output alone: it is the output up to
the end of that read (`collect_eq`).

A reply on one line has its only newline at its end, and is whole however it is
read. A reply with newlines inside is whole exactly when no read but the last
stops at one of them.
-/

namespace MerlinBridge

namespace Tool

def endsLine (r : Bytes) : Bool :=
  r.getLast? = some Bytes.newline

/-- The output comes in these reads. None of them is empty, and none is larger
than the buffer. -/
structure ReadAs (output : Bytes) (reads : List Bytes) : Prop where
  flatten : reads.flatten = output
  block : ∀ r ∈ reads, r ≠ [] ∧ r.length ≤ blockSize

instance (output : Bytes) (reads : List Bytes) : Decidable (ReadAs output reads) :=
  decidable_of_iff (reads.flatten = output ∧ ∀ r ∈ reads, r ≠ [] ∧ r.length ≤ blockSize)
    ⟨fun h => ⟨h.1, h.2⟩, fun h => ⟨h.flatten, h.block⟩⟩

theorem collect_cons_of_endsLine {r : Bytes} (h : endsLine r = true) (rest : List Bytes) :
    collect (r :: rest) = (r, true) := by
  have hnewline : r.getLast? = some Bytes.newline := by simpa [endsLine] using h
  simp [collect, hnewline]

theorem collect_cons_of_not_endsLine {r : Bytes} (h : endsLine r = false) (rest : List Bytes) :
    collect (r :: rest) = (r ++ (collect rest).1, (collect rest).2) := by
  have hnewline : ¬ r.getLast? = some Bytes.newline := by simpa [endsLine] using h
  simp [collect, hnewline]

/-- Reads are taken together up to the first one that ends in a newline. -/
theorem collect_eq {front : List Bytes} (hfront : ∀ r ∈ front, endsLine r = false) {last : Bytes}
    (hlast : endsLine last = true) (rest : List Bytes) :
    collect (front ++ last :: rest) = (front.flatten ++ last, true) := by
  induction front with
  | nil => exact collect_cons_of_endsLine hlast rest
  | cons r front ih =>
      have htail := ih fun s hs => hfront s (List.mem_cons_of_mem r hs)
      rw [List.cons_append, collect_cons_of_not_endsLine (hfront r List.mem_cons_self), htail,
        List.flatten_cons, List.append_assoc]

/-- Where some read ends in a newline, there is a first one. -/
theorem exists_first_endsLine {reads : List Bytes} (h : ∃ r ∈ reads, endsLine r = true) :
    ∃ front last rest, reads = front ++ last :: rest ∧
      (∀ r ∈ front, endsLine r = false) ∧ endsLine last = true := by
  obtain ⟨last, hfind⟩ := Option.isSome_iff_exists.mp (List.find?_isSome.mpr h)
  obtain ⟨hlast, front, rest, hsplit, hfront⟩ := List.find?_eq_some_iff_append.mp hfind
  exact ⟨front, last, rest, hsplit, by simpa using hfront, hlast⟩

namespace ReadAs

variable {text : Bytes} {reads : List Bytes}

/-- Where the output ends in a newline, so does the last read. -/
theorem exists_last (h : ReadAs (text ++ [Bytes.newline]) reads) :
    ∃ front last, reads = front ++ [last] ∧ endsLine last = true := by
  rcases List.eq_nil_or_concat reads with rfl | ⟨front, last, rfl⟩
  · exact absurd h.flatten (by simp)
  · rw [List.concat_eq_append] at h ⊢
    refine ⟨front, last, rfl, ?_⟩
    have hne : last ≠ [] := (h.block last (by simp)).1
    have hend := congrArg List.getLast? h.flatten
    rw [List.flatten_append, List.flatten_singleton, List.getLast?_append_of_ne_nil _ hne,
      List.getLast?_concat] at hend
    simp [endsLine, hend]

/-- Some read completes the reply, and what has been read by then is the whole
output if and only if it is the last one. -/
theorem collect_iff (h : ReadAs (text ++ [Bytes.newline]) reads) :
    (collect reads).2 = true ∧
      ((collect reads).1 = text ++ [Bytes.newline] ↔
        ∀ r ∈ reads.dropLast, endsLine r = false) := by
  obtain ⟨before, final, hreads, hfinal⟩ := h.exists_last
  have hsome : ∃ r ∈ reads, endsLine r = true := ⟨final, by simp [hreads], hfinal⟩
  obtain ⟨front, last, rest, hsplit, hfront, hlast⟩ := exists_first_endsLine hsome
  have hcollect : collect reads = (front.flatten ++ last, true) := by
    rw [hsplit]
    exact collect_eq hfront hlast rest
  have hwhole : text ++ [Bytes.newline] = front.flatten ++ last ++ rest.flatten := by
    rw [← h.flatten, hsplit]
    simp
  rw [hcollect]
  refine ⟨rfl, ?_⟩
  rw [hwhole]
  cases rest with
  | nil => simpa [hsplit] using hfront
  | cons next rest =>
      have hnext : next ≠ [] := (h.block next (by simp [hsplit])).1
      have hearly : last ∈ reads.dropLast := by
        rw [hsplit, List.dropLast_append_of_ne_nil (by simp)]
        simp
      constructor
      · intro hshort
        have hlength := congrArg List.length hshort
        simp [hnext] at hlength
      · intro hnone
        rw [hnone last hearly] at hlast
        cases hlast

/-- If the text has no newline in it, only the last read can end in one. -/
theorem not_endsLine_of_oneLine (h : ReadAs (text ++ [Bytes.newline]) reads)
    (oneLine : Bytes.newline ∉ text) : ∀ r ∈ reads.dropLast, endsLine r = false := by
  obtain ⟨front, last, rfl, hlast⟩ := h.exists_last
  intro r hr
  rw [List.dropLast_concat] at hr
  have hnewline : last.getLast? = some Bytes.newline := by simpa [endsLine] using hlast
  obtain ⟨line, rfl⟩ := List.getLast?_eq_some_iff.mp hnewline
  have htext : front.flatten ++ line = text := by
    have hflatten := h.flatten
    rw [List.flatten_append, List.flatten_singleton, ← List.append_assoc] at hflatten
    exact List.append_cancel_right hflatten
  rw [endsLine, decide_eq_false_iff_not]
  intro hend
  apply oneLine
  rw [← htext]
  exact List.mem_append_left _ (List.mem_flatten_of_mem hr (List.mem_of_getLast? hend))

end ReadAs

/-- A reply that ends in a newline, from a tool that exits with the status zero, is
complete however it is read, and without a fault. It is whole, as the tool has
written it, exactly if no read but the last ends in a newline; a text on one line
therefore is whole however it is read. -/
theorem reply_whole_iff (s : Setup) (text : Bytes) (reads : List Bytes)
    (h : ReadAs (text ++ [Bytes.newline]) reads) (ending : Ending) (stderr : Bytes) :
    let o := communicate s reads ending (.status 0) stderr
    o.fault = none ∧
    (o.output = text ++ [Bytes.newline] ↔ ∀ r ∈ reads.dropLast, endsLine r = false) ∧
    (Bytes.newline ∉ text → o.output = text ++ [Bytes.newline]) := by
  obtain ⟨hcomplete, hwhole⟩ := h.collect_iff
  have houtcome : communicate s reads ending (.status 0) stderr =
      ⟨(collect reads).1, none, []⟩ := by
    simp [communicate, hcomplete, retire, exitFault?]
  rw [houtcome]
  exact ⟨rfl, hwhole, fun oneLine => hwhole.mpr (h.not_endsLine_of_oneLine oneLine)⟩

def twoLines : Bytes :=
  "\x7b\"class\":\"return\",\n\"value\":[]\x7d"

/-- It is whole if the first read stops in the middle of a line. -/
theorem reply_whole_of_twoLines :
    let reads : List Bytes := ["\x7b\"class\":\"return\",\n\"val", "ue\":[]\x7d\n"]
    ReadAs (twoLines ++ [Bytes.newline]) reads ∧
      (communicate { path := "ocamlmerlin" } reads .endOfFile (.status 0) []).output =
        twoLines ++ [Bytes.newline] := by
  have hreads : ReadAs (twoLines ++ [Bytes.newline])
      ["\x7b\"class\":\"return\",\n\"val", "ue\":[]\x7d\n"] := by decide
  refine ⟨hreads, ?_⟩
  exact (reply_whole_iff { path := "ocamlmerlin" } twoLines _ hreads .endOfFile []).2.1.mpr (by decide)

/-- If the first read stops after the first line, that line is taken for the
reply, although the two lines together are one JSON value. -/
theorem reply_cut_at_inner_newline :
    let reads : List Bytes := ["\x7b\"class\":\"return\",\n", "\"value\":[]\x7d\n"]
    let o := communicate { path := "ocamlmerlin" } reads .endOfFile (.status 0) []
    (Json.parse? twoLines).isSome = true ∧ ReadAs (twoLines ++ [Bytes.newline]) reads ∧
      o.output = "\x7b\"class\":\"return\",\n" ∧ o.output ≠ twoLines ++ [Bytes.newline] := by
  decide +kernel

end Tool

end MerlinBridge
