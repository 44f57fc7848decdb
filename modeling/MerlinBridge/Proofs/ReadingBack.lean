import Mathlib.Data.List.DropRight
import MerlinBridge.Document.Identifier
import MerlinBridge.Proofs.Utf8Pieces

/-!
# Reading a byte string from its end

The last piece of a byte string can be found without reading what stands before it:
`decodeLast` looks at four bytes and gives the piece that reading from the start ends with
(`decodeLast_of_pieces`). Stray bytes and offsets in the middle of a character make no
difference, since what the first pieces were read from is read as these pieces when
it stands alone.

So the search for the start of an identifier takes the pieces of the bytes before the cursor
and drops the longest run of parts of an identifier from their end. `IsStart` says what
that means for the bytes.
-/

namespace MerlinBridge

namespace Utf8

theorem isStart_eq (b : UInt8) : isStart b = (tail? b).isNone := by
  rw [tail?_eq, Bool.eq_iff_iff]
  simp only [isStart, UInt8.lt_iff_toNat_lt, UInt8.le_iff_toNat_le, Bool.or_eq_true,
    decide_eq_true_eq]
  change b.toNat < 0x80 ∨ 0xC0 ≤ b.toNat ↔ _
  by_cases hcontinues : 0x80 ≤ b.toNat ∧ b.toNat ≤ 0xBF
  · rw [if_pos hcontinues]
    simp only [Option.isNone_some, Bool.false_eq_true, iff_false]
    omega
  · rw [if_neg hcontinues]
    simp only [Option.isNone_none, iff_true]
    omega

theorem length_ofChar_le (c : Char) : (Bytes.ofChar c).length ≤ 4 := by
  rw [ofChar_eq]
  split
  · simp
  split
  · simp
  split <;> simp

theorem decode?_append {a : Bytes} {p : Char × Nat} (h : decode? a = some p) (b : Bytes) :
    decode? (a ++ b) = some p := by
  obtain ⟨rest, rfl, hlength⟩ := eq_of_decode? h
  rw [List.append_assoc, decode?_ofChar_append, ← hlength]

/-- What the first pieces were read from is read as these pieces. -/
theorem pieces_flatMap_bytes {b : Bytes} {ps qs : List Piece} (h : pieces b = ps ++ qs) :
    pieces (ps.flatMap Piece.bytes) = ps := by
  induction b using read_induction generalizing ps with
  | nil =>
      rw [pieces] at h
      obtain ⟨rfl, -⟩ := List.append_eq_nil_iff.mp h.symm
      rw [List.flatMap_nil, pieces]
  | char c rest ih =>
      cases ps with
      | nil => rw [List.flatMap_nil, pieces]
      | cons p ps =>
          rw [pieces_ofChar_append, List.cons_append, List.cons.injEq] at h
          obtain ⟨rfl, hrest⟩ := h
          rw [List.flatMap_cons, Piece.bytes, pieces_ofChar_append, ih hrest]
  | stray x rest hstray ih =>
      cases ps with
      | nil => rw [List.flatMap_nil, pieces]
      | cons p ps =>
          rw [pieces_of_decode?_eq_none hstray, List.cons_append, List.cons.injEq] at h
          obtain ⟨rfl, hrest⟩ := h
          have hwhole : rest = ps.flatMap Piece.bytes ++ qs.flatMap Piece.bytes := by
            rw [← List.flatMap_append, ← hrest, flatMap_bytes_pieces]
          have hfront : decode? (x :: ps.flatMap Piece.bytes) = none := by
            rw [Option.eq_none_iff_forall_ne_some]
            intro p hp
            have happend := decode?_append hp (qs.flatMap Piece.bytes)
            rw [List.cons_append, ← hwhole, hstray] at happend
            cases happend
          rw [List.flatMap_cons, Piece.bytes, List.singleton_append,
            pieces_of_decode?_eq_none hfront, ih hrest]

theorem pieces_append_ofChar (a : Bytes) (c : Char) :
    pieces (a ++ Bytes.ofChar c) = pieces a ++ [.char c] := by
  have happend := pieces_append_ofChars a [c]
  rwa [Bytes.ofChars, List.flatMap_singleton] at happend

theorem decodeLast_ofChar_append (c : Char) (rest : Bytes) :
    decodeLast ((Bytes.ofChar c).reverse ++ rest) = some (.char c, (Bytes.ofChar c).length) := by
  obtain ⟨lead, tails, hchar, hlead, htails⟩ := exists_ofChar_eq_cons c
  have hlength := length_ofChar_le c
  rw [hchar, List.length_cons] at hlength
  have hreverse : (Bytes.ofChar c).reverse = tails.reverse ++ [lead] := by
    rw [hchar, List.reverse_cons]
  -- Behind the byte that starts it, a character has at most three bytes, and none starts one.
  have hback : (((Bytes.ofChar c).reverse ++ rest).take 4).findIdx isStart = tails.length := by
    have hnone : tails.reverse.findIdx isStart = tails.reverse.length := by
      rw [List.findIdx_eq_length]
      intro x hx
      have hsome := htails x (List.mem_reverse.mp hx)
      rw [isStart_eq, ← Option.not_isSome, hsome]
      rfl
    have hfirst : isStart lead = true := by rw [isStart_eq, hlead]; rfl
    rw [hreverse, List.append_assoc, List.take_append, List.take_of_length_le (by simp; omega),
      List.singleton_append, List.take_cons (by simp; omega), List.findIdx_append, hnone,
      if_neg (Nat.lt_irrefl _), List.findIdx_cons, hfirst]
    simp
  have htake : ((Bytes.ofChar c).reverse ++ rest).take (tails.length + 1) =
      (Bytes.ofChar c).reverse := by
    rw [List.take_append_of_le_length (by simp [hchar]), List.take_of_length_le (by simp [hchar])]
  have hread := decode?_ofChar_append c []
  rw [List.append_nil] at hread
  obtain ⟨x, others, hx⟩ := List.exists_cons_of_ne_nil
    (show (Bytes.ofChar c).reverse ++ rest ≠ [] by simp [hreverse])
  rw [hx] at hback htake ⊢
  simp only [decodeLast, hback, htake, List.reverse_reverse, hread]
  rw [if_pos (by rw [hchar, List.length_cons])]

/-- The search from the end finds the piece that reading ends with. -/
theorem decodeLast_of_pieces {b : Bytes} {ps : List Piece} {p : Piece}
    (h : pieces b = ps ++ [p]) : decodeLast b.reverse = some (p, p.bytes.length) := by
  have hb : b = ps.flatMap Piece.bytes ++ p.bytes := by
    rw [← flatMap_bytes_pieces b, h, List.flatMap_append, List.flatMap_singleton]
  cases p with
  | char c =>
      rw [hb, List.reverse_append]
      exact decodeLast_ofChar_append c _
  | stray x =>
      have hreverse : b.reverse = x :: (ps.flatMap Piece.bytes).reverse := by
        rw [hb, List.reverse_append]
        rfl
      rw [hreverse, decodeLast]
      generalize hback : ((x :: (ps.flatMap Piece.bytes).reverse).take 4).findIdx isStart = back
      rw [← hreverse]
      split
      · rename_i c n hread
        split
        · rename_i hn
          obtain ⟨rest, heq, hlength⟩ := eq_of_decode? hread
          have hrest : rest = [] := by
            have hle := congrArg List.length heq
            rw [List.length_reverse, List.length_append, List.length_take] at hle
            exact List.eq_nil_of_length_eq_zero (by omega)
          have hend : b = (b.reverse.drop (back + 1)).reverse ++ Bytes.ofChar c := by
            rw [hrest, List.append_nil] at heq
            rw [← heq, ← List.reverse_append, List.take_append_drop, List.reverse_reverse]
          rw [hend, pieces_append_ofChar] at h
          cases (List.append_inj' h rfl).2
        · rfl
      · rfl

theorem Piece.length_bytes_pos (p : Piece) : 0 < p.bytes.length := by
  cases p with
  | char c =>
      obtain ⟨lead, tails, hchar, -⟩ := exists_ofChar_eq_cons c
      simp [bytes, hchar]
  | stray x => exact Nat.one_pos

/-- Pieces of which the replacement character would not be one are characters. -/
theorem exists_map_char_of_all {part : Char → Bool} (h : part Piece.replacement = false)
    {ps : List Piece} (hps : ∀ p ∈ ps, part p.toChar = true) :
    ∃ cs : List Char, (∀ c ∈ cs, part c = true) ∧ ps = cs.map .char := by
  induction ps with
  | nil => exact ⟨[], by simp, rfl⟩
  | cons p ps ih =>
      obtain ⟨hp, hps⟩ := List.forall_mem_cons.mp hps
      obtain ⟨cs, hcs, rfl⟩ := ih hps
      cases p with
      | char c => exact ⟨c :: cs, List.forall_mem_cons.mpr ⟨hp, hcs⟩, rfl⟩
      | stray x =>
          rw [Piece.toChar, h] at hp
          cases hp

theorem flatMap_map_char (cs : List Char) :
    (cs.map Piece.char).flatMap Piece.bytes = Bytes.ofChars cs := by
  rw [List.flatMap_map]
  rfl

end Utf8

namespace Identifier

open Utf8

variable {part : Char → Bool}

def Spells (part : Char → Bool) (word : Bytes) : Prop :=
  ∃ cs : List Char, word = Bytes.ofChars cs ∧ ∀ c ∈ cs, part c = true

theorem Spells.pieces_eq {word : Bytes} (h : Spells part word) :
    ∃ cs : List Char, pieces word = cs.map .char ∧ ∀ c ∈ cs, part c = true := by
  obtain ⟨cs, rfl, hcs⟩ := h
  have happend := pieces_ofChars_append cs []
  rw [List.append_nil, pieces, List.append_nil] at happend
  exact ⟨cs, happend, hcs⟩

theorem Spells.valid {word : Bytes} (h : Spells part word) : Utf8.valid word = true := by
  obtain ⟨cs, hpieces, -⟩ := h.pieces_eq
  rw [Utf8.valid, hpieces, List.all_map, List.all_eq_true]
  exact fun _ _ => rfl

/-- The longest run of characters of the kind `part` at the end of `b` starts at `p`. -/
structure IsStart (part : Char → Bool) (b : Bytes) (p : Nat) : Prop where
  le : p ≤ b.length
  spells : Spells part (b.drop p)
  /-- In front of it stands nothing, or a character or a stray byte that ends the run. -/
  stop : p = 0 ∨ ∃ q, (pieces (b.take p)).getLast? = some q ∧ part q.toChar = false
  least : ∀ k, k ≤ b.length → Spells part (b.drop k) → p ≤ k

/-- What is left of the pieces of `b` when the run at their end is dropped. -/
def left (part : Char → Bool) (b : Bytes) : List Piece :=
  (pieces b).rdropWhile fun q => part q.toChar

theorem lengthBefore_reverse (part : Char → Bool) (b : Bytes) :
    lengthBefore part b.reverse = ((left part b).flatMap Piece.bytes).length := by
  unfold left
  induction hps : pieces b using List.reverseRecOn generalizing b with
  | nil =>
      rw [← flatMap_bytes_pieces b, hps]
      simp [lengthBefore]
  | append_singleton ps p ih =>
      have hb : b = ps.flatMap Piece.bytes ++ p.bytes := by
        rw [← flatMap_bytes_pieces b, hps, List.flatMap_append, List.flatMap_singleton]
      have hlast := decodeLast_of_pieces hps
      cases hreverse : b.reverse with
      | nil =>
          rw [hreverse] at hlast
          cases hlast
      | cons x rest =>
          rw [hreverse] at hlast
          have hrest : rest.drop (p.bytes.length - 1) = (ps.flatMap Piece.bytes).reverse := by
            have hdrop : (x :: rest).drop p.bytes.length = (ps.flatMap Piece.bytes).reverse := by
              rw [← hreverse, hb, List.reverse_append, List.drop_left' (List.length_reverse)]
            rwa [← Nat.sub_add_cancel p.length_bytes_pos, List.drop_succ_cons] at hdrop
          rw [lengthBefore, hlast]
          dsimp only
          split
          · rename_i hpart
            rw [hrest, List.rdropWhile_concat_pos (fun q => part q.toChar) ps p hpart,
              ih _ (pieces_flatMap_bytes hps)]
          · rename_i hpart
            have hlength := congrArg List.length hreverse
            rw [List.length_reverse, List.length_cons] at hlength
            rw [List.rdropWhile_concat_neg (fun q => part q.toChar) ps p hpart, ← hps,
              flatMap_bytes_pieces, hlength]

theorem pieces_eq_left_append (part : Char → Bool) (b : Bytes) :
    pieces b = left part b ++ (pieces b).rtakeWhile fun q => part q.toChar :=
  List.rdropWhile_append_rtakeWhile.symm

theorem left_flatMap_bytes_isPrefix (part : Char → Bool) (b : Bytes) :
    (left part b).flatMap Piece.bytes <+: b := by
  refine ⟨((pieces b).rtakeWhile fun q => part q.toChar).flatMap Piece.bytes, ?_⟩
  rw [← List.flatMap_append, ← pieces_eq_left_append, flatMap_bytes_pieces]

theorem take_lengthBefore (part : Char → Bool) (b : Bytes) :
    b.take (lengthBefore part b.reverse) = (left part b).flatMap Piece.bytes := by
  rw [lengthBefore_reverse]
  exact (List.prefix_iff_eq_take.mp (left_flatMap_bytes_isPrefix part b)).symm

/-- Characters of the kind `part` at the end belong to the run. -/
theorem left_append_ofChars (a : Bytes) {cs : List Char} (h : ∀ c ∈ cs, part c = true) :
    left part (a ++ Bytes.ofChars cs) = left part a := by
  have hrun : ∀ q ∈ (cs.map Piece.char).reverse, part q.toChar = true := by
    intro q hq
    obtain ⟨c, hc, rfl⟩ := List.mem_map.mp (List.mem_reverse.mp hq)
    exact h c hc
  rw [left, pieces_append_ofChars, List.rdropWhile, List.reverse_append,
    List.dropWhile_append_of_pos hrun]
  rfl

/-- The search finds the start of the run, if a stray byte cannot be part of it. -/
theorem isStart_lengthBefore (h : part Piece.replacement = false) (b : Bytes) :
    IsStart part b (lengthBefore part b.reverse) := by
  have htake := take_lengthBefore part b
  refine ⟨?_, ?_, ?_, ?_⟩
  · rw [lengthBefore_reverse]
    exact (left_flatMap_bytes_isPrefix part b).length_le
  · have hall : ∀ q ∈ (pieces b).rtakeWhile (fun q => part q.toChar), part q.toChar = true :=
      fun q hq => List.mem_rtakeWhile_imp (p := fun q : Piece => part q.toChar) hq
    obtain ⟨cs, hcs, hrun⟩ := exists_map_char_of_all h hall
    refine ⟨cs, ?_, hcs⟩
    have hb := flatMap_bytes_pieces b
    rw [pieces_eq_left_append part b, List.flatMap_append, hrun, flatMap_map_char, ← htake] at hb
    conv_rhs at hb => rw [← List.take_append_drop (lengthBefore part b.reverse) b]
    exact (List.append_cancel_left hb).symm
  · rw [htake, pieces_flatMap_bytes (pieces_eq_left_append part b)]
    by_cases hnil : left part b = []
    · exact Or.inl (by rw [lengthBefore_reverse, hnil]; rfl)
    · refine Or.inr ⟨(left part b).getLast hnil, List.getLast?_eq_some_getLast hnil, ?_⟩
      rw [← Bool.not_eq_true]
      exact List.rdropWhile_last_not _ _ hnil
  · rintro k hk ⟨ds, hdrop, hds⟩
    have hle := (left_flatMap_bytes_isPrefix part (b.take k)).length_le
    rw [← left_append_ofChars (b.take k) hds, ← hdrop, List.take_append_drop,
      ← lengthBefore_reverse, List.length_take] at hle
    exact Nat.le_trans hle (Nat.min_le_left _ _)

/-- There is no run in front of the start of the run. -/
theorem lengthBefore_take (part : Char → Bool) (b : Bytes) :
    lengthBefore part (b.take (lengthBefore part b.reverse)).reverse =
      lengthBefore part b.reverse := by
  have hleft : left part ((left part b).flatMap Piece.bytes) = left part b := by
    rw [left, pieces_flatMap_bytes (pieces_eq_left_append part b)]
    exact List.rdropWhile_idempotent _ _
  rw [take_lengthBefore, lengthBefore_reverse, hleft, lengthBefore_reverse]

end Identifier

end MerlinBridge
