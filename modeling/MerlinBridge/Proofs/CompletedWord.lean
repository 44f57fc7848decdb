import MerlinBridge.Proofs.ReadingBack
import MerlinBridge.Proofs.SoleRequest
import MerlinBridge.Proofs.SpanRanges

/-!
# The word that is completed

A completion asks about the identifier that ends at the cursor. It is the longest run of
letters, digits, underscores and apostrophes there, whatever the bytes of the document are, as
long as the replacement character, which stands for a stray byte, is no letter and no digit.
A newline is neither, so that the word of the complete command stands on the line of its place.
-/

namespace MerlinBridge

open Bytes (newline)

theorem Bytes.eq_newline_of_mem_ofChar {c : Char} (h : newline ∈ ofChar c) : c = '\n' := by
  obtain ⟨lead, tails, hchar, -, htails⟩ := Utf8.exists_ofChar_eq_cons c
  rw [hchar] at h
  rcases List.mem_cons.mp h with rfl | htail
  · have hread := Utf8.decode?_ofChar_append c []
    have hnewline : Utf8.decode? (newline :: (tails ++ [])) = some ('\n', 1) := rfl
    rw [hchar, List.cons_append, hnewline] at hread
    exact (Prod.mk.inj (Option.some.inj hread)).1.symm
  · exact absurd (htails newline htail) (by decide)

theorem eq_ofNat_of_toInt {x : Int64} {n : Nat} (h : x.toInt = n) : x = .ofNat n := by
  rw [← Int64.ofInt_toInt x, h, Int64.ofInt_eq_ofNat]

namespace Identifier

open Utf8

variable {letter digit part : Char → Bool}

/-- A class of characters that a stray byte and a newline do not belong to. -/
def IsWordClass (cls : Char → Bool) : Prop :=
  cls Piece.replacement = false ∧ cls '\n' = false

theorem isPart_replacement (hletter : IsWordClass letter) (hdigit : IsWordClass digit) :
    isPart letter digit Piece.replacement = false := by
  rw [isPart, hletter.1, hdigit.1]
  decide

theorem isPart_newline (hletter : IsWordClass letter) (hdigit : IsWordClass digit) :
    isPart letter digit '\n' = false := by
  rw [isPart, hletter.2, hdigit.2]
  decide

theorem Spells.newline_notMem {word : Bytes} (h : Spells part word) (hpart : part '\n' = false) :
    newline ∉ word := by
  obtain ⟨cs, rfl, hcs⟩ := h
  intro hmem
  obtain ⟨c, hc, hnewline⟩ := List.mem_flatMap.mp hmem
  have hchar := hcs c hc
  rw [Bytes.eq_newline_of_mem_ofChar hnewline, hpart] at hchar
  cases hchar

/-- The contents up to an offset. One past the end stands for that end. -/
def upTo (contents : Bytes) (offset : Int64) : Bytes :=
  contents.take (min offset.toInt.toNat contents.length)

theorem upTo_ofNat {contents : Bytes} {o : Nat} (h : o ≤ contents.length)
    (fits : contents.length < 2 ^ 63) : upTo contents (.ofNat o) = contents.take o := by
  rw [upTo, Int64.toInt_ofNat_of_lt (by omega), Int.toNat_natCast, Nat.min_eq_left h]

theorem toInt_startIn (hletter : IsWordClass letter) (hdigit : IsWordClass digit) (contents : Bytes)
    {offset : Int64} (h : 0 ≤ offset.toInt) :
    (startIn letter digit contents offset).toInt =
      lengthBefore (isPart letter digit) (upTo contents offset).reverse := by
  have hle := (isStart_lengthBefore (isPart_replacement hletter hdigit) (upTo contents offset)).le
  have hlt := offset.toInt_lt
  rw [upTo, List.length_take] at hle
  rw [startIn, if_neg]
  · exact Int64.toInt_ofNat_of_lt (by omega)
  · rw [Int64.lt_iff_toInt_lt, Int64.toInt_zero]
    omega

/-- The search stops at the start of the longest run of the characters of identifiers. -/
theorem isStart_startIn (hletter : IsWordClass letter) (hdigit : IsWordClass digit)
    (contents : Bytes) {offset : Int64} (h : 0 ≤ offset.toInt) :
    ∃ p : Nat, (startIn letter digit contents offset).toInt = p ∧
      IsStart (isPart letter digit) (upTo contents offset) p :=
  ⟨_, toInt_startIn hletter hdigit contents h,
    isStart_lengthBefore (isPart_replacement hletter hdigit) _⟩

theorem startIn_startIn (hletter : IsWordClass letter) (hdigit : IsWordClass digit)
    (contents : Bytes) {offset : Int64} (h : 0 ≤ offset.toInt) :
    startIn letter digit contents (startIn letter digit contents offset) =
      startIn letter digit contents offset := by
  have hstart := toInt_startIn hletter hdigit contents h
  have hle := (isStart_lengthBefore (isPart_replacement hletter hdigit) (upTo contents offset)).le
  rw [upTo, List.length_take] at hle
  have htake : upTo contents (startIn letter digit contents offset) =
      (upTo contents offset).take
        (lengthBefore (isPart letter digit) (upTo contents offset).reverse) := by
    rw [upTo, hstart, Int.toNat_natCast]
    rw [upTo, List.take_take]
    congr 1
    omega
  rw [← Int64.toInt_inj, toInt_startIn hletter hdigit contents (by omega), htake,
    lengthBefore_take, hstart]

/-- What stands between the offsets `p` and `o` is the part `word` of the line `line`. -/
def StandsOn (t : Text) (line : Int64) (p o : Nat) (word : Bytes) : Prop :=
  ∃ before left right after, Text.IsCut t.contents before (left ++ word ++ right) after ∧
    line.toInt = before.count newline + 1 ∧ p = before.length + left.length ∧ o = p + word.length

theorem IsStart.standsOn (hpart : part '\n' = false) {t : Text} {line col : Int64} {o p : Nat}
    (hoffset : t.offset line col = .ok o) (h : IsStart part (t.contents.take o) p) :
    StandsOn t line p o (t.slice p o) := by
  obtain ⟨i, hindex, hcol, -⟩ := Text.offset_eq_ok_iff.mp hoffset
  obtain ⟨hi, hline⟩ := Text.index_eq_ok_iff.mp hindex
  obtain ⟨before, piece, after, hcut, rfl⟩ := Text.exists_cut_of_index (b := t.contents) (i := i)
    (by rw [Text.lineCount_eq] at hi; omega)
  rw [Int64.le_iff_toInt_le, Int64.toInt_zero] at hcol
  rw [Text.offset_of_cut hcut hline hcol] at hoffset
  obtain ⟨k, hk⟩ : ∃ k, min col.toInt.toNat (piece.dropEnd "\r").length = k := ⟨_, rfl⟩
  have hlength : k ≤ piece.length := by
    have := Bytes.length_dropEnd_le piece "\r"
    omega
  obtain rfl := Except.ok.inj hoffset
  rw [hk] at h ⊢
  have htake : t.contents.take (before.length + k) = before ++ piece.take k := by
    rw [hcut.eq, List.append_assoc, List.take_length_add_append,
      List.take_append_of_le_length hlength]
  have hbefore : before.length ≤ p := by
    by_contra hlt
    have hnewline := h.spells.newline_notMem hpart
    rcases hcut.before_end with rfl | ⟨a, rfl⟩
    · simp at hlt
    · rw [List.length_append, List.length_singleton] at hlt
      rw [htake, List.append_assoc, List.drop_append_of_le_length (by omega)] at hnewline
      simp at hnewline
  have hle := h.le
  rw [htake, List.length_append, List.length_take] at hle
  obtain ⟨m, rfl⟩ := Nat.exists_eq_add_of_le hbefore
  have hpiece : (t.contents.drop before.length).take piece.length = piece := by
    rw [hcut.eq, List.append_assoc, List.drop_left, List.take_left]
  have hparts : piece = piece.take m ++ (piece.drop m).take (k - m) ++ piece.drop k := by
    rw [← List.take_add, Nat.add_sub_cancel' (by omega), List.take_append_drop]
  have hword : t.slice (before.length + m) (before.length + k) = (piece.drop m).take (k - m) :=
    Text.slice_add_add hpiece hlength
  rw [hword]
  refine ⟨before, piece.take m, piece.drop k, after, ?_, hline, ?_, ?_⟩
  · rwa [← hparts]
  · rw [List.length_take]
    omega
  · rw [List.length_take, List.length_drop]
    omega

/-- The identifier before a place of a text is on the line of that place. -/
theorem standsOn_startIn (hletter : IsWordClass letter) (hdigit : IsWordClass digit) {t : Text}
    {line col : Int64} {o : Nat} (fits : t.length < 2 ^ 63) (hoffset : t.offset line col = .ok o) :
    ∃ p : Nat, (startIn letter digit t.contents (.ofNat o)).toInt = p ∧
      IsStart (isPart letter digit) (t.contents.take o) p ∧ StandsOn t line p o (t.slice p o) := by
  have hinside : o ≤ t.contents.length := Text.offset_le_length hoffset
  have hvalid : 0 ≤ (Int64.ofNat o).toInt := by
    have hlength : t.contents.length < 2 ^ 63 := fits
    rw [Int64.toInt_ofNat_of_lt (by omega)]
    omega
  obtain ⟨p, hp, hstart⟩ := isStart_startIn hletter hdigit t.contents hvalid
  rw [upTo_ofNat hinside fits] at hstart
  exact ⟨p, hp, hstart, hstart.standsOn (isPart_newline hletter hdigit) hoffset⟩

end Identifier

/-! ## The complete command -/

namespace Console

open Identifier

theorem isWordClass_isLetter : IsWordClass Unicode.isLetter := by
  constructor <;> decide +kernel

theorem isWordClass_isDigit : IsWordClass Unicode.isDigit := by
  constructor <;> decide +kernel

theorem eq_singleJob_of_start {s : Surroundings} {b : Bridge} {spot : Spot} {j : Job}
    (started : Command.start s b (.complete spot) = .ok j) :
    ∃ d o finish, openDocument s 0 spot.file = .ok d ∧
      Text.offset ⟨d.text⟩ spot.line spot.col = .ok o ∧
      j = Command.singleJob b d (completionQuery d (.ofNat o) spot) finish := by
  cases hopen : openDocument s 0 spot.file with
  | error err => simp [Command.start, hopen, bind, Except.bind] at started
  | ok d =>
      cases hoffset : Text.offset ⟨d.text⟩ spot.line spot.col with
      | error err => simp [Command.start, hopen, offsetOf, hoffset, bind, Except.bind] at started
      | ok o =>
          simp only [Command.start, hopen, offsetOf, hoffset, bind, Except.bind] at started
          exact ⟨d, o, _, rfl, hoffset, (Except.ok.inj started).symm⟩

/-- The complete command asks for the completion of the word before its place. -/
theorem eq_completeJob {s : Surroundings} {args : List Bytes} {flags : Flags}
    {file written : Bytes} {j : Job}
    (command : Flags.parse args = .ok (flags, [("complete" : Bytes), file, written]))
    (started : start s args = .ok j) :
    ∃ settings d line col o finish, openDocument s 0 file = .ok d ∧
      position? written = some (line, col) ∧ Text.offset ⟨d.text⟩ line col = .ok o ∧
      j = Command.singleJob (Bridge.new settings false) d
        (completionQuery d (.ofNat o) ⟨file, line, col, written⟩) finish := by
  obtain ⟨settings, c, -, -, hparse, hjob⟩ := (start_eq_ok_iff command).mp started
  have hspot : Command.parse "complete" [file, written] =
      (spot "complete" 0 [file, written]).map fun r => .complete r.1 := rfl
  simp only [hspot, spot, List.length_nil, Nat.lt_irrefl, if_false] at hparse
  cases hplace : position? written with
  | none => simp [hplace, Except.map] at hparse
  | some place =>
      simp only [hplace, Except.map] at hparse
      obtain rfl := Except.ok.inj hparse
      obtain ⟨d, o, finish, hopen, hoffset, rfl⟩ := eq_singleJob_of_start hjob
      exact ⟨settings, d, place.1, place.2, o, finish, hopen, rfl, hoffset, rfl⟩

/-- The request asks for the completion of `word`, which starts at `p`, at a place of the
document. -/
structure Completes (r : Request) (d : Document) (line col : Int64) (p : Nat) (word : Bytes) :
    Prop where
  args : r.args = ([("complete-prefix" : Bytes), "-position",
    MerlinBridge.Command.position line col, "-prefix", word, "-doc", "true"] : List Bytes)
  start : r.query.completionStart? = some (.ofNat p)
  contents : r.snapshot.contents = d.text

theorem completes_completionQuery {d : Document} {line col : Int64} {o p : Nat} (id : Nat)
    (file written : Bytes) (fits : d.text.length < 2 ^ 63) (inside : o ≤ d.text.length)
    (hp : (Identifier.start d.text (.ofNat o)).toInt = p) :
    Completes (.build id (completionQuery d (.ofNat o) ⟨file, line, col, written⟩) (some d))
      d line col p (Text.slice ⟨d.text⟩ p o) := by
  have ho : (Int64.ofNat o).toInt.toNat = o := by
    rw [Int64.toInt_ofNat_of_lt (by omega), Int.toNat_natCast]
  have hquery : completionQuery d (.ofNat o) ⟨file, line, col, written⟩ =
      .completion (Text.slice ⟨d.text⟩ p o) (.ofNat p) (line - 1) col := by
    rw [completionQuery, hp, Int.toNat_natCast, ho, eq_ofNat_of_toInt hp]
  rw [hquery]
  refine ⟨?_, rfl, rfl⟩
  simp only [Request.args, Request.build, Request.Query.command, MerlinBridge.Command.args,
    Int64.sub_add_cancel]

/-- The identifier before an offset is the longest run of letters, digits, underscores and
apostrophes that ends there, and it is text, whatever the contents are. The one before a place is
on the line of that place, and it is this one that the complete command asks about. -/
theorem completes_identifier_before_place :
    (∀ letter digit : Char → Bool, IsWordClass letter → IsWordClass digit →
      (∀ (contents : Bytes) (offset : Int64), 0 ≤ offset.toInt →
        ∃ p : Nat, (startIn letter digit contents offset).toInt = p ∧
          IsStart (isPart letter digit) (upTo contents offset) p ∧
          Utf8.valid ((upTo contents offset).drop p) = true ∧
          startIn letter digit contents (.ofNat p) = .ofNat p) ∧
      ∀ (t : Text) (line col : Int64) (o : Nat), t.length < 2 ^ 63 → t.offset line col = .ok o →
        ∃ p : Nat, (startIn letter digit t.contents (.ofNat o)).toInt = p ∧
          IsStart (isPart letter digit) (t.contents.take o) p ∧
          StandsOn t line p o (t.slice p o)) ∧
    ∀ (s : Surroundings) (args : List Bytes) (flags : Flags) (file written : Bytes) (j : Job),
      Flags.parse args = .ok (flags, [("complete" : Bytes), file, written]) →
      start s args = .ok j →
      ∃ d line col o r, openDocument s 0 file = .ok d ∧ position? written = some (line, col) ∧
        Text.offset ⟨d.text⟩ line col = .ok o ∧ j.settle.pending? = some r ∧
        (d.text.length < 2 ^ 63 → ∃ p word, Completes r d line col p word ∧
          IsStart (isPart Unicode.isLetter Unicode.isDigit) (d.text.take o) p ∧
          StandsOn ⟨d.text⟩ line p o word) := by
  refine ⟨?_, ?_⟩
  · intro letter digit hletter hdigit
    refine ⟨?_, fun t line col o fits hoffset => standsOn_startIn hletter hdigit fits hoffset⟩
    intro contents offset hvalid
    obtain ⟨p, hp, hstart⟩ := isStart_startIn hletter hdigit contents hvalid
    have hfixed := startIn_startIn hletter hdigit contents hvalid
    rw [eq_ofNat_of_toInt hp] at hfixed
    exact ⟨p, hp, hstart, hstart.spells.valid, hfixed⟩
  · intro s args flags file written j command started
    obtain ⟨settings, d, line, col, o, finish, hopen, hplace, hoffset, rfl⟩ :=
      eq_completeJob command started
    refine ⟨d, line, col, o, _, hopen, hplace, hoffset,
      pending?_settle_singleJob settings false d _ finish, fun fits => ?_⟩
    obtain ⟨p, hp, hstart, hstands⟩ :=
      standsOn_startIn (t := ⟨d.text⟩) isWordClass_isLetter isWordClass_isDigit fits hoffset
    exact ⟨p, _, completes_completionQuery 0 file written fits (Text.offset_le_length hoffset) hp,
      hstart, hstands⟩

/-- A directory with a file of two lines, the second of which ends with an identifier. -/
def accentDesk : Surroundings where
  disk := { files := [([("a.ml" : Bytes)], "x\n1 y_é'")] }
  environment := fun _ => []
  tempDir := "/tmp"

/-- Half a character in front of the offset is no identifier, and the identifier that the command
asks about has a letter of two bytes in it. -/
theorem completes_identifier_with_accent :
    (∃ p : Nat, (Identifier.start [0x61, 0xC3, 0xA9] 2).toInt = p ∧
      IsStart (isPart Unicode.isLetter Unicode.isDigit) [0x61, 0xC3] p) ∧
    (∃ p : Nat, (Identifier.start "x\ny" (.ofNat 3)).toInt = p ∧
      StandsOn ⟨"x\ny"⟩ 2 p 3 (Text.slice ⟨"x\ny"⟩ p 3)) ∧
    ∃ j, start accentDesk ["complete", "a.ml", "2:7"] = .ok j ∧
      j.settle.pending?.map Request.args =
        some (["complete-prefix", "-position", "2:7", "-prefix", "y_é'", "-doc", "true"] :
          List Bytes) ∧
      ∃ d line col o r, j.settle.pending? = some r ∧ ∃ p word, Completes r d line col p word ∧
        IsStart (isPart Unicode.isLetter Unicode.isDigit) (d.text.take o) p ∧
        StandsOn ⟨d.text⟩ line p o word := by
  obtain ⟨hidentifier, hcommand⟩ := completes_identifier_before_place
  obtain ⟨hlongest, hline⟩ := hidentifier _ _ isWordClass_isLetter isWordClass_isDigit
  refine ⟨?_, ?_, ?_⟩
  · obtain ⟨p, hp, hstart, -⟩ := hlongest [0x61, 0xC3, 0xA9] 2 (by decide)
    exact ⟨p, hp, hstart⟩
  · obtain ⟨p, hp, -, hstands⟩ := hline ⟨"x\ny"⟩ 2 1 3 (by decide) (by decide +kernel)
    exact ⟨p, hp, hstands⟩
  · have hstarts : (match start accentDesk ["complete", "a.ml", "2:7"] with
        | .ok j => decide (j.settle.pending?.map Request.args =
            some (["complete-prefix", "-position", "2:7", "-prefix", "y_é'", "-doc", "true"] :
              List Bytes))
        | .error _ => false) = true := by decide +kernel
    cases hstart : start accentDesk ["complete", "a.ml", "2:7"] with
    | error err => simp [hstart] at hstarts
    | ok j =>
        simp only [hstart, decide_eq_true_eq] at hstarts
        refine ⟨j, rfl, hstarts, ?_⟩
        obtain ⟨d, line, col, o, r, hopen, -, -, hpending, hasks⟩ :=
          hcommand accentDesk _ {} "a.ml" "2:7" j (by decide +kernel) hstart
        have hopened : (match openDocument accentDesk 0 "a.ml" with
            | .ok d => decide (d.text.length < 2 ^ 63)
            | .error _ => false) = true := by decide +kernel
        simp only [hopen, decide_eq_true_eq] at hopened
        exact ⟨d, line, col, o, r, hpending, hasks hopened⟩

end Console

end MerlinBridge
