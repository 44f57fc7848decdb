import MerlinBridge.Proofs.CompletedWord
import MerlinBridge.Proofs.Numerals

/-!
# Places on the command line

A place is written as two numbers with a colon between them. A number has no colon in it, so
there is at most one way to read such a text (`position?_eq_some_iff`), and the text that is
written for a place is read as that place. A user may write more than that: a sign in front of a
number, or zeros.

Three commands send their place to the tool, and `Inquiry` treats them as one. `Inquiry.Asks` is
what they ask the bridge; a completion counts its lines from zero there. In the end all of
them send the place in the one form that the tool expects, however it was written
(`places_survive_command_line`).
-/

namespace MerlinBridge

/-! ## Reading a place -/

namespace Console

/-- A place is a line from one on, a colon, and a column from zero on. It does not matter at which
colon the text is cut, for a number has none. -/
theorem position?_eq_some_iff {s : Bytes} {line col : Int64} :
    position? s = some (line, col) ↔ ∃ before after : Bytes, s = before ++ ":" ++ after ∧
      Decimal.int64? before = some line ∧ Decimal.int64? after = some col ∧
      1 ≤ line ∧ 0 ≤ col := by
  have hcolon : ∀ before after : Bytes,
      before ++ ":" ++ after = before ++ Bytes.byte ':' :: after := by
    intro before after
    rw [List.append_assoc]
    rfl
  constructor
  · intro h
    simp only [position?, Option.bind_eq_bind, Option.bind_eq_some_iff] at h
    obtain ⟨⟨before, after⟩, hcut, line', hline, col', hcol, hrange⟩ := h
    split at hrange
    · cases hrange
    · rename_i hbounds
      obtain ⟨rfl, rfl⟩ := Prod.mk.inj (Option.some.inj hrange)
      refine ⟨before, after, ?_, hline, hcol, ?_⟩
      · rw [hcolon]
        exact (Bytes.cut?_eq_some_iff.mp hcut).1
      · simpa using hbounds
  · rintro ⟨before, after, rfl, hline, hcol, hfrom, hon⟩
    obtain ⟨z, hread, -⟩ := Option.bind_eq_some_iff.mp hline
    have hcut := Bytes.cut?_eq_some_iff.mpr
      ⟨hcolon before after, Decimal.colon_notMem_of_int? hread⟩
    simp only [position?, hcut, hline, hcol, Option.bind_eq_bind, Option.bind_some]
    rw [if_neg]
    simpa using ⟨hfrom, hon⟩

theorem position?_position {line col : Int64} (hline : 1 ≤ line) (hcol : 0 ≤ col) :
    position? (MerlinBridge.Command.position line col) = some (line, col) :=
  position?_eq_some_iff.mpr ⟨_, _, rfl, Decimal.int64?_ofInt64 line, Decimal.int64?_ofInt64 col,
    hline, hcol⟩

/-! ## Sending a place -/

inductive Inquiry where
  | complete
  | locate
  | occurrences
deriving DecidableEq

namespace Inquiry

def word : Inquiry → Bytes
  | complete => "complete"
  | locate => "locate"
  | occurrences => "occurrences"

def command (spot : Spot) : Inquiry → Command
  | complete => .complete spot
  | locate => .locate spot
  | occurrences => .occurrences spot

/-- A completion needs the text in front of its place, which has to be on a line of the text. The
others leave it to the tool to look for the place. -/
def Accepts (i : Inquiry) (t : Text) (line col : Int64) : Prop :=
  i = complete → Pos.OnLine t ⟨line, col⟩

/-- The query asks about a line, counted from one, and a column, counted from zero. -/
def Asks (line col : Int64) : Inquiry → Request.Query → Prop
  | complete, query => ∃ text start row, query = .completion text start row col ∧
      row.toInt = line.toInt - 1
  | locate, query => query = .definition line col
  | occurrences, query => query = .usages line col

/-- The arguments of the tool with `place` in them. The other arguments are the path of the
document and the text to be completed, where they are needed. -/
def args (place path text : Bytes) : Inquiry → List Bytes
  | complete => ["complete-prefix", "-position", place, "-prefix", text, "-doc", "true"]
  | locate => ["locate", "-position", place, "-filename", MerlinBridge.Command.filenameOf path]
  | occurrences => ["occurrences", "-identifier-at", place]

theorem parse_word (i : Inquiry) {file written : Bytes} {line col : Int64}
    (read : position? written = some (line, col)) :
    Command.parse i.word [file, written] = .ok (i.command ⟨file, line, col, written⟩) := by
  have hspot : ∀ name, spot name 0 [file, written] = .ok (⟨file, line, col, written⟩, []) := by
    intro name
    simp only [spot, read, List.length_nil, Nat.lt_irrefl, if_false]
  have hparse : Command.parse i.word [file, written] =
      (spot i.word 0 [file, written]).map fun r => i.command r.1 := by
    cases i <;> rfl
  rw [hparse, hspot]
  rfl

theorem isWatched_command (i : Inquiry) (spot : Spot) : (i.command spot).isWatched = false := by
  cases i <;> rfl

/-- A line that is counted from zero on the way reaches the tool as it was given. -/
theorem Asks.args_build {i : Inquiry} {line col : Int64} {query : Request.Query}
    (h : i.Asks line col query) (id : Nat) (d : Document) :
    ∃ text, (Request.build id query (some d)).args =
      i.args (MerlinBridge.Command.position line col) d.path text := by
  cases i with
  | complete =>
      obtain ⟨text, start, row, rfl, hrow⟩ := h
      have hline : row + 1 = line := by
        have hlow := line.le_toInt
        have hhigh := line.toInt_lt
        rw [← Int64.toInt_inj, Int64.toInt_add, hrow, Int64.toInt_one,
          Int.sub_add_cancel]
        exact Int.bmod_eq_of_le (by omega) (by omega)
      refine ⟨text, ?_⟩
      rw [← hline]
      rfl
  | locate =>
      obtain rfl := h
      exact ⟨[], rfl⟩
  | occurrences =>
      obtain rfl := h
      exact ⟨[], rfl⟩

/-- Counted from zero, a line from one on does not wrap around. -/
theorem toInt_sub_one {line : Int64} (h : 1 ≤ line.toInt) : (line - 1).toInt = line.toInt - 1 := by
  have hhigh := line.toInt_lt
  rw [Int64.toInt_sub, Int64.toInt_one]
  exact Int.bmod_eq_of_le (by omega) (by omega)

section Start

variable {i : Inquiry} {s : Surroundings}

theorem start_command (spot : Spot) (b : Bridge) {d : Document}
    (opened : openDocument s 0 spot.file = .ok d)
    (accepts : i.Accepts ⟨d.text⟩ spot.line spot.col) :
    ∃ query finish, i.Asks spot.line spot.col query ∧
      (i.command spot).start s b = .ok (Command.singleJob b d query finish) := by
  cases i with
  | complete =>
      have honLine := accepts rfl
      obtain ⟨o, ho⟩ := Text.exists_offset_iff.mpr honLine
      have hoffset : offsetOf d spot = .ok (.ofNat o) := by
        simp only [offsetOf, ho]
      refine ⟨completionQuery d (.ofNat o) spot, fun id b => showCompletion b id,
        ⟨_, _, _, rfl, toInt_sub_one honLine.1⟩, ?_⟩
      simp only [command, Command.start, opened, hoffset, bind, Except.bind, pure, Except.pure]
  | locate =>
      refine ⟨.definition spot.line spot.col, fun id b => orFault b id [], rfl, ?_⟩
      simp only [command, Command.start, opened, bind, Except.bind, pure, Except.pure]
  | occurrences =>
      refine ⟨.usages spot.line spot.col, fun id b => orFault b id [], rfl, ?_⟩
      simp only [command, Command.start, opened, bind, Except.bind, pure, Except.pure]

theorem accepts_of_start {spot : Spot} {b : Bridge} {j : Job}
    (started : (i.command spot).start s b = .ok j) :
    ∃ d, openDocument s 0 spot.file = .ok d ∧ i.Accepts ⟨d.text⟩ spot.line spot.col := by
  cases hopen : openDocument s 0 spot.file with
  | error err => cases i <;> simp [command, Command.start, hopen, bind, Except.bind] at started
  | ok d =>
      refine ⟨d, rfl, ?_⟩
      rintro rfl
      obtain ⟨d', o, -, hopen', ho, -⟩ := eq_singleJob_of_start started
      obtain rfl := Except.ok.inj (hopen.symm.trans hopen')
      exact Text.exists_offset_iff.mp ⟨o, ho⟩

end Start

end Inquiry

/-- The surroundings have settings for a command, a place for its log, and its file, which is the
document `d`. -/
structure Surroundings.Provides (s : Surroundings) (flags : Flags) (file : Bytes)
    (settings : Settings) (d : Document) : Prop where
  settings : s.settings flags = .ok settings
  log : s.checkLog = .ok ()
  document : openDocument s 0 file = .ok d

section Run

variable {i : Inquiry} {s : Surroundings} {args : List Bytes} {flags : Flags}
  {file written : Bytes} {line col : Int64}

theorem calls_of_provides {settings : Settings} {d : Document}
    (command : Flags.parse args = .ok (flags, [i.word, file, written]))
    (read : position? written = some (line, col)) (provides : s.Provides flags file settings d)
    (accepts : i.Accepts ⟨d.text⟩ line col) (t : Toolbox) :
    ∃ query, i.Asks line col query ∧
      (run s t args).2 = t.callsFor settings (.build 0 query (some d)) := by
  obtain ⟨query, finish, hasks, hstart⟩ := Inquiry.start_command ⟨file, line, col, written⟩
    (Bridge.new settings false) provides.document accepts
  have hstarts : start s args =
      .ok (Command.singleJob (Bridge.new settings false) d query finish) := by
    rw [start_eq_ok_iff command]
    refine ⟨settings, _, provides.settings, provides.log, i.parse_word read, ?_⟩
    rwa [i.isWatched_command]
  exact ⟨query, hasks, calls_of_start hstarts t⟩

theorem provides_of_call {t : Toolbox}
    (command : Flags.parse args = .ok (flags, [i.word, file, written]))
    (read : position? written = some (line, col)) (sent : (run s t args).2 ≠ []) :
    ∃ settings d, s.Provides flags file settings d ∧ i.Accepts ⟨d.text⟩ line col := by
  cases hstart : start s args with
  | error err => simp [run, hstart] at sent
  | ok j =>
      obtain ⟨settings, c, hsettings, hlog, hparse, hjob⟩ := (start_eq_ok_iff command).mp hstart
      obtain rfl := Except.ok.inj ((i.parse_word read).symm.trans hparse)
      obtain ⟨d, hopen, haccepts⟩ := Inquiry.accepts_of_start hjob
      exact ⟨settings, d, ⟨hsettings, hlog, hopen⟩, haccepts⟩

end Run

/-- The text for a place is read as that place. Whatever text is read as a place, all that the
commands about places send is this place in the form that the tool expects, and they do send it
if the surroundings provide what they need. -/
theorem places_survive_command_line :
    (∀ line col : Int64, 1 ≤ line → 0 ≤ col →
      position? (MerlinBridge.Command.position line col) = some (line, col)) ∧
    ∀ (written : Bytes) (line col : Int64), position? written = some (line, col) →
      1 ≤ line ∧ 0 ≤ col ∧
      ∀ (i : Inquiry) (s : Surroundings) (t : Toolbox) (args : List Bytes) (flags : Flags)
        (file : Bytes), Flags.parse args = .ok (flags, [i.word, file, written]) →
        (∀ call ∈ (run s t args).2, ∃ settings d text, s.Provides flags file settings d ∧
          call.args = MerlinBridge.Command.argv
            (i.args (MerlinBridge.Command.position line col) d.path text) settings.merlinFlags) ∧
        ∀ settings d, s.Provides flags file settings d → i.Accepts ⟨d.text⟩ line col →
          ∃ query, i.Asks line col query ∧
            (run s t args).2 = t.callsFor settings (.build 0 query (some d)) := by
  refine ⟨fun line col => position?_position, ?_⟩
  intro written line col hread
  obtain ⟨-, -, -, -, -, hline, hcol⟩ := position?_eq_some_iff.mp hread
  refine ⟨hline, hcol, ?_⟩
  intro i s t args flags file hcommand
  refine ⟨?_, fun settings d hprovides haccepts =>
    calls_of_provides hcommand hread hprovides haccepts t⟩
  intro call hcall
  obtain ⟨settings, d, hprovides, haccepts⟩ :=
    provides_of_call hcommand hread (List.ne_nil_of_mem hcall)
  obtain ⟨query, hasks, hcalls⟩ := calls_of_provides hcommand hread hprovides haccepts t
  obtain ⟨text, hargs⟩ := hasks.args_build 0 d
  refine ⟨settings, d, text, hprovides, ?_⟩
  rw [hcalls, Toolbox.callsFor] at hcall
  split at hcall
  · rw [List.mem_singleton.mp hcall, hargs]
  · cases hcall

def accentPage : Document where
  id := 0
  path := "a.ml"
  revision := 0
  text := "x\n1 y_é'"

def stillTool : Toolbox where
  launch := fun _ => .ready
  behaviour := fun _ => {}

/-- The last place of all is read back. A place with a sign and with zeros in front of its numbers
is sent without them, by each of the commands. -/
theorem places_of_signed_text :
    position? (MerlinBridge.Command.position 9223372036854775807 9223372036854775807) =
      some (9223372036854775807, 9223372036854775807) ∧
    position? "+02:007" = some (2, 7) ∧
    ∀ i : Inquiry, ∃ settings query, accentDesk.Provides {} "a.ml" settings accentPage ∧
      i.Asks 2 7 query ∧
      (run accentDesk stillTool [i.word, "a.ml", "+02:007"]).2 =
        stillTool.callsFor settings (.build 0 query (some accentPage)) ∧
      ∃ call text, (run accentDesk stillTool [i.word, "a.ml", "+02:007"]).2 = [call] ∧
        call.args = MerlinBridge.Command.argv (i.args "2:7" "a.ml" text) settings.merlinFlags := by
  obtain ⟨hback, hsent⟩ := places_survive_command_line
  have hread : position? "+02:007" = some (2, 7) := by decide +kernel
  refine ⟨hback _ _ (by decide) (by decide), hread, ?_⟩
  intro i
  have hcommand : Flags.parse [i.word, "a.ml", "+02:007"] =
      .ok ({}, [i.word, "a.ml", "+02:007"]) := by
    cases i <;> decide +kernel
  obtain ⟨-, -, hruns⟩ := hsent _ _ _ hread
  obtain ⟨hcalls, hasked⟩ := hruns i accentDesk stillTool _ {} "a.ml" hcommand
  have hone : (run accentDesk stillTool [i.word, "a.ml", "+02:007"]).2.length = 1 := by
    cases i <;> decide +kernel
  obtain ⟨call, hcall⟩ := List.length_eq_one_iff.mp hone
  obtain ⟨settings, d, text, hprovides, hargs⟩ := hcalls call (by rw [hcall]; exact .head _)
  have hopen : openDocument accentDesk 0 "a.ml" = .ok accentPage := by decide +kernel
  obtain rfl := Except.ok.inj (hopen.symm.trans hprovides.document)
  have honLine : Pos.OnLine ⟨accentPage.text⟩ ⟨2, 7⟩ := by
    refine ⟨?_, ?_, ?_⟩ <;> decide +kernel
  obtain ⟨query, hasks, hquery⟩ := hasked settings accentPage hprovides fun _ => honLine
  exact ⟨settings, query, hprovides, hasks, hquery, call, text, hcall, hargs⟩

end Console

end MerlinBridge
