import MerlinBridge.Proofs.Effect
import MerlinBridge.Proofs.EnvelopeDecoding
import MerlinBridge.Proofs.NumberLiterals

/-!
# When the editor goes to a place

`Locates` is a place as a reply names it: an object with the name of a file and a
position in it. Its line and its column are numbers, and it depends on how these are
read what they are: `PassesOn` gives words, and `Denotes` the numbers themselves. A
definition takes the editor to the place in words if its reply is such a place, and a
reply that is a text is shown. The empty text is the exception: the editor is taken to
the place without a name, since a text is told from a place by not being empty.
-/

namespace MerlinBridge

namespace Json

/-- The first member of a name is a number, and it is read as `x`. -/
def HasNumber {α : Type} (reads : Bytes → α → Prop) (v : Json) (name : Bytes) (x : α) : Prop :=
  ∃ literal, IsFirst v.members name (.number literal) ∧ reads literal x

/-- The first member of a name is an object whose line and column are numbers, and they are read as
`line` and `col`. -/
def PlacedAt {α : Type} (reads : Bytes → α → Prop) (v : Json) (name : Bytes) (line col : α) :
    Prop :=
  ∃ p, IsFirst v.members name p ∧ p.isObject = true ∧ HasNumber reads p "line" line ∧
    HasNumber reads p "col" col

def HasPos (v : Json) (name : Bytes) (pos : Pos) : Prop :=
  PlacedAt PassesOn v name pos.line pos.col

/-- `v` is an object whose file is a string that is not empty, and which has a position. -/
structure Locates {α : Type} (reads : Bytes → α → Prop) (v : Json) (file : Bytes) (line col : α) :
    Prop where
  shape : v.isObject = true
  named : ∃ body, IsFirst v.members "file" (.string body) ∧ StandsFor body file
  nonempty : file ≠ []
  placed : PlacedAt reads v "pos" line col

theorem HasNumber.denotes_iff {v : Json} {name : Bytes} {n : Int64}
    (h : HasNumber PassesOn v name n) :
    HasNumber Denotes v name n.toInt ↔ ∃ z, HasNumber Keeps v name z := by
  obtain ⟨literal, hfirst, hpasses⟩ := h
  have hsame : ∀ {l}, IsFirst v.members name (.number l) → l = literal := fun hl =>
    Json.number.inj (hl.unique hfirst)
  constructor
  · rintro ⟨l, hl, hdenotes⟩
    rw [hsame hl] at hdenotes
    obtain ⟨z, hz⟩ := hpasses.denotes_iff.mp hdenotes
    exact ⟨z, literal, hfirst, hz⟩
  · rintro ⟨z, l, hl, hkeeps⟩
    rw [hsame hl] at hkeeps
    exact ⟨literal, hfirst, hpasses.denotes_iff.mpr ⟨z, hkeeps⟩⟩

/-- The words for a position are its numbers exactly if both of these can be kept. -/
theorem PlacedAt.denotes_iff {v : Json} {name : Bytes} {line col : Int64}
    (h : PlacedAt PassesOn v name line col) :
    PlacedAt Denotes v name line.toInt col.toInt ↔ ∃ l c, PlacedAt Keeps v name l c := by
  obtain ⟨p, hfirst, hobject, hline, hcol⟩ := h
  constructor
  · rintro ⟨p', hfirst', -, hline', hcol'⟩
    rw [hfirst'.unique hfirst] at hline' hcol'
    obtain ⟨l, hl⟩ := hline.denotes_iff.mp hline'
    obtain ⟨c, hc⟩ := hcol.denotes_iff.mp hcol'
    exact ⟨l, c, p, hfirst, hobject, hl, hc⟩
  · rintro ⟨l, c, p', hfirst', -, hl, hc⟩
    rw [hfirst'.unique hfirst] at hl hc
    exact ⟨p, hfirst, hobject, hline.denotes_iff.mpr ⟨l, hl⟩, hcol.denotes_iff.mpr ⟨c, hc⟩⟩

theorem Locates.denotes_iff {v : Json} {file : Bytes} {line col : Int64}
    (h : Locates PassesOn v file line col) :
    Locates Denotes v file line.toInt col.toInt ↔ ∃ l c, Locates Keeps v file l c := by
  obtain ⟨hshape, hnamed, hnonempty, hplaced⟩ := h
  constructor
  · intro hdenotes
    obtain ⟨l, c, hkept⟩ := hplaced.denotes_iff.mp hdenotes.placed
    exact ⟨l, c, hshape, hnamed, hnonempty, hkept⟩
  · rintro ⟨l, c, hkept⟩
    exact ⟨hshape, hnamed, hnonempty, hplaced.denotes_iff.mpr ⟨l, c, hkept.placed⟩⟩

end Json

open Json

namespace Pos

theorem number?_eq_some_iff {v : Json} (h : Legal v) {name : Bytes} {n : Int64} :
    number? (v.get? name) = some n ↔ HasNumber PassesOn v name n := by
  have hliteral : ∀ {literal}, IsFirst v.members name (.number literal) → IsLiteral literal := by
    intro literal hfirst
    cases h.of_isFirst hfirst with
    | number isLiteral => exact isLiteral
  constructor
  · intro hn
    unfold number? at hn
    split at hn
    · rename_i literal hget
      have hfirst := (get?_eq_some_iff h).mp hget
      exact ⟨literal, hfirst, (passesOn_iff (hliteral hfirst)).mpr (Option.some.inj hn)⟩
    · cases hn
  · rintro ⟨literal, hfirst, hpasses⟩
    rw [(get?_eq_some_iff h).mpr hfirst, ← (passesOn_iff (hliteral hfirst)).mp hpasses]
    rfl

theorem ofMember_eq_ok_iff {v : Json} (h : Legal v) {name : Bytes} {pos : Pos} :
    ofMember v name = .ok pos ↔ HasPos v name pos := by
  constructor
  · intro hpos
    unfold ofMember at hpos
    split at hpos
    · rename_i p hget
      have hfirst := (get?_eq_some_iff h).mp hget
      have hlegal := h.of_isFirst hfirst
      split at hpos
      · rename_i hobject
        split at hpos
        · rename_i line col hline hcol
          obtain rfl := Except.ok.inj hpos
          exact ⟨p, hfirst, hobject, (number?_eq_some_iff hlegal).mp hline,
            (number?_eq_some_iff hlegal).mp hcol⟩
        · cases hpos
      · cases hpos
    · cases hpos
  · rintro ⟨p, hfirst, hobject, hline, hcol⟩
    have hlegal := h.of_isFirst hfirst
    simp only [ofMember, (get?_eq_some_iff h).mpr hfirst, hobject, if_true,
      (number?_eq_some_iff hlegal).mpr hline, (number?_eq_some_iff hlegal).mpr hcol]

end Pos

namespace Payload.Locate

/-- An object is a place if it names one, and nothing else that is read from it has a file. -/
theorem ofJson_object_iff {blank : Bytes} {members : List (Spaced Bytes × Spaced Json)}
    (h : Legal (.object blank members)) {file : Bytes} {pos : Pos} :
    ofJson (some (.object blank members)) = .ok { file := file, pos := pos } ↔
      Locates PassesOn (.object blank members) file pos.line pos.col := by
  constructor
  · intro hread
    simp only [ofJson] at hread
    split at hread
    · cases hread
    · rename_i pos' hpos
      split at hread
      · rename_i body hget
        split at hread
        · cases hread
        · rename_i hne
          injection hread with hread
          obtain ⟨-, rfl, rfl⟩ := Locate.mk.inj hread
          have hfirst := (get?_eq_some_iff h).mp hget
          cases h.of_isFirst hfirst with
          | string isBody =>
              exact ⟨rfl, ⟨body, hfirst, (unescape_eq_iff isBody).mp rfl⟩, hne,
                (Pos.ofMember_eq_ok_iff h).mp hpos⟩
      · cases hread
  · rintro ⟨-, ⟨body, hfirst, hstands⟩, hne, hplaced⟩
    simp only [ofJson, (Pos.ofMember_eq_ok_iff h).mpr hplaced, (get?_eq_some_iff h).mpr hfirst,
      hstands.unescape_eq, if_neg hne]

/-- What is read without a message is a place or the empty text. -/
theorem ofJson_silent_iff {v : Json} (h : Legal v) {file : Bytes} {pos : Pos} :
    ofJson (some v) = .ok { file := file, pos := pos } ↔
      Locates PassesOn v file pos.line pos.col ∨ v = .string [] ∧ file = [] ∧ pos = {} := by
  cases h with
  | @string body isBody =>
      have hempty : unescape true body = [] ↔ body = [] := by
        rw [unescape_eq_iff isBody]
        constructor
        · exact StandsFor.eq_nil
        · rintro rfl
          exact .nil
      have hplace : ¬ Locates PassesOn (.string body) file pos.line pos.col :=
        fun h => Bool.noConfusion h.shape
      simp only [ofJson, Except.ok.injEq, Locate.mk.injEq, hempty, hplace, false_or,
        Json.string.injEq]
      constructor
      · rintro ⟨hbody, rfl, rfl⟩
        exact ⟨hbody, rfl, rfl⟩
      · rintro ⟨hbody, rfl, rfl⟩
        exact ⟨hbody, rfl, rfl⟩
  | object isBlank empty keys spaces values =>
      rw [ofJson_object_iff (.object isBlank empty keys spaces values)]
      simp
  | _ =>
      constructor
      · exact nofun
      · rintro (hplace | ⟨⟨⟩, -⟩)
        exact Bool.noConfusion hplace.shape

end Payload.Locate

namespace Envelope

theorem legal_value {out : Bytes} {env : Envelope} (h : decode out = .ok env) {v : Json}
    (hv : env.value = some v) : Legal v := by
  cases (decode_eq_iff out _).mp h with
  | envelope _ legal _ _ value => exact legal.of_isFirst ((value v).mp hv)

theorem complaint?_eq_none_iff (env : Envelope) : env.complaint? = none ↔ env.cls = "return" := by
  unfold complaint?
  split
  · simp [*]
  · simp [*]

end Envelope

namespace Effect

theorem openAt_notMem_failure (fault : Fault) (messages : List Bytes) (file : Bytes)
    (line col : Int64) : .openAt file line col ∉ (failure fault messages).calls := by
  simp [failure]

theorem openAt_mem_ofDefinition {v : Option Json} {file : Bytes} {line col : Int64} :
    .openAt file line col ∈ (ofDefinition v).calls ↔
      Payload.Locate.ofJson v = .ok { file := file, pos := ⟨line, col⟩ } := by
  unfold ofDefinition
  cases Payload.Locate.ofJson v with
  | error err =>
      cases err with
      | noFile pos => simp [failure]
      | _ => simp [failure]
  | ok p =>
      obtain ⟨message, file', line', col'⟩ := p
      by_cases hmessage : message = []
      · simp [hmessage, eq_comm]
      · simp [hmessage]

/-- Only the value of a definition takes the editor to a place. -/
theorem openAt_mem_ofValue {r : Request} {focused : Bool} {v : Option Json} {file : Bytes}
    {line col : Int64} :
    .openAt file line col ∈ (ofValue r focused v).calls ↔
      r.kind = .definition ∧
        Payload.Locate.ofJson v = .ok { file := file, pos := ⟨line, col⟩ } := by
  rw [← openAt_mem_ofDefinition]
  unfold ofValue Request.kind
  cases r.query with
  | errors =>
      unfold ofErrors
      cases Payload.Errors.ofJson v with
      | error err => simp [openAt_notMem_failure, Request.Query.kind]
      | ok p =>
          cases focused with
          | true => simp [Request.Query.kind]
          | false => simp [openAt_notMem_failure, Request.Query.kind]
  | completion word startOffset l c =>
      unfold ofCompletion
      cases Payload.Completions.ofJson v with
      | error err => simp [openAt_notMem_failure, Request.Query.kind]
      | ok p => simp [Request.Query.kind]
  | definition l c => simp [Request.Query.kind]
  | usages l c =>
      unfold ofUsages
      cases Payload.Occurrences.ofJson v with
      | error err => simp [openAt_notMem_failure, Request.Query.kind]
      | ok p => simp [Request.Query.kind]

theorem openAt_notMem_ofComplaint (c : Complaint) (file : Bytes) (line col : Int64) :
    .openAt file line col ∉ (ofComplaint c).calls := by
  unfold ofComplaint
  split
  · exact openAt_notMem_failure _ _ file line col
  · exact openAt_notMem_failure _ _ file line col

theorem openAt_notMem_ofFault (settings : Settings) (opened : Bool) (f : Tool.Fault) (file : Bytes)
    (line col : Int64) : .openAt file line col ∉ (ofFault settings opened f).calls := by
  unfold ofFault
  split
  · exact openAt_notMem_failure _ _ file line col
  · exact openAt_notMem_failure _ _ file line col

/-- The value of a reply is a place, or it is the empty text. -/
def Navigates (out file : Bytes) (line col : Int64) : Prop :=
  ∃ env v, Envelope.decode out = .ok env ∧ env.cls = "return" ∧ env.value = some v ∧
    (Locates PassesOn v file line col ∨ v = .string [] ∧ file = [] ∧ line = 0 ∧ col = 0)

/-- The place is the one that the reply names in numbers exactly if these can be kept. The empty
text names none. -/
theorem Navigates.denotes_iff {out file : Bytes} {line col : Int64}
    (h : Navigates out file line col) {env : Envelope} (hdecode : Envelope.decode out = .ok env)
    {v : Json} (hvalue : env.value = some v) :
    Locates Denotes v file line.toInt col.toInt ↔ ∃ l c, Locates Keeps v file l c := by
  obtain ⟨env', v', hdecode', -, hvalue', hplace⟩ := h
  obtain rfl := Except.ok.inj (hdecode.symm.trans hdecode')
  obtain rfl := Option.some.inj (hvalue.symm.trans hvalue')
  rcases hplace with hplace | ⟨rfl, -⟩
  · exact hplace.denotes_iff
  · constructor
    · exact fun h => Bool.noConfusion h.shape
    · rintro ⟨l, c, h⟩
      exact Bool.noConfusion h.shape

theorem navigates_iff_of_return {out : Bytes} {env : Envelope}
    (hdecode : Envelope.decode out = .ok env) (hcls : env.cls = "return") {file : Bytes}
    {line col : Int64} :
    Navigates out file line col ↔
      Payload.Locate.ofJson env.value = .ok { file := file, pos := ⟨line, col⟩ } := by
  have hzero : (⟨line, col⟩ : Pos) = {} ↔ line = 0 ∧ col = 0 := by rw [Pos.mk.injEq]
  constructor
  · rintro ⟨env', v, hdecode', -, hvalue, hplace⟩
    rw [hdecode] at hdecode'
    obtain rfl := Except.ok.inj hdecode'
    rw [hvalue, Payload.Locate.ofJson_silent_iff (Envelope.legal_value hdecode hvalue), hzero]
    exact hplace
  · intro hread
    cases hvalue : env.value with
    | none =>
        rw [hvalue] at hread
        cases hread
    | some v =>
        rw [hvalue, Payload.Locate.ofJson_silent_iff (Envelope.legal_value hdecode hvalue), hzero]
          at hread
        exact ⟨env, v, hdecode, hcls, hvalue, hread⟩

theorem openAt_mem_ofOutput {r : Request} {focused : Bool} {out file : Bytes} {line col : Int64} :
    .openAt file line col ∈ (ofOutput r focused out).calls ↔
      r.kind = .definition ∧ Navigates out file line col := by
  unfold ofOutput
  cases hdecode : Envelope.decode out with
  | error err => simp [openAt_notMem_failure, Navigates, hdecode]
  | ok env =>
      cases hcomplaint : env.complaint? with
      | some c =>
          have hcls : env.cls ≠ "return" := by
            rw [ne_eq, ← Envelope.complaint?_eq_none_iff, hcomplaint]
            exact nofun
          simp [hcomplaint, openAt_notMem_ofComplaint, Navigates, hdecode, hcls]
      | none =>
          have hcls := (Envelope.complaint?_eq_none_iff env).mp hcomplaint
          simp only [hcomplaint, openAt_mem_ofValue, navigates_iff_of_return hdecode hcls]

theorem openAt_mem_ofResult {settings : Settings} {opened focused : Bool} {cur : Running}
    {res : RunResult} {file : Bytes} {line col : Int64} :
    .openAt file line col ∈ (ofResult settings opened focused cur res).calls ↔
      cur.request.kind = .definition ∧ cur.closed = false ∧ res.fault = none ∧
        Navigates res.output file line col := by
  unfold ofResult
  cases hclosed : cur.closed with
  | true => simp [openAt_notMem_failure]
  | false =>
      cases hfault : res.fault with
      | none => simp [openAt_mem_ofOutput]
      | some f => simp [openAt_notMem_ofFault]

end Effect

namespace World

/-- Handling the result of the request that is running tells the editor what its effect says. -/
theorem hostCalls_handle (settings : Settings) (mayWatch : Bool) (as : List Action)
    (cur : Running) (running : ((start settings mayWatch).run as).bridge.running = some cur)
    (e : Editor) (res : RunResult) :
    let b := ((start settings mayWatch).run as).bridge
    ((b.popRunning cur).handle e cur res).1.hostCalls =
      b.hostCalls ++ ((b.popRunning cur).effectOf e cur res).calls := by
  have hsound := sound_run settings mayWatch as
  have hpop := Bridge.popRunning_of_head _ cur (hsound.coherent.head cur running)
  have hstate : (((start settings mayWatch).run as).bridge.popRunning cur).state =
      cur.request.kind.state := by
    rw [hpop]
    exact hsound.coherent.busy cur running
  have hpopped : (((start settings mayWatch).run as).bridge.popRunning cur).outside =
      ((start settings mayWatch).run as).bridge.outside := by
    rw [hpop]
    rfl
  have houtside := (Bridge.handle_performs _ e cur res hstate).outside
  rw [hpopped] at houtside
  exact congrArg Outside.calls houtside

/-- The editor is taken to a place exactly by the reply to a definition that names the
place, while the document is open, in every run; and by the empty text, to line 0 of the
file without a name. The line and the column are the words that are passed on for those of
the reply. They are the numbers of the reply exactly if these are integers that can be
kept. -/
theorem openAt_iff_located (settings : Settings) (mayWatch : Bool) (as : List Action)
    (cur : Running) (running : ((start settings mayWatch).run as).bridge.running = some cur)
    (e : Editor) (res : RunResult) :
    let b := ((start settings mayWatch).run as).bridge
    let b' := ((b.popRunning cur).handle e cur res).1
    ∃ calls, b'.hostCalls = b.hostCalls ++ calls ∧
      ∀ file line col,
        (.openAt file line col ∈ calls ↔
          cur.request.kind = .definition ∧ cur.closed = false ∧ res.fault = none ∧
            ∃ env v, Envelope.decode res.output = .ok env ∧ env.cls = "return" ∧
              env.value = some v ∧
              (Locates PassesOn v file line col ∨
                v = .string [] ∧ file = [] ∧ line = 0 ∧ col = 0)) ∧
        (.openAt file line col ∈ calls →
          ∀ env v, Envelope.decode res.output = .ok env → env.value = some v →
            (Locates Denotes v file line.toInt col.toInt ↔ ∃ l c, Locates Keeps v file l c)) := by
  intro b b'
  refine ⟨_, hostCalls_handle settings mayWatch as cur running e res, fun file line col =>
    ⟨Effect.openAt_mem_ofResult, fun hcall env v hdecode hvalue => ?_⟩⟩
  obtain ⟨-, -, -, hnavigates⟩ := Effect.openAt_mem_ofResult.mp hcall
  exact hnavigates.denotes_iff hdecode hvalue

/-- The client asks for the definition of an identifier, and the dispatcher takes the
signal. -/
def lookUp : List Action :=
  .ask (.definition 1 8) (some page) :: uninterrupted 0 ++ [.wake]

def lookedUp : Running where
  request := Request.build 0 (.definition 1 8) (some page)

def placeAt (line col : Bytes) : Json :=
  .object [] [(⟨[], "file", []⟩, ⟨[], .string "b.ml", []⟩),
    (⟨[], "pos", []⟩, ⟨[], .object [] [(⟨[], "line", []⟩, ⟨[], .number line, []⟩),
      (⟨[], "col", []⟩, ⟨[], .number col, []⟩)], []⟩)]

theorem legal_placeAt {line col : Bytes} (hline : IsLiteral line) (hcol : IsLiteral col) :
    Legal (placeAt line col) := by
  have hname : Legal (.string "b.ml") := .string (.of_plain (by decide))
  have hpos : Legal (.object [] [(⟨[], "line", []⟩, ⟨[], .number line, []⟩),
      (⟨[], "col", []⟩, ⟨[], .number col, []⟩)]) := by
    refine Legal.of_members
      (List.forall_mem_cons.mpr ⟨?_, List.forall_mem_singleton.mpr ?_⟩)
    · exact ⟨Spaced.good_of_plain (by decide), nofun, .number hline, nofun⟩
    · exact ⟨Spaced.good_of_plain (by decide), nofun, .number hcol, nofun⟩
  refine Legal.of_members (List.forall_mem_cons.mpr ⟨?_, List.forall_mem_singleton.mpr ?_⟩)
  · exact ⟨Spaced.good_of_plain (by decide), nofun, hname, nofun⟩
  · exact ⟨Spaced.good_of_plain (by decide), nofun, hpos, nofun⟩

theorem locates_placeAt {α : Type} {reads : Bytes → α → Prop} {line col : Bytes} {l c : α}
    (hline : reads line l) (hcol : reads col c) : Locates reads (placeAt line col) "b.ml" l c := by
  have hname : StandsFor (Bytes.ofString "b.ml") "b.ml" := standsFor_self (by decide)
  have hfile : StandsFor (Bytes.ofString "file") "file" := standsFor_self (by decide)
  have hpos : StandsFor (Bytes.ofString "pos") "pos" := standsFor_self (by decide)
  have hfirst : StandsFor (Bytes.ofString "line") "line" := standsFor_self (by decide)
  have hsecond : StandsFor (Bytes.ofString "col") "col" := standsFor_self (by decide)
  have hfile' : ¬ StandsFor (Bytes.ofString "file") "pos" :=
    fun h => absurd h.unescape_eq (by decide)
  have hfirst' : ¬ StandsFor (Bytes.ofString "line") "col" :=
    fun h => absurd h.unescape_eq (by decide)
  refine ⟨rfl, ⟨"b.ml", isFirst_cons.mpr (Or.inl ⟨hfile, rfl⟩), hname⟩, by decide, ?_⟩
  refine ⟨_, isFirst_cons.mpr (Or.inr ⟨hfile', isFirst_cons.mpr (Or.inl ⟨hpos, rfl⟩)⟩), rfl, ?_, ?_⟩
  · exact ⟨line, isFirst_cons.mpr (Or.inl ⟨hfirst, rfl⟩), hline⟩
  · exact ⟨col, isFirst_cons.mpr
      (Or.inr ⟨hfirst', isFirst_cons.mpr (Or.inl ⟨hsecond, rfl⟩)⟩), hcol⟩

theorem running_lookUp : ((start brittle false).run lookUp).bridge.running = some lookedUp := by
  decide

theorem openAt_of_place :
    let b := ((start brittle false).run lookUp).bridge
    let res : RunResult := ⟨(Envelope.returned ⟨[], placeAt "3" "4", []⟩).text, none, 0⟩
    b.running = some lookedUp ∧
      ∃ calls, ((b.popRunning lookedUp).handle desk lookedUp res).1.hostCalls =
          b.hostCalls ++ calls ∧ .openAt "b.ml" 3 4 ∈ calls ∧
        Locates Denotes (placeAt "3" "4") "b.ml" 3 4 := by
  have hthree : IsWhole "3" := isWhole_of_all (by decide) (by decide)
  have hfour : IsWhole "4" := isWhole_of_all (by decide) (by decide)
  have hdecode := (Envelope.decodes_returned (v := ⟨[], placeAt "3" "4", []⟩)
    ⟨nofun, legal_placeAt hthree.isLiteral hfour.isLiteral, nofun⟩).decode_eq
  obtain ⟨calls, hcalls, hiff⟩ := openAt_iff_located brittle false lookUp lookedUp running_lookUp desk
    ⟨(Envelope.returned ⟨[], placeAt "3" "4", []⟩).text, none, 0⟩
  have hwords : Locates PassesOn (placeAt "3" "4") "b.ml" 3 4 :=
    locates_placeAt (.integer (.plain hthree)) (.integer (.plain hfour))
  have hkept : Locates Keeps (placeAt "3" "4") "b.ml" 3 4 :=
    locates_placeAt ⟨IsNumeral.denotes (.plain hthree), by decide, Or.inl ⟨_, .plain hthree⟩⟩
      ⟨IsNumeral.denotes (.plain hfour), by decide, Or.inl ⟨_, .plain hfour⟩⟩
  have hmem : .openAt "b.ml" 3 4 ∈ calls :=
    (hiff _ _ _).1.mpr ⟨rfl, rfl, rfl, _, _, hdecode, rfl, rfl, Or.inl hwords⟩
  exact ⟨running_lookUp, calls, hcalls, hmem, ((hiff _ _ _).2 hmem _ _ hdecode rfl).mpr ⟨3, 4, hkept⟩⟩

theorem hostCalls_of_lookedUp {v : Json} (h : Legal v) :
    ((((start brittle false).run lookUp).bridge.popRunning lookedUp).handle desk lookedUp
      ⟨(Envelope.returned ⟨[], v, []⟩).text, none, 0⟩).1.hostCalls =
      (Effect.ofDefinition (some v)).calls := by
  have hnone : ((start brittle false).run lookUp).bridge.hostCalls = [] := by decide
  have hdecode := (Envelope.decodes_returned (v := ⟨[], v, []⟩) ⟨nofun, h, nofun⟩).decode_eq
  refine (hostCalls_handle _ _ _ _ running_lookUp _ _).trans ?_
  rw [hnone, List.nil_append]
  simp only [Bridge.effectOf, Effect.ofResult, Effect.ofOutput, hdecode]
  rfl

/-- The reply is the empty text, or it names a place by numbers that are too large or no integers,
and the editor is taken somewhere else. -/
theorem openAt_of_strayReplies :
    let b := ((start brittle false).run lookUp).bridge
    let calls (v : Json) := ((b.popRunning lookedUp).handle desk lookedUp
      ⟨(Envelope.returned ⟨[], v, []⟩).text, none, 0⟩).1.hostCalls
    let far := placeAt "18446744073709551617" "18446744073709551620"
    let between := placeAt "1.9" "4.7"
    b.running = some lookedUp ∧ calls (.string []) = [.openAt [] 0 0] ∧
      (calls far = [.openAt "b.ml" 1 4] ∧ Locates IsNumeral far "b.ml" (2 ^ 64 + 1) (2 ^ 64 + 4)) ∧
      calls between = [.openAt "b.ml" 1 4] ∧
        Locates Denotes between "b.ml" (19 / 10) (47 / 10) := by
  intro b calls far between
  have hline : IsWhole "18446744073709551617" := isWhole_of_all (by decide) (by decide)
  have hcol : IsWhole "18446744073709551620" := isWhole_of_all (by decide) (by decide)
  have hone : IsWhole "1" := isWhole_of_all (by decide) (by decide)
  have hfour : IsWhole "4" := isWhole_of_all (by decide) (by decide)
  have hpart : Denotes "1.9" (19 / 10) := denotes_tenths hone (d := Bytes.byte '9') (by decide)
  have hpart' : Denotes "4.7" (47 / 10) := denotes_tenths hfour (d := Bytes.byte '7') (by decide)
  have hbetween : Legal between :=
    legal_placeAt (isLiteral_iff_denotes.mpr ⟨_, hpart⟩) (isLiteral_iff_denotes.mpr ⟨_, hpart'⟩)
  refine ⟨running_lookUp, hostCalls_of_lookedUp (.string .nil), ⟨?_, ?_⟩, ?_, ?_⟩
  · refine (hostCalls_of_lookedUp (legal_placeAt hline.isLiteral hcol.isLiteral)).trans ?_
    decide +kernel
  · exact locates_placeAt (.plain hline) (.plain hcol)
  · refine (hostCalls_of_lookedUp hbetween).trans ?_
    decide +kernel
  · exact locates_placeAt hpart hpart'

end World

end MerlinBridge
