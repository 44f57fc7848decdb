import MerlinBridge.Proofs.ConfigurationLayers

/-!
# The time for requests among the flags

The flags can set the time for requests, in nanoseconds. It becomes part of the
configuration as a text, and the settings read that text again. `ValidBut` says that
a configuration makes sense apart from this time, which the layers below the flags
may have got wrong. Then every positive time among the flags is the time for
requests, to the nanosecond, and a negative one is the error that is reported
(`timeout_flag_exact`).
-/

namespace MerlinBridge

open Config

namespace Console

namespace Flags

def withTimeout (flags : Flags) (d : Duration) : Flags :=
  { flags with timeout := d }

theorem parseFrom_timeout (flags : Flags) {written : Bytes} {d : Duration}
    (h : Duration.parse written = .ok d) (args : List Bytes) :
    parseFrom flags ("-timeout" :: written :: args) = parseFrom (flags.withTimeout d) args := by
  have hform : form "-timeout" = .flag "timeout" none := by decide
  have htail : Bytes.ofString "timeout" ≠ "tail" := by decide
  have htakes : takesValue "timeout" = true := by decide
  have hset : flags.set "timeout" written = .ok (flags.withTimeout d) := by
    rw [set, if_neg (by decide), if_neg (by decide), h]
    rfl
  rw [parseFrom, hform]
  simp only [if_neg htail, htakes, if_true, hset]

theorem layer_withTimeout (flags : Flags) (d : Duration) {f : Field} (h : f ≠ .requestTimeout) :
    (flags.withTimeout d).layer f = flags.layer f := by
  cases f with
  | requestTimeout => exact absurd rfl h
  | _ => rfl

theorem layer_withTimeout_self (flags : Flags) {d : Duration} (h : d ≠ 0) :
    (flags.withTimeout d).layer .requestTimeout = some (some (.time d)) :=
  if_neg h

end Flags

end Console

namespace Settings

def withRequestTimeout (s : Settings) (d : Duration) : Settings :=
  { s with requestTimeout := d }

theorem get_withRequestTimeout (s : Settings) (d : Duration) {f : Field}
    (h : f ≠ .requestTimeout) : (s.withRequestTimeout d).get f = s.get f := by
  cases f with
  | requestTimeout => exact absurd rfl h
  | _ => rfl

theorem InRange.withRequestTimeout {s : Settings} {d e : Duration}
    (h : (s.withRequestTimeout d).InRange) (he : 0 ≤ e) : (s.withRequestTimeout e).InRange :=
  ⟨h.path, h.attempts, h.threshold, he, h.retire, h.cooldown⟩

end Settings

namespace Config

theorem duration_of_neg {field written : Bytes} {d : Duration} (h : Duration.parse written = .ok d)
    (hneg : d < 0) : duration field written = .error (.negativeDuration field written) := by
  simp only [duration, h, if_pos hneg]

/-- The time for requests is the first of the times that are checked. -/
theorem resolve_of_badRequest {c : Config} {path : Bytes} {attempts threshold : Int64}
    {request : Bytes} {e : Error} (hpath : c.merlinPath = some path)
    (hattempts : c.startAttempts = some attempts) (hthreshold : c.breakerThreshold = some threshold)
    (hrequest : c.requestTimeout = some request) (named : path ≠ []) (one : 1 ≤ attempts)
    (zero : 0 ≤ threshold) (bad : duration "RequestTimeout" request = .error e) :
    c.resolve = .error e := by
  unfold resolve
  simp only [hpath, hattempts, hthreshold, hrequest, Option.getD_some, if_neg named,
    if_neg (Int64.not_lt.mpr one), if_neg (Int64.not_lt.mpr zero), bad]
  rfl

end Config

namespace Console.Surroundings

variable {s : Surroundings} {flags : Flags} {file : Config}

def stacked (s : Surroundings) (flags : Flags) (file : Config) : Config :=
  (((Config.default s.tempDir).apply file).apply (ofEnvironment s.environment)).apply
    (ofFlags flags)

theorem layer_stacked (hsense : ∀ f, Layer.ofEnvironment s.environment f ≠ some none) (f : Field) :
    ((Config.default s.tempDir).apply (s.stacked flags file)).layer f =
      (s.layers flags file).findSome? fun l => l f := by
  simp only [stacked, layers, findSome?_layer_cons, List.findSome?_nil, Option.or_none, layer_apply,
    layer_ofFlags, layer_ofEnvironment hsense, Option.or_assoc, Option.or_self]

/-- Everything but the time for requests makes sense: the file can be loaded, the environment can
be read, and the settings of the highest layers, which are `rest` apart from that time, are in
range. -/
structure ValidBut (s : Surroundings) (flags : Flags) (file : Config) (rest : Settings) :
    Prop where
  loads : s.Loads flags file
  readable : ∀ f, Layer.ofEnvironment s.environment f ≠ some none
  resolves : ∀ f, f ≠ .requestTimeout →
    (s.layers flags file).findSome? (fun l => l f) = some (some (rest.get f))
  inRange : (rest.withRequestTimeout 0).InRange

theorem findSome?_layers_withTimeout (s : Surroundings) (flags : Flags) (file : Config)
    (d : Duration) {f : Field} (h : f ≠ .requestTimeout) :
    (s.layers (flags.withTimeout d) file).findSome? (fun l => l f) =
      (s.layers flags file).findSome? fun l => l f := by
  simp only [layers, findSome?_layer_cons, Flags.layer_withTimeout flags d h]

theorem resolves_withTimeout {rest : Settings} (h : s.ValidBut flags file rest) {d : Duration}
    (hd : d ≠ 0) :
    Resolves (s.layers (flags.withTimeout d) file) (rest.withRequestTimeout d) := by
  intro f
  by_cases hf : f = .requestTimeout
  · subst hf
    rw [layers, findSome?_layer_cons, flags.layer_withTimeout_self hd]
    rfl
  · rw [findSome?_layers_withTimeout s flags file d hf, rest.get_withRequestTimeout d hf]
    exact h.resolves f hf

theorem config_withTimeout {rest : Settings} (h : s.ValidBut flags file rest) {d : Duration}
    (hd : 0 < d) :
    s.config (flags.withTimeout d) = .ok (s.stacked (flags.withTimeout d) file) ∧
      (s.stacked (flags.withTimeout d) file).settings s.tempDir =
        .ok (rest.withRequestTimeout d) := by
  have hne : d ≠ 0 := (Int64.ne_of_lt hd).symm
  have hst : (s.stacked (flags.withTimeout d) file).settings s.tempDir =
      .ok (rest.withRequestTimeout d) :=
    Config.settings_eq_ok_iff.mpr
      ⟨(resolves_layers_iff h.readable rfl).mpr (resolves_withTimeout h hne),
        h.inRange.withRequestTimeout (Int64.le_of_lt hd)⟩
  exact ⟨config_eq_ok_iff.mpr ⟨file, h.loads, h.readable, rfl, _, hst⟩, hst⟩

theorem requestTimeout_stacked (s : Surroundings) (flags : Flags) (file : Config) {d : Duration}
    (hd : d ≠ 0) :
    (s.stacked (flags.withTimeout d) file).requestTimeout = some (Duration.text d) := by
  have hflags : (ofFlags (flags.withTimeout d)).requestTimeout = some (Duration.text d) := if_neg hd
  simp only [stacked, apply, hflags, Option.some_or]

/-- A field that is no time for requests is the same whatever that time is. -/
theorem ValidBut.layer_stacked {rest : Settings} (h : s.ValidBut flags file rest) (d : Duration)
    {f : Field} (hf : f ≠ .requestTimeout) :
    ((Config.default s.tempDir).apply (s.stacked (flags.withTimeout d) file)).layer f =
      some (some (rest.get f)) := by
  rw [Surroundings.layer_stacked h.readable, findSome?_layers_withTimeout s flags file d hf]
  exact h.resolves f hf

theorem config_withTimeout_of_neg {rest : Settings} (h : s.ValidBut flags file rest) {d : Duration}
    (hd : d < 0) :
    s.config (flags.withTimeout d) =
      .error (.invalid (.negativeDuration "RequestTimeout" (Duration.text d))) := by
  have hne : d ≠ 0 := Int64.ne_of_lt hd
  obtain ⟨path, hpath, hpathEq⟩ := Option.map_eq_some_iff.mp
    (h.layer_stacked d (f := .merlinPath) (by decide))
  obtain ⟨attempts, hattempts, hattemptsEq⟩ := Option.map_eq_some_iff.mp
    (h.layer_stacked d (f := .startAttempts) (by decide))
  obtain ⟨threshold, hthreshold, hthresholdEq⟩ := Option.map_eq_some_iff.mp
    (h.layer_stacked d (f := .breakerThreshold) (by decide))
  simp only [Settings.get, Option.some.injEq, Setting.text.injEq, Setting.number.injEq] at *
  have hrequest : ((Config.default s.tempDir).apply
      (s.stacked (flags.withTimeout d) file)).requestTimeout = some (Duration.text d) := by
    simp only [apply, s.requestTimeout_stacked flags file hne, Option.some_or]
  have hst : (s.stacked (flags.withTimeout d) file).settings s.tempDir =
      .error (.negativeDuration "RequestTimeout" (Duration.text d)) :=
    resolve_of_badRequest hpath hattempts hthreshold hrequest (hpathEq ▸ h.inRange.path)
      (hattemptsEq ▸ h.inRange.attempts) (hthresholdEq ▸ h.inRange.threshold)
      (duration_of_neg (Duration.parse_text d) hd)
  have hbase : s.fileConfig (flags.withTimeout d) = .ok ((Config.default s.tempDir).apply file) :=
    fileConfig_eq_ok_iff.mpr ⟨file, h.loads, rfl⟩
  have henv := applyEnvironment_eq_iff.mpr
    ⟨h.readable, (rfl : ((Config.default s.tempDir).apply file).apply _ = _)⟩
  rw [stacked] at hst
  simp only [config, hbase, henv, flagConfig_eq, hst]

theorem exists_validBut {d : Duration} (hd : d ≠ 0) {c : Config}
    (h : s.config (flags.withTimeout d) = .ok c) :
    0 ≤ d ∧ ∃ file rest, s.ValidBut flags file rest := by
  obtain ⟨file, hfile, hsense, hc, st, hst⟩ := config_eq_ok_iff.mp h
  obtain ⟨hresolves, hrange⟩ := Config.settings_eq_ok_iff.mp hst
  have hlayers := (resolves_layers_iff hsense hc).mp hresolves
  have htime : st.requestTimeout = d := by
    have hrequest := hlayers .requestTimeout
    rw [layers, findSome?_layer_cons, flags.layer_withTimeout_self hd] at hrequest
    simpa [Settings.get] using hrequest.symm
  refine ⟨htime ▸ hrange.request, file, st, hfile, hsense, ?_, ?_⟩
  · intro f hf
    rw [← findSome?_layers_withTimeout s flags file d hf]
    exact hlayers f
  · exact Settings.InRange.withRequestTimeout (d := st.requestTimeout) hrange Int64.le_rfl

/-- A time among the flags, however it is written there, that is positive is the time for requests
of every configuration that makes sense apart from that time, and the other settings do not depend
on it. A negative time makes every configuration fail, and if the rest of it makes sense, then with
that time as the reason. -/
theorem timeout_flag_exact (s : Surroundings) (flags : Flags) :
    (∀ written d args, Duration.parse written = .ok d →
      Flags.parseFrom flags ("-timeout" :: written :: args) =
        Flags.parseFrom (flags.withTimeout d) args) ∧
    (∀ d : Duration, 0 < d → ∀ file rest, s.ValidBut flags file rest →
      ∃ c, s.config (flags.withTimeout d) = .ok c ∧ c.requestTimeout = some (Duration.text d) ∧
        c.settings s.tempDir = .ok (rest.withRequestTimeout d)) ∧
    (∀ d : Duration, 0 < d → ∀ c, s.config (flags.withTimeout d) = .ok c →
      ∃ file rest, s.ValidBut flags file rest) ∧
    ∀ d : Duration, d < 0 →
      (∃ e, s.config (flags.withTimeout d) = .error e) ∧
      ∀ file rest, s.ValidBut flags file rest → s.config (flags.withTimeout d) =
        .error (.invalid (.negativeDuration "RequestTimeout" (Duration.text d))) := by
  refine ⟨fun written d args h => flags.parseFrom_timeout h args, ?_, ?_, ?_⟩
  · intro d hd file rest hvalid
    obtain ⟨hconfig, hsettings⟩ := config_withTimeout hvalid hd
    exact ⟨_, hconfig, s.requestTimeout_stacked flags file (Int64.ne_of_lt hd).symm, hsettings⟩
  · intro d hd c hc
    exact (exists_validBut (Int64.ne_of_lt hd).symm hc).2
  · intro d hd
    refine ⟨?_, fun file rest hvalid => config_withTimeout_of_neg hvalid hd⟩
    cases hconfig : s.config (flags.withTimeout d) with
    | error e => exact ⟨e, rfl⟩
    | ok c =>
        exact absurd (exists_validBut (Int64.ne_of_lt hd) hconfig).1 (Int64.not_le.mpr hd)

def lateHost : Surroundings where
  disk := {}
  environment := fun name => if name = Variable.requestTimeout then "-5s" else []
  tempDir := "/tmp"

/-- Without a time among the flags it is refused. The longest time is kept to the last nanosecond,
and the most negative one is refused in its own right. -/
theorem lateHost_with_extreme_timeouts :
    lateHost.config {} = .error (.invalid (.negativeDuration "RequestTimeout" "-5s")) ∧
    (∃ c st, lateHost.config (({} : Flags).withTimeout Int64.maxValue) = .ok c ∧
      c.requestTimeout = some "2562047h47m16.854775807s" ∧
      c.settings "/tmp" = .ok st ∧ st.requestTimeout = Int64.maxValue) ∧
    lateHost.config (({} : Flags).withTimeout Int64.minValue) =
      .error (.invalid (.negativeDuration "RequestTimeout" "-2562047h47m16.854775808s")) := by
  have hvalid : lateHost.ValidBut {} {}
      ⟨"ocamlmerlin", [], "/tmp/merlin.ocamlcreator.log", 0, 3000000000, 3, 0, 30000000000,
        true⟩ := by
    refine ⟨rfl, ofEnvironment_ne_iff.mpr ⟨nofun, nofun⟩, fun f hf => ?_, ?_⟩
    · cases f with
      | requestTimeout => exact absurd rfl hf
      | _ => rfl
    · exact ⟨by decide, by decide, by decide, by decide, by decide, by decide⟩
  have hlongest : Duration.text Int64.maxValue = "2562047h47m16.854775807s" := by decide +kernel
  have hleast : Duration.text Int64.minValue = "-2562047h47m16.854775808s" := by decide +kernel
  obtain ⟨-, hpositive, -, hnegative⟩ := timeout_flag_exact lateHost {}
  obtain ⟨c, hc, htext, hst⟩ := hpositive Int64.maxValue (by decide) _ _ hvalid
  have hrefused := (hnegative Int64.minValue (by decide)).2 _ _ hvalid
  rw [hlongest] at htext
  rw [hleast] at hrefused
  exact ⟨by decide +kernel, ⟨c, _, hc, htext, hst, rfl⟩, hrefused⟩

end Console.Surroundings

end MerlinBridge
