import MerlinBridge.Console.Configure
import MerlinBridge.Proofs.DurationText
import MerlinBridge.Settings.Field

/-!
# Layers of configuration

A `Layer` says of each field what it sets it to, if it sets it: the flags, the environment, a
configuration file and the defaults are layers, each described by itself. `Resolves` is the
rule that the highest layer that sets a field decides it. The settings of a command are those
that resolve its four layers and are in range (`settings_by_highest_layer`), although they
come about by overriding one configuration field by field, by writing a time and reading it
again, and by putting the defaults underneath a second time.
-/

namespace MerlinBridge

open Config

inductive Setting where
  | text (t : Bytes)
  | texts (ts : List Bytes)
  | number (n : Int64)
  | switch (b : Bool)
  | time (d : Duration)

namespace Settings

def get (s : Settings) : Field → Setting
  | .merlinPath => .text s.merlinPath
  | .merlinFlags => .texts s.merlinFlags
  | .merlinLog => .text s.merlinLog
  | .requestTimeout => .time s.requestTimeout
  | .retireTimeout => .time s.retireTimeout
  | .startAttempts => .number s.startAttempts
  | .breakerThreshold => .number s.breakerThreshold
  | .breakerCooldown => .time s.breakerCooldown
  | .watchProjectFiles => .switch s.watchProjectFiles

structure InRange (s : Settings) : Prop where
  path : s.merlinPath ≠ []
  attempts : 1 ≤ s.startAttempts
  threshold : 0 ≤ s.breakerThreshold
  request : 0 ≤ s.requestTimeout
  retire : 0 ≤ s.retireTimeout
  cooldown : 0 ≤ s.breakerCooldown

theorem eq_of_get {s t : Settings} (h : ∀ f, s.get f = t.get f) : s = t := by
  cases s
  cases t
  have hpath := h .merlinPath
  have hflags := h .merlinFlags
  have hlog := h .merlinLog
  have hrequest := h .requestTimeout
  have hretire := h .retireTimeout
  have hattempts := h .startAttempts
  have hthreshold := h .breakerThreshold
  have hcooldown := h .breakerCooldown
  have hwatch := h .watchProjectFiles
  simp only [get, Setting.text.injEq, Setting.texts.injEq, Setting.number.injEq,
    Setting.switch.injEq, Setting.time.injEq] at *
  simp [*]

end Settings

/-- What a layer sets a field to. There is nothing for a field that it does not set, and
`some none` for one that it sets to something that makes no sense. -/
abbrev Layer := Field → Option (Option Setting)

def Layer.time? (t : Bytes) : Option Setting :=
  match Duration.parse t with
  | .ok d => some (.time d)
  | .error _ => none

def Config.layer (c : Config) : Layer
  | .merlinPath => c.merlinPath.map fun t => some (.text t)
  | .merlinFlags => c.merlinFlags.map fun ts => some (.texts ts)
  | .merlinLog => c.merlinLog.map fun t => some (.text t)
  | .requestTimeout => c.requestTimeout.map Layer.time?
  | .retireTimeout => c.retireTimeout.map Layer.time?
  | .startAttempts => c.startAttempts.map fun n => some (.number n)
  | .breakerThreshold => c.breakerThreshold.map fun n => some (.number n)
  | .breakerCooldown => c.breakerCooldown.map Layer.time?
  | .watchProjectFiles => c.watchProjectFiles.map fun b => some (.switch b)

def Layer.ofEnvironment (env : Shell.Environment) : Layer
  | .merlinPath => (env.get? Variable.merlinPath).map fun v => some (.text v)
  | .merlinFlags => (env.get? Variable.merlinFlags).map fun v => (Shell.fields? env v).map .texts
  | .requestTimeout => (env.get? Variable.requestTimeout).map Layer.time?
  | _ => none

def Console.Flags.layer (flags : Console.Flags) : Layer
  | .merlinPath => if flags.merlin = [] then none else some (some (.text flags.merlin))
  | .requestTimeout => if flags.timeout = 0 then none else some (some (.time flags.timeout))
  | _ => none

/-- Each setting is the one of the first layer that sets its field. -/
def Resolves (layers : List Layer) (s : Settings) : Prop :=
  ∀ f, layers.findSome? (fun l => l f) = some (some (s.get f))

theorem findSome?_layer_cons (l : Layer) (ls : List Layer) (f : Field) :
    (l :: ls).findSome? (fun l => l f) = (l f).or (ls.findSome? fun l => l f) := by
  rw [List.findSome?_cons]
  cases l f with
  | none => rfl
  | some v => rfl

namespace Config

theorem apply_assoc (a b c : Config) : (a.apply b).apply c = a.apply (b.apply c) := by
  simp [apply, Option.or_assoc]

theorem layer_apply (lower upper : Config) (f : Field) :
    (lower.apply upper).layer f = (upper.layer f).or (lower.layer f) := by
  cases f <;> simp [layer, apply, Option.map_or]

theorem default_apply_default_apply (tempDir : Bytes) (c : Config) :
    (Config.default tempDir).apply ((Config.default tempDir).apply c) =
      (Config.default tempDir).apply c := by
  have hself : (Config.default tempDir).apply (Config.default tempDir) =
      Config.default tempDir := rfl
  rw [← apply_assoc, hself]

/-- A configuration on top of the defaults is one whose every field is set. -/
theorem exists_default_apply (tempDir : Bytes) (c : Config) :
    ∃ path flags log request retire attempts threshold cooldown watch,
      (Config.default tempDir).apply c = ⟨some path, some flags, some log, some request,
        some retire, some attempts, some threshold, some cooldown, some watch⟩ := by
  simp [apply, Config.default, Option.or_some]

theorem time?_eq_some_iff {t : Bytes} {d : Duration} :
    Layer.time? t = some (.time d) ↔ Duration.parse t = .ok d := by
  unfold Layer.time?
  cases Duration.parse t with
  | error e => simp
  | ok d' => simp

theorem duration_eq_ok_iff {field t : Bytes} {d : Duration} :
    duration field t = .ok d ↔ Duration.parse t = .ok d ∧ 0 ≤ d := by
  unfold duration
  cases Duration.parse t with
  | error e => simp
  | ok d' =>
      by_cases hneg : d' < 0
      · simp only [if_pos hneg, Except.ok.injEq]
        constructor
        · exact nofun
        · rintro ⟨rfl, hd⟩
          exact absurd hd (Int64.not_le.mpr hneg)
      · simp only [if_neg hneg, Except.ok.injEq]
        constructor
        · rintro rfl
          exact ⟨rfl, Int64.not_lt.mp hneg⟩
        · exact And.left

theorem bind_eq_ok_iff {α β : Type} {x : Except Error α} {g : α → Except Error β} {b : β} :
    x >>= g = .ok b ↔ ∃ a, x = .ok a ∧ g a = .ok b := by
  cases x with
  | error e => simp [bind, Except.bind]
  | ok a => simp [bind, Except.bind]

/-- The checks on a configuration whose every field is set, in order. -/
theorem resolve_full {path log request retire cooldown : Bytes} {flags : List Bytes}
    {attempts threshold : Int64} {watch : Bool} {s : Settings} :
    Config.resolve ⟨some path, some flags, some log, some request, some retire, some attempts,
        some threshold, some cooldown, some watch⟩ = .ok s ↔
      path ≠ [] ∧ 1 ≤ attempts ∧ 0 ≤ threshold ∧
        ∃ d, duration "RequestTimeout" request = .ok d ∧
          ∃ e, duration "RetireTimeout" retire = .ok e ∧
            ∃ k, duration "BreakerCooldown" cooldown = .ok k ∧
              s = ⟨path, flags, log, d, e, attempts, threshold, k, watch⟩ := by
  have hthrow : ∀ {α β : Type} (e : Error) (g : α → Except Error β) (b : β),
      ¬ (throw e >>= g : Except Error β) = .ok b := fun _ _ _ h => nomatch h
  unfold resolve
  simp only [Option.getD_some]
  by_cases hpath : path = []
  · simp only [hpath, if_true, hthrow, ne_eq, not_true, false_and]
  by_cases hattempts : attempts < 1
  · simp only [hpath, if_false, hattempts, if_true, hthrow, Int64.not_le.mpr hattempts, false_and,
      and_false]
  by_cases hthreshold : threshold < 0
  · simp only [hpath, hattempts, if_false, hthreshold, if_true, hthrow,
      Int64.not_le.mpr hthreshold, false_and, and_false]
  · simp only [hpath, hattempts, hthreshold, if_false, bind_eq_ok_iff, pure, Except.pure,
      Except.ok.injEq, ne_eq, not_false_iff, Int64.not_lt.mp hattempts, Int64.not_lt.mp hthreshold,
      true_and, @eq_comm _ s]

/-- A configuration whose every field is set gives the settings that it sets, if these are in
range. -/
theorem resolve_eq_ok_iff {path log request retire cooldown : Bytes} {flags : List Bytes}
    {attempts threshold : Int64} {watch : Bool} {c : Config} {s : Settings}
    (hc : c = ⟨some path, some flags, some log, some request, some retire, some attempts,
      some threshold, some cooldown, some watch⟩) :
    c.resolve = .ok s ↔ (∀ f, c.layer f = some (some (s.get f))) ∧ s.InRange := by
  subst hc
  rw [resolve_full]
  constructor
  · rintro ⟨hpath, hattempts, hthreshold, d, hd, e, he, k, hk, rfl⟩
    obtain ⟨hd, hdpos⟩ := duration_eq_ok_iff.mp hd
    obtain ⟨he, hepos⟩ := duration_eq_ok_iff.mp he
    obtain ⟨hk, hkpos⟩ := duration_eq_ok_iff.mp hk
    refine ⟨fun f => ?_, ⟨hpath, hattempts, hthreshold, hdpos, hepos, hkpos⟩⟩
    cases f with
    | requestTimeout => exact congrArg some (time?_eq_some_iff.mpr hd)
    | retireTimeout => exact congrArg some (time?_eq_some_iff.mpr he)
    | breakerCooldown => exact congrArg some (time?_eq_some_iff.mpr hk)
    | _ => rfl
  · rintro ⟨hlayer, hrange⟩
    have hd := time?_eq_some_iff.mp (Option.some.inj (hlayer .requestTimeout))
    have he := time?_eq_some_iff.mp (Option.some.inj (hlayer .retireTimeout))
    have hk := time?_eq_some_iff.mp (Option.some.inj (hlayer .breakerCooldown))
    have hget : ∀ f v, Config.layer ⟨some path, some flags, some log, some request, some retire,
        some attempts, some threshold, some cooldown, some watch⟩ f = some (some v) →
        s.get f = v :=
      fun f v h => Option.some.inj (Option.some.inj ((hlayer f).symm.trans h))
    have hs : s = ⟨path, flags, log, s.requestTimeout, s.retireTimeout, attempts, threshold,
        s.breakerCooldown, watch⟩ := by
      refine Settings.eq_of_get fun f => ?_
      cases f with
      | requestTimeout => rfl
      | retireTimeout => rfl
      | breakerCooldown => rfl
      | _ => exact hget _ _ rfl
    have hpath : path = s.merlinPath := by rw [hs]
    have hattempts : attempts = s.startAttempts := by rw [hs]
    have hthreshold : threshold = s.breakerThreshold := by rw [hs]
    refine ⟨hpath ▸ hrange.path, hattempts ▸ hrange.attempts, hthreshold ▸ hrange.threshold,
      s.requestTimeout, duration_eq_ok_iff.mpr ⟨hd, hrange.request⟩,
      s.retireTimeout, duration_eq_ok_iff.mpr ⟨he, hrange.retire⟩,
      s.breakerCooldown, duration_eq_ok_iff.mpr ⟨hk, hrange.cooldown⟩, hs⟩

theorem settings_eq_ok_iff {tempDir : Bytes} {c : Config} {s : Settings} :
    c.settings tempDir = .ok s ↔
      Resolves [c.layer, (Config.default tempDir).layer] s ∧ s.InRange := by
  obtain ⟨path, flags, log, request, retire, attempts, threshold, cooldown, watch, hc⟩ :=
    exists_default_apply tempDir c
  rw [settings, resolve_eq_ok_iff hc, Resolves]
  simp only [findSome?_layer_cons, layer_apply, List.findSome?_nil, Option.or_none]

/-! ## The environment and the flags as configurations -/

def ofEnvironment (env : Shell.Environment) : Config where
  merlinPath := env.get? Variable.merlinPath
  merlinFlags := (env.get? Variable.merlinFlags).bind (Shell.fields? env)
  requestTimeout := env.get? Variable.requestTimeout

theorem overridePath_eq (env : Shell.Environment) (c : Config) :
    c.overridePath env = c.apply { merlinPath := env.get? Variable.merlinPath } := by
  unfold overridePath
  cases env.get? Variable.merlinPath with
  | none => exact (apply_empty c).symm
  | some v => rfl

theorem overrideFlags_eq_ok_iff {env : Shell.Environment} {c d : Config} :
    c.overrideFlags env = .ok d ↔
      Layer.ofEnvironment env .merlinFlags ≠ some none ∧
        d = c.apply
          { merlinFlags := (env.get? Variable.merlinFlags).bind (Shell.fields? env) } := by
  unfold overrideFlags Layer.ofEnvironment
  cases env.get? Variable.merlinFlags with
  | none => simp [eq_comm]
  | some v =>
      cases hfields : Shell.fields? env v with
      | none => simp [hfields]
      | some fs => simp [hfields, apply, eq_comm]

theorem overrideTimeout_eq_ok_iff {env : Shell.Environment} {c d : Config} :
    c.overrideTimeout env = .ok d ↔
      Layer.ofEnvironment env .requestTimeout ≠ some none ∧
        d = c.apply { requestTimeout := env.get? Variable.requestTimeout } := by
  unfold overrideTimeout Layer.ofEnvironment
  cases env.get? Variable.requestTimeout with
  | none => simp [eq_comm]
  | some v =>
      cases hparse : Duration.parse v with
      | error e => simp [Layer.time?, hparse]
      | ok t => simp [Layer.time?, hparse, apply, eq_comm]

theorem ofEnvironment_ne_iff {env : Shell.Environment} :
    (∀ f, Layer.ofEnvironment env f ≠ some none) ↔
      Layer.ofEnvironment env .merlinFlags ≠ some none ∧
        Layer.ofEnvironment env .requestTimeout ≠ some none := by
  constructor
  · exact fun h => ⟨h _, h _⟩
  · rintro ⟨hflags, htimeout⟩ f
    cases f with
    | merlinFlags => exact hflags
    | requestTimeout => exact htimeout
    | merlinPath =>
        unfold Layer.ofEnvironment
        cases env.get? Variable.merlinPath with
        | none => exact nofun
        | some v => exact nofun
    | _ => exact nofun

/-- The environment overrides a configuration if it makes sense, and then it is a layer. -/
theorem applyEnvironment_eq_iff {env : Shell.Environment} {c d : Config} :
    c.applyEnvironment env = (d, none) ↔
      (∀ f, Layer.ofEnvironment env f ≠ some none) ∧ d = c.apply (ofEnvironment env) := by
  have hlayers : c.apply (ofEnvironment env) =
      ((c.overridePath env).apply
        { merlinFlags := (env.get? Variable.merlinFlags).bind (Shell.fields? env) }).apply
          { requestTimeout := env.get? Variable.requestTimeout } := by
    rw [overridePath_eq, apply_assoc, apply_assoc]
    simp [apply, ofEnvironment]
  rw [ofEnvironment_ne_iff, hlayers]
  unfold applyEnvironment
  simp only
  cases hflags : (c.overridePath env).overrideFlags env with
  | error e =>
      have hsense : ¬ Layer.ofEnvironment env .merlinFlags ≠ some none := by
        intro hsense
        have hok := (overrideFlags_eq_ok_iff (c := c.overridePath env)).mpr ⟨hsense, rfl⟩
        rw [hflags] at hok
        cases hok
      simp [hsense]
  | ok d' =>
      obtain ⟨hsense, rfl⟩ := overrideFlags_eq_ok_iff.mp hflags
      simp only [hsense, ne_eq, not_false_iff, true_and]
      rw [← ne_eq, ← overrideTimeout_eq_ok_iff]
      split
      · simp [*]
      · simp [*]

/-- The environment as a configuration sets what it sets as a layer. -/
theorem layer_ofEnvironment {env : Shell.Environment}
    (h : ∀ f, Layer.ofEnvironment env f ≠ some none) :
    (ofEnvironment env).layer = Layer.ofEnvironment env := by
  funext f
  cases f with
  | merlinFlags =>
      have hflags := h .merlinFlags
      simp only [layer, ofEnvironment, Layer.ofEnvironment] at hflags ⊢
      cases hget : env.get? Variable.merlinFlags with
      | none => rfl
      | some v =>
          cases hfields : Shell.fields? env v with
          | none => exact absurd (by simp [hget, hfields]) hflags
          | some fs => simp [hfields]
  | _ => rfl

def ofFlags (flags : Console.Flags) : Config where
  merlinPath := if flags.merlin = [] then none else some flags.merlin
  requestTimeout := if flags.timeout = 0 then none else some (Duration.text flags.timeout)

theorem flagConfig_eq (flags : Console.Flags) (c : Config) :
    Console.Surroundings.flagConfig flags c = c.apply (ofFlags flags) := by
  unfold Console.Surroundings.flagConfig ofFlags
  by_cases hmerlin : flags.merlin = []
  · by_cases htimeout : flags.timeout = 0
    · simp [hmerlin, htimeout]
    · simp [hmerlin, htimeout, apply]
  · by_cases htimeout : flags.timeout = 0
    · simp [hmerlin, htimeout, apply]
    · simp [hmerlin, htimeout, apply]

/-- The time among the flags is written and read again, which does not change it. -/
theorem layer_ofFlags (flags : Console.Flags) : (ofFlags flags).layer = flags.layer := by
  funext f
  cases f with
  | merlinPath =>
      simp only [layer, ofFlags, Console.Flags.layer]
      split
      · rfl
      · rfl
  | requestTimeout =>
      simp only [layer, ofFlags, Console.Flags.layer]
      split
      · rfl
      · exact congrArg some (time?_eq_some_iff.mpr (Duration.parse_text flags.timeout))
  | _ => rfl

end Config

namespace Console.Surroundings

/-- The configuration file that the flags name, or the empty configuration if they name none. -/
def Loads (s : Surroundings) (flags : Flags) (file : Config) : Prop :=
  if flags.config = [] then file = {} else Config.load s.disk flags.config = .ok file

theorem fileConfig_eq_ok_iff {s : Surroundings} {flags : Flags} {c : Config} :
    s.fileConfig flags = .ok c ↔
      ∃ file, s.Loads flags file ∧ c = (Config.default s.tempDir).apply file := by
  unfold fileConfig Loads
  by_cases hname : flags.config = []
  · simp [hname, eq_comm]
  · simp only [if_neg hname]
    cases Config.load s.disk flags.config with
    | error e => simp
    | ok file => simp [eq_comm]

theorem config_eq_ok_iff {s : Surroundings} {flags : Flags} {c : Config} :
    s.config flags = .ok c ↔
      ∃ file, s.Loads flags file ∧ (∀ f, Layer.ofEnvironment s.environment f ≠ some none) ∧
        c = (((Config.default s.tempDir).apply file).apply
          (ofEnvironment s.environment)).apply (ofFlags flags) ∧
        ∃ st, c.settings s.tempDir = .ok st := by
  constructor
  · intro h
    unfold config at h
    split at h
    · cases h
    · rename_i base hbase
      obtain ⟨file, hfile, rfl⟩ := fileConfig_eq_ok_iff.mp hbase
      split at h
      · cases h
      · rename_i d henv
        obtain ⟨hsense, rfl⟩ := applyEnvironment_eq_iff.mp henv
        simp only [flagConfig_eq] at h
        split at h
        · cases h
        · rename_i st hst
          obtain rfl := Except.ok.inj h
          exact ⟨file, hfile, hsense, rfl, st, hst⟩
  · rintro ⟨file, hfile, hsense, rfl, st, hst⟩
    have hbase := fileConfig_eq_ok_iff.mpr ⟨file, hfile, rfl⟩
    have henv := applyEnvironment_eq_iff.mpr
      ⟨hsense, (rfl : ((Config.default s.tempDir).apply file).apply _ = _)⟩
    simp only [config, hbase, henv, flagConfig_eq, hst]

def layers (s : Surroundings) (flags : Flags) (file : Config) : List Layer :=
  [flags.layer, Layer.ofEnvironment s.environment, file.layer, (Config.default s.tempDir).layer]

/-- The configuration of all four layers resolves to what the four layers do. -/
theorem resolves_layers_iff {s : Surroundings} {flags : Flags} {file c : Config} {st : Settings}
    (hsense : ∀ f, Layer.ofEnvironment s.environment f ≠ some none)
    (hc : c = (((Config.default s.tempDir).apply file).apply
      (ofEnvironment s.environment)).apply (ofFlags flags)) :
    Resolves [c.layer, (Config.default s.tempDir).layer] st ↔
      Resolves (s.layers flags file) st := by
  unfold Resolves layers
  simp only [findSome?_layer_cons, List.findSome?_nil, Option.or_none, hc, layer_apply,
    layer_ofFlags, layer_ofEnvironment hsense, Option.or_assoc, Option.or_self]

theorem settings_eq_ok_iff {s : Surroundings} {flags : Flags} {st : Settings} :
    s.settings flags = .ok st ↔ ∃ c, s.config flags = .ok c ∧ c.settings s.tempDir = .ok st := by
  unfold settings
  cases s.config flags with
  | error e => simp
  | ok c =>
      cases hst : c.settings s.tempDir with
      | error e => simp [hst]
      | ok st' => simp [hst]

/-- The settings of a command are those of the highest layer that sets each field, if the
file can be loaded, the environment makes sense and the settings are in range. -/
theorem settings_by_highest_layer (s : Surroundings) (flags : Flags) :
    (∀ st, s.settings flags = .ok st ↔
      ∃ file, s.Loads flags file ∧ (∀ f, Layer.ofEnvironment s.environment f ≠ some none) ∧
        Resolves (s.layers flags file) st ∧ st.InRange) ∧
    (∀ c, s.config flags = .ok c → (Config.default s.tempDir).apply c = c ∧
      ∃ st, c.settings s.tempDir = .ok st ∧ s.settings flags = .ok st ∧ st.InRange) ∧
    (∀ (c : Config) st, c.settings s.tempDir = .ok st ↔
      Resolves [c.layer, (Config.default s.tempDir).layer] st ∧ st.InRange) ∧
    (∀ (c : Config) st, Resolves [c.layer, (Config.default s.tempDir).layer] st → ¬ st.InRange →
      ∃ e, c.settings s.tempDir = .error e) ∧
    (∀ a b c : Config, (a.apply b).apply c = a.apply (b.apply c)) ∧
    ∀ c : Config, c.apply {} = c ∧ Config.apply {} c = c := by
  refine ⟨?_, ?_, fun c st => Config.settings_eq_ok_iff, ?_, apply_assoc,
    fun c => ⟨apply_empty c, empty_apply c⟩⟩
  · intro st
    rw [settings_eq_ok_iff]
    constructor
    · rintro ⟨c, hc, hst⟩
      obtain ⟨file, hfile, hsense, heq, -⟩ := config_eq_ok_iff.mp hc
      obtain ⟨hresolves, hrange⟩ := Config.settings_eq_ok_iff.mp hst
      exact ⟨file, hfile, hsense, (resolves_layers_iff hsense heq).mp hresolves, hrange⟩
    · rintro ⟨file, hfile, hsense, hresolves, hrange⟩
      have hst := Config.settings_eq_ok_iff.mpr
        ⟨(resolves_layers_iff hsense rfl).mpr hresolves, hrange⟩
      exact ⟨_, config_eq_ok_iff.mpr ⟨file, hfile, hsense, rfl, st, hst⟩, hst⟩
  · intro c hc
    obtain ⟨file, -, -, heq, st, hst⟩ := config_eq_ok_iff.mp hc
    refine ⟨?_, st, hst, settings_eq_ok_iff.mpr ⟨c, hc, hst⟩, (Config.settings_eq_ok_iff.mp hst).2⟩
    rw [heq, apply_assoc, apply_assoc, default_apply_default_apply]
  · intro c st hresolves hrange
    cases hst : c.settings s.tempDir with
    | error e => exact ⟨e, rfl⟩
    | ok st' =>
        obtain ⟨hresolves', hrange'⟩ := Config.settings_eq_ok_iff.mp hst
        have hsame : st' = st := Settings.eq_of_get fun f =>
          Option.some.inj (Option.some.inj ((hresolves' f).symm.trans (hresolves f)))
        exact absurd (hsame ▸ hrange') hrange

def busyHost : Surroundings where
  disk := {}
  environment := fun name =>
    if name = Variable.merlinPath then "merlin"
    else if name = Variable.requestTimeout then "5s"
    else []
  tempDir := "/tmp"

/-- The time of the flags hides the one of the environment, and the rest is left to the layers
below. -/
theorem settings_of_timeout_flag :
    ∃ st c, busyHost.settings { timeout := 1500000000 } = .ok st ∧
      busyHost.config { timeout := 1500000000 } = .ok c ∧
      (Config.default busyHost.tempDir).apply c = c ∧
      st.merlinPath = "merlin" ∧ st.requestTimeout = 1500000000 ∧
      st.retireTimeout = 3000000000 := by
  have hst : busyHost.settings { timeout := 1500000000 } = .ok
      ⟨"merlin", [], "/tmp/merlin.ocamlcreator.log", 1500000000, 3000000000, 3, 0, 30000000000,
        true⟩ := by
    refine ((settings_by_highest_layer busyHost { timeout := 1500000000 }).1 _).mpr
      ⟨{}, rfl, ?_, ?_, ?_⟩
    · exact ofEnvironment_ne_iff.mpr ⟨nofun, nofun⟩
    · intro f
      cases f <;> rfl
    · exact ⟨by decide, by decide, by decide, by decide, by decide, by decide⟩
  obtain ⟨c, hc, -⟩ := settings_eq_ok_iff.mp hst
  exact ⟨_, c, hst, hc, ((settings_by_highest_layer busyHost { timeout := 1500000000 }).2.1 c hc).1,
    rfl, rfl, rfl⟩

end Console.Surroundings

end MerlinBridge
