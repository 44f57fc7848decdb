import MerlinBridge.Console.Error

/-!
# The configuration of a command

Four layers make up the configuration: the defaults, a file if one is named, the environment, and
the flags. It has to make sense as a whole.
-/

namespace MerlinBridge

namespace Console

structure Surroundings where
  disk : Disk
  environment : Shell.Environment
  tempDir : Bytes
  /-- The time at which the command starts, as it stands in the name of the log file. -/
  startTime : Bytes := []

namespace Surroundings

def fileConfig (s : Surroundings) (flags : Flags) : Except ConfigError Config :=
  if flags.config = [] then .ok (Config.default s.tempDir)
  else
    match Config.load s.disk flags.config with
    | .error e => .error (.file e)
    | .ok c => .ok ((Config.default s.tempDir).apply c)

def flagConfig (flags : Flags) (c : Config) : Config :=
  let c := if flags.merlin = [] then c else { c with merlinPath := some flags.merlin }
  if flags.timeout = 0 then c
  else { c with requestTimeout := some (Duration.text flags.timeout) }

def config (s : Surroundings) (flags : Flags) : Except ConfigError Config :=
  match s.fileConfig flags with
  | .error e => .error e
  | .ok c =>
    match c.applyEnvironment s.environment with
    | (_, some e) => .error (.environment e)
    | (c, none) =>
      let c := flagConfig flags c
      match c.settings s.tempDir with
      | .error e => .error (.invalid e)
      | .ok _ => .ok c

def settings (s : Surroundings) (flags : Flags) : Except ConfigError Settings :=
  match s.config flags with
  | .error e => .error e
  | .ok c =>
    match c.settings s.tempDir with
    | .error e => .error (.invalid e)
    | .ok settings => .ok settings

def stamp (t : Bytes) : Bytes → Bytes
  | [] => []
  | b :: rest =>
    if Bytes.startsWith (b :: rest) "%v" then t ++ rest.drop 1 else b :: stamp t rest

def logPattern (s : Surroundings) : Bytes :=
  stamp s.startTime ((s.environment.get? Config.Variable.logPattern).getD "ocamlcreator_%v_*")

def checkLog (s : Surroundings) : Except Error Unit :=
  if s.logPattern.contains Path.slash then .error (.logPattern s.logPattern) else .ok ()

end Surroundings

end Console

end MerlinBridge
