import MerlinBridge.Disk
import MerlinBridge.Settings.Json
import MerlinBridge.Settings.Toml
import MerlinBridge.Settings.Yaml
import MerlinBridge.Text.Quoted

/-!
# Configuration files

The format of a configuration file follows from the extension of its name, in whatever case that is
written. A file in an unknown format is not looked into, but it has to be there.
-/

namespace MerlinBridge

namespace Config

inductive Format where
  | yaml
  | toml
  | json
deriving DecidableEq, Repr

namespace Format

def ofExtension? (ext : Bytes) : Option Format :=
  if ext = ".yaml" || ext = ".yml" then some .yaml
  else if ext = ".toml" then some .toml
  else if ext = ".json" then some .json
  else none

def parse? : Format → Bytes → Option Config
  | yaml => ofYaml?
  | toml => ofToml?
  | json => ofJson?

end Format

inductive LoadError where
  | unreadable (cause : Disk.Error)
  | unknownFormat (ext : Bytes)
  | malformed (name : Bytes)
deriving DecidableEq

namespace LoadError

def message : LoadError → Bytes
  | unreadable cause => "failed to read config: " ++ cause.message
  | unknownFormat ext => "unknown config file format " ++ Quoted.quote ext
  | malformed name => "failed to parse " ++ name

end LoadError

def load (d : Disk) (name : Bytes) : Except LoadError Config :=
  match d.read name with
  | .error e => .error (.unreadable e)
  | .ok file =>
    let ext := Unicode.lower (Path.ext name)
    match Format.ofExtension? ext with
    | none => .error (.unknownFormat ext)
    | some format =>
      match format.parse? file with
      | some c => .ok c
      | none => .error (.malformed name)

end Config

end MerlinBridge
