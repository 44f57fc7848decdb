import MerlinBridge.Text.Bytes

/-!
# The environment of a command line

A command line is read against the variables of a process. An empty variable is the same as one that
is not set. The home directory of a user is a variable too: `HOME` for the user who runs the
process, and `HOME` with a blank and a name for the user of that name.
-/

namespace MerlinBridge

namespace Shell

/-- The variables of a process, by name. An empty value is the same as none. -/
abbrev Environment := Bytes → Bytes

namespace Environment

def get? (env : Environment) (name : Bytes) : Option Bytes :=
  if env name = [] then none else some (env name)

/-- The home directory of a user, or of the one who runs the process if no user is named. -/
def home? (env : Environment) (user : Bytes) : Option Bytes :=
  env.get? (if user = [] then "HOME" else "HOME " ++ user)

/-- The characters at which a value is split: blanks, tabs and line breaks unless `IFS` is set. -/
def separators (env : Environment) : Bytes :=
  (env.get? "IFS").getD [0x20, 0x09, 0x0A]

/-- Splits the name of a user behind a tilde off text: the home directory, and what follows the
name. Other text has no home directory in front. -/
def splitHome (env : Environment) (raw : Bytes) : Bytes × Bytes :=
  match raw with
  | [] => ([], raw)
  | b :: rest =>
    if b = Bytes.byte '~' then
      match env.home? (rest.takeWhile (· ≠ Bytes.byte '/')) with
      | some home => (home, rest.dropWhile (· ≠ Bytes.byte '/'))
      | none => ([], raw)
    else ([], raw)

end Environment

end Shell

end MerlinBridge
