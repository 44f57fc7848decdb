import MerlinBridge.Shell.Braces
import MerlinBridge.Shell.Grammar
import MerlinBridge.Shell.Value

/-!
# The fields of a command line

Every word, once its braces are expanded, gives fields. The value of a parameter outside quotes is
split at the separators inside it, so that a word can give several fields or none. Quotes give at
least one, even if it is empty. A tilde in front of a word is a home directory.
-/

namespace MerlinBridge

namespace Shell

/-- The fields of a word so far: the complete ones, the one that is being put together, if any, and
whether there has to be one. -/
structure Splitting where
  complete : List Bytes := []
  current : Option Bytes := none
  allowsEmpty : Bool := false

namespace Splitting

def add (s : Splitting) (t : Bytes) : Splitting :=
  { s with current := some (s.current.getD [] ++ t) }

def flush (s : Splitting) : Splitting :=
  { s with complete := s.complete ++ s.current.toList, current := none }

def addAll (s : Splitting) : List Bytes → Splitting
  | [] => s
  | t :: rest => rest.foldl (fun s t => s.flush.add t) (s.add t)

end Splitting

def splitPieces (separators : List Char) (run : Bytes) : List Utf8.Piece → List Bytes
  | [] => if run = [] then [] else [run]
  | p :: rest =>
    if separators.contains p.toChar then
      if run = [] then splitPieces separators [] rest
      else run :: splitPieces separators [] rest
    else splitPieces separators (run ++ p.bytes) rest

def splitValue (separators value : Bytes) : List Bytes :=
  splitPieces ((Utf8.pieces separators).map Utf8.Piece.toChar) [] (Utf8.pieces value)

namespace Splitting

def part (env : Environment) (isFirst : Bool) (s : Splitting) (p : Part) : Option Splitting :=
  match p with
  | .bare raw =>
    let (home, raw) := if isFirst then env.splitHome raw else ([], raw)
    some (s.add (home ++ Escape.dropBare raw))
  | .quoted ps => do
    let t ← partText env .plain false p
    pure { (if ps.isEmpty then s else s.add t) with allowsEmpty := true }
  | .parameter _ _ _ _ => do
    let t ← partText env .plain false p
    pure (s.addAll (splitValue env.separators t))
  | .arithmetic _ => do
    let t ← partText env .plain false p
    pure (s.add t)
  | p => do
    let t ← partText env .plain false p
    pure { s.add t with allowsEmpty := true }

def finish (s : Splitting) : List Bytes :=
  let fields := s.flush.complete
  if s.allowsEmpty && fields.isEmpty then [[]] else fields

end Splitting

def wordFields (env : Environment) (w : List Part) : Option (List Bytes) :=
  match w with
  | [] => some []
  | p :: rest => do
    let s ← Splitting.part env true {} p
    let s ← rest.foldlM (Splitting.part env false) s
    pure s.finish

/-- The fields of a command line, if it can be read and every word in it stands for something. -/
def fields? (env : Environment) (line : Bytes) : Option (List Bytes) := do
  let ws ← words? line
  let fs ← (ws.flatMap expandBraces).mapM (wordFields env)
  pure fs.flatten

end Shell

end MerlinBridge
