import MerlinBridge.Json.Number
import MerlinBridge.Text.Quoted

/-!
# Positions and spans in replies

The tool names a position by a line counted from one and a column counted from zero, and a span by
the positions of its start and its end.
-/

namespace MerlinBridge

structure Pos where
  line : Int64 := 0
  col : Int64 := 0
deriving DecidableEq

structure Span where
  start : Pos
  stop : Pos
deriving DecidableEq

namespace Pos

inductive Error where
  | missing (name : Bytes)
  | notNumeric (name : Bytes) (text : Bytes)
deriving DecidableEq

namespace Error

def message : Error → Bytes
  | missing name => "missing " ++ Quoted.quote name ++ " position"
  | notNumeric name text =>
    Quoted.quote name ++ " position needs numeric line and col; got " ++ text

end Error

def number? : Option Json → Option Int64
  | some (.number literal) => some (Json.literalInt64 literal)
  | _ => none

def ofMember (v : Json) (name : Bytes) : Except Error Pos :=
  match v.get? name with
  | some p =>
    if p.isObject then
      match number? (p.get? "line"), number? (p.get? "col") with
      | some line, some col => .ok ⟨line, col⟩
      | _, _ => .error (.notNumeric name p.text)
    else .error (.missing name)
  | none => .error (.missing name)

end Pos

namespace Span

def isSingleLine (s : Span) : Bool :=
  s.start.line = s.stop.line

def ofJson (v : Json) : Except Pos.Error Span := do
  let start ← Pos.ofMember v "start"
  let stop ← Pos.ofMember v "end"
  .ok ⟨start, stop⟩

end Span

end MerlinBridge
