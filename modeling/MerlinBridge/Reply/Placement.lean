import MerlinBridge.Document.Range
import MerlinBridge.Document.Text
import MerlinBridge.Reply.Span

/-!
# Spans in a text

A span of a reply names positions by lines and columns. In the text that the reply is about it
becomes a range, which has the offsets as well. The editor counts columns from one, so the columns
of the range are one more than those of the span. A span that ends before it starts is empty.
-/

namespace MerlinBridge

namespace Range

inductive SpanError where
  | badStart (pos : Pos) (cause : Text.Error)
  | badEnd (pos : Pos) (cause : Text.Error)
deriving DecidableEq

namespace SpanError

def message : SpanError → Bytes
  | badStart pos cause =>
    "bad start " ++ Decimal.ofInt64 pos.line ++ ":" ++ Decimal.ofInt64 pos.col ++ ": " ++
      cause.message
  | badEnd pos cause =>
    "bad end " ++ Decimal.ofInt64 pos.line ++ ":" ++ Decimal.ofInt64 pos.col ++ ": " ++
      cause.message

end SpanError

def ofSpan (t : Text) (s : Span) : Except SpanError Range :=
  match t.offset s.start.line s.start.col with
  | .error e => .error (.badStart s.start e)
  | .ok start =>
    match t.offset s.stop.line s.stop.col with
    | .error e => .error (.badEnd s.stop e)
    | .ok stop =>
      .ok
        { startLine := s.start.line
          startCol := s.start.col + 1
          endLine := s.stop.line
          endCol := s.stop.col + 1
          pos := Int64.ofNat start
          length := Int64.ofNat (stop - start) }

end Range

end MerlinBridge
