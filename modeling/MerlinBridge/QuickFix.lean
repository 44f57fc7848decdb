import MerlinBridge.Document.Range
import MerlinBridge.Document.Text

/-!
# Quick fixes

A quick fix is a range of a file and the texts that may replace it. Applying one splices the chosen
text in place of the range. A marker at the end of the first line of the range tells the user that
there is something to fix.
-/

namespace MerlinBridge

structure QuickFix where
  filename : Bytes
  range : Range
  suggestions : List Bytes
deriving DecidableEq

namespace QuickFix

inductive Error where
  | noSuggestion (count : Nat) (index : Int64)
  /-- The range starts before the text or stops after its end, which is at `length`. -/
  | outside (range : Range) (length : Nat)
  /-- The range passes that check, and yet starts after the end or stops before the start. -/
  | noSlice (range : Range) (length : Nat)
deriving DecidableEq

namespace Error

def message : Error → Bytes
  | noSuggestion count index =>
    "quick fix has " ++ Decimal.ofNat count ++ " suggestions; no suggestion " ++
      Decimal.ofInt64 index
  | outside range length =>
    "quick fix range " ++ range.text ++ " is outside the text (length " ++ Decimal.ofNat length ++
      ")"
  | noSlice range length =>
    "slice bounds out of range: " ++ range.text ++ " with length " ++ Decimal.ofNat length

end Error

def suggestion (q : QuickFix) (index : Int64) : Except Error Bytes :=
  if index < 0 then .error (.noSuggestion q.suggestions.length index)
  else
    match q.suggestions[index.toInt.toNat]? with
    | some s => .ok s
    | none => .error (.noSuggestion q.suggestions.length index)

/-- The contents with the range replaced by the suggestion with the given index. The check of the
range looks at where it starts and where it stops, not at its length. -/
def apply (q : QuickFix) (contents : Bytes) (index : Int64) : Except Error Bytes := do
  let s ← q.suggestion index
  let r := q.range
  let length := contents.length
  if r.pos < 0 ∨ (length : Int) < r.stop.toInt then .error (.outside r length)
  else if (length : Int) < r.pos.toInt ∨ r.stop < 0 then .error (.noSlice r length)
  else .ok (contents.take r.pos.toInt.toNat ++ s ++ contents.drop r.stop.toInt.toNat)

end QuickFix

structure Marker where
  line : Int64
  offset : Nat
  tooltip : Bytes
deriving DecidableEq

namespace Marker

/-- The marker of a quick fix, at the end of the first line of its range. -/
def ofQuickFix (t : Text) (q : QuickFix) : Except Text.Error Marker := do
  let offset ← t.endOfLine q.range.startLine
  .ok ⟨q.range.startLine, offset, Bytes.join " " q.suggestions⟩

end Marker

end MerlinBridge
