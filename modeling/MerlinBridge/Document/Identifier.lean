import MerlinBridge.Text.Utf8
import MerlinBridge.Unicode.Class

/-!
# The identifier before the cursor

A completion replaces the identifier that ends at the cursor. Its start is found by stepping back
over characters that can be part of an identifier: letters, digits, the underscore and the
apostrophe. A stray byte is none of these, so the identifier is always well-formed text. Which
characters are letters and digits is a parameter of the search.
-/

namespace MerlinBridge

namespace Identifier

/-- Whether a character can be part of an identifier, by the given classes of letters and digits. -/
def isPart (letter digit : Char → Bool) (c : Char) : Bool :=
  letter c || digit c || c = '_' || c.toNat = 0x27

/-- The length of what is left of a byte string, given last byte first, when the longest run of
characters in `part` is taken off its end. -/
def lengthBefore (part : Char → Bool) : (reversed : Bytes) → Nat
  | [] => 0
  | b :: rest =>
    match Utf8.decodeLast (b :: rest) with
    | none => 0
    | some (p, n) =>
      if part p.toChar then lengthBefore part (rest.drop (n - 1)) else rest.length + 1
termination_by reversed => reversed.length
decreasing_by
  simp only [List.length_drop, List.length_cons]
  omega

/-- The offset at which the identifier that ends at `offset` starts, or `offset` itself if none
does. An offset past the end of the contents stands for that end, and before the start of the
contents there is no identifier. -/
def startIn (letter digit : Char → Bool) (contents : Bytes) (offset : Int64) : Int64 :=
  if offset < 0 then offset
  else
    let o := min offset.toInt.toNat contents.length
    Int64.ofNat (lengthBefore (isPart letter digit) (contents.take o).reverse)

/-- The start of the identifier that ends at `offset`, by the letters and digits of Unicode. -/
def start (contents : Bytes) (offset : Int64) : Int64 :=
  startIn Unicode.isLetter Unicode.isDigit contents offset

end Identifier

end MerlinBridge
