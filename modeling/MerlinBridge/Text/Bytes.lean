/-!
# Byte strings

A document, a path, a command-line argument and the output of the tool are byte strings: nothing
promises that they are valid UTF-8, and every offset and column counts bytes. They are plain lists,
so that the list lemmas speak about them directly. A literal text stands for its UTF-8 bytes.
-/

namespace MerlinBridge

abbrev Bytes := List UInt8

namespace Bytes

def ofString (s : String) : Bytes :=
  s.toList.flatMap String.utf8EncodeChar

instance : Coe String Bytes := ⟨ofString⟩

def ofChar (c : Char) : Bytes :=
  String.utf8EncodeChar c

def ofChars (cs : List Char) : Bytes :=
  cs.flatMap ofChar

def byte (c : Char) : UInt8 :=
  c.toNat.toUInt8

def newline : UInt8 := 10

def join (sep : Bytes) : List Bytes → Bytes
  | [] => []
  | [b] => b
  | b :: c :: rest => b ++ sep ++ join sep (c :: rest)

@[simp] theorem join_nil (sep : Bytes) : join sep [] = [] := rfl

@[simp] theorem join_singleton (sep b : Bytes) : join sep [b] = b := rfl

theorem join_cons_cons (sep b c : Bytes) (rest : List Bytes) :
    join sep (b :: c :: rest) = b ++ sep ++ join sep (c :: rest) := rfl

def startsWith (b lead : Bytes) : Bool :=
  lead.isPrefixOf b

def endsWith (b tail : Bytes) : Bool :=
  tail.isSuffixOf b

def dropEnd (b tail : Bytes) : Bytes :=
  if b.endsWith tail then b.take (b.length - tail.length) else b

/-- The part before the first byte `sep` and the part after it, if `sep` occurs. -/
def cut? (sep : UInt8) : Bytes → Option (Bytes × Bytes)
  | [] => none
  | x :: rest =>
    if x = sep then some ([], rest) else (cut? sep rest).map fun p => (x :: p.1, p.2)

/-- The pieces between the bytes `sep`: one piece more than there are such bytes. -/
def split (sep : UInt8) : Bytes → List Bytes
  | [] => [[]]
  | x :: rest =>
    if x = sep then [] :: split sep rest
    else
      match split sep rest with
      | [] => [[x]]
      | piece :: pieces => (x :: piece) :: pieces

theorem split_cons_self (sep : UInt8) (rest : Bytes) :
    split sep (sep :: rest) = [] :: split sep rest := by
  simp [split]

def isDigit (b : UInt8) : Bool :=
  48 ≤ b && b ≤ 57

def isAlpha (b : UInt8) : Bool :=
  (65 ≤ b && b ≤ 90) || (97 ≤ b && b ≤ 122)

/-- An ASCII capital as its small letter; any other byte as it is. -/
def toLower (b : UInt8) : UInt8 :=
  if 65 ≤ b && b ≤ 90 then b + 32 else b

def hexValue? (b : UInt8) : Option Nat :=
  if isDigit b then some (b.toNat - 48)
  else if 97 ≤ b && b ≤ 102 then some (b.toNat - 87)
  else if 65 ≤ b && b ≤ 70 then some (b.toNat - 55)
  else none

def hexDigit (n : Nat) : UInt8 :=
  if n < 10 then (48 + n).toUInt8 else (87 + n).toUInt8

def hex (n : Nat) : (width : Nat) → Bytes
  | 0 => []
  | width + 1 => hex (n / 16) width ++ [hexDigit (n % 16)]

/-- A run of bytes of a kind goes as far as another byte. -/
theorem takeWhile_dropWhile_append {p : UInt8 → Bool} {a b : Bytes} (ha : ∀ x ∈ a, p x = true)
    (hb : ∀ x, b.head? = some x → p x = false) :
    (a ++ b).takeWhile p = a ∧ (a ++ b).dropWhile p = b := by
  rw [List.takeWhile_append_of_pos ha, List.dropWhile_append_of_pos ha]
  cases b with
  | nil => simp
  | cons x b => simp [hb x rfl]

end Bytes

end MerlinBridge
