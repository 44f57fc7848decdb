import MerlinBridge.Text.Utf8

/-!
# The signs of a command line

A command line is read sign by sign. A sign is a character, or a line break that a backslash in
front of it takes back, which joins two lines. Bytes of value zero are left out, and so is a
carriage return in front of a line break. A backslash joins no lines if the sign before it is a
backslash. A line that is not UTF-8 cannot be read.
-/

namespace MerlinBridge

namespace Shell

structure Sign where
  char? : Option Char
  line : Nat
deriving DecidableEq

def backslash : Char := '\\'

def doubleQuote : Char := '"'

def singleQuote : Char := Char.ofNat 0x27

def backquote : Char := Char.ofNat 0x60

def closeBrace : Char := Char.ofNat 0x7D

namespace Sign

def is (s : Sign) (c : Char) : Bool :=
  s.char? = some c

/-- The bytes of a sign. Nothing is left where two lines are joined. -/
def bytes (s : Sign) : Bytes :=
  match s.char? with
  | some c => Bytes.ofChar c
  | none => []

/-- The length of a line break in front of bytes, with a carriage return or without. -/
def breakLength (b : Bytes) : Nat :=
  if b.head? = some 0x0A then 1 else if b.take 2 = [0x0D, 0x0A] then 2 else 0

/-- The signs of bytes on and after the given line, `last` being the character before them. -/
def ofBytesFrom (last : Option Char) (line : Nat) : Bytes → Option (List Sign)
  | [] => some []
  | b :: rest =>
    if b = 0x00 || (b = 0x0D && rest.head? = some 0x0A) then ofBytesFrom last line rest
    else if b = Bytes.byte '\\' && last ≠ some backslash && breakLength rest ≠ 0 then
      (ofBytesFrom none (line + 1) (rest.drop (breakLength rest))).map (⟨none, line⟩ :: ·)
    else
      match Utf8.decode? (b :: rest) with
      | none => none
      | some (c, n) =>
        let line' := if c = '\n' then line + 1 else line
        (ofBytesFrom (some c) line' (rest.drop (n - 1))).map (⟨some c, line⟩ :: ·)
termination_by b => b.length
decreasing_by
  all_goals simp only [List.length_drop, List.length_cons]
  all_goals omega

def ofBytes? (b : Bytes) : Option (List Sign) :=
  ofBytesFrom none 1 b

def startsWith (c : Char) (s : List Sign) : Bool :=
  match s with
  | x :: _ => x.is c
  | [] => false

/-- What follows the characters `cs` in front of signs, if they are there side by side. -/
def after? : (cs : List Char) → List Sign → Option (List Sign)
  | [], s => some s
  | _ :: _, [] => none
  | c :: cs, x :: s => if x.is c then after? cs s else none

end Sign

end Shell

end MerlinBridge
