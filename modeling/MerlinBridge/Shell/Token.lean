import MerlinBridge.Shell.Sign

/-!
# The tokens of a command line

What is a token depends on where it stands: between words, in double quotes, in the braces of a
parameter, or in arithmetic. In some of these places blanks are text, in others they separate
tokens. What would run a command, or join two commands, is no token, and makes the line unreadable.
-/

namespace MerlinBridge

namespace Shell

inductive Mode where
  | line
  | quotes
  | name
  | slice
  | pattern
  | word
  | arithmetic
  | index
deriving DecidableEq, Repr

namespace Mode

def keepsBlanks : Mode → Bool
  | quotes | pattern | word => true
  | _ => false

def isArithmetic : Mode → Bool
  | slice | arithmetic | index => true
  | _ => false

def isBraced : Mode → Bool
  | name | slice | pattern | word => true
  | _ => false

def hasOperators : Mode → Bool
  | name | slice => true
  | _ => false

/-- Whether a character ends text. A square bracket between words is left to `textRun`. -/
def endsText (m : Mode) (c : Char) : Bool :=
  if c = doubleQuote || c = backquote || c = '$' then true
  else
    match m with
    | quotes => false
    | line => c = singleQuote || " \t\r\n&|;()<>".toList.contains c
    | m =>
      c = singleQuote || (c = closeBrace && m.isBraced) || (c = '/' && m ≠ word) ||
        (":=%^,?!~*".toList.contains c && (m.isArithmetic || m = name)) ||
        ("[]".toList.contains c && (m.isArithmetic || m.hasOperators)) ||
        ("#@".toList.contains c && m.hasOperators) ||
        ("+- \t;&><|()\n\r".toList.contains c && !m.keepsBlanks)

end Mode

inductive Token where
  | eof
  | newline
  /-- Text with its backslashes, and whether neither quotes nor a dollar sign follow it. -/
  | text (raw : Bytes) (isWhole : Bool)
  | op (name : String)
deriving DecidableEq

structure State where
  token : Token
  isSpaced : Bool
  line : Nat
  rest : List Sign

namespace State

def isOp (s : State) (name : String) : Bool :=
  s.token = .op name

def precedes (s : State) (c : Char) : Bool :=
  Sign.startsWith c s.rest

end State

/-- The text in front of signs, with its backslashes, and what follows it. A backslash takes the
character behind it. In double quotes text ends where two lines are joined. Between words text ends
in front of a square bracket, unless it starts with one; `opened` says whether it does, once there
is any. -/
def textRun (m : Mode) (opened : Option Bool) : List Sign → Bytes × List Sign
  | [] => ([], [])
  | x :: rest =>
    match x.char? with
    | none =>
      if m = .quotes && opened.isSome then ([], x :: rest) else textRun m opened rest
    | some c =>
      if m.endsText c || (m = .line && c = '[' && opened = some false) then ([], x :: rest)
      else
        let opened := some (opened.getD (c = '['))
        if c = backslash then
          match rest with
          | [] => (x.bytes, [])
          | y :: rest =>
            let r := textRun m opened rest
            (x.bytes ++ y.bytes ++ r.1, r.2)
        else
          let r := textRun m opened rest
          (x.bytes ++ r.1, r.2)

def startsQuote (s : List Sign) : Bool :=
  [singleQuote, doubleQuote, backquote, '$'].any fun c => Sign.startsWith c s

/-- The first of several operators that stands in front of signs, and what follows it. Longer ones
come before those they start with. -/
def operator? : (names : List String) → List Sign → Option (String × List Sign)
  | [], _ => none
  | n :: names, s =>
    match Sign.after? n.toList s with
    | some rest => some (n, rest)
    | none => operator? names s

def arithmeticOperators : List String :=
  ["<<=", ">>=", "!=", "==", "&&", "&=", "||", "|=", "<<", "<=", ">>", ">=", "++", "+=", "--", "-=",
    "%=", "**", "*=", "/=", "^=", "!", "=", "~", "(", ")", "&", "|", "<", ">", "+", "-", "%", "*",
    "/", "^", "[", "]", ",", "?", ":", "#"]

def parameterOperators : List String :=
  [":+", ":-", ":?", ":=", "%%", "##", "//", "^^", ",,", ":", "%", "#", "/", "^", ",", "+", "-",
    "?", "=", "!", "[", "]", "@", "*", "\x7d"]

def openers (m : Mode) : List String :=
  let quotes := ["\x27", "$\x27", "$\""]
  (if m = .quotes then [] else quotes) ++ ["\"", "$((", "$\x7b"] ++
    (if m = .name then [] else ["$["])

def operators (m : Mode) : List String :=
  (if m.isArithmetic then arithmeticOperators else []) ++
    (if m.hasOperators then parameterOperators else []) ++
    (if m = .pattern then ["\x7d", "/"] else if m = .word then ["\x7d"] else []) ++ openers m

/-- The signs behind a comment, which ends in front of a line break or where two lines are
joined. -/
def afterComment (s : List Sign) : List Sign :=
  s.dropWhile fun x => x.char?.isSome && x.char? ≠ some '\n'

def tokenAt? (m : Mode) (isSpaced : Bool) (s : List Sign) : Option State :=
  match s with
  | [] => some ⟨.eof, isSpaced, 0, []⟩
  | x :: _ =>
    match operator? (operators m) s with
    | some (n, rest) => some ⟨.op n, isSpaced, x.line, rest⟩
    | none =>
      if x.is '$' then
        if (Sign.after? ['$', '('] s).isSome then none
        else some ⟨.op "$", isSpaced, x.line, s.drop 1⟩
      else if x.is backquote || (!m.keepsBlanks && ";|&><()".toList.any x.is) then none
      else
        let (raw, rest) := textRun m none s
        some ⟨.text raw (!startsQuote rest), isSpaced, x.line, rest⟩

/-- Reads the next token where blanks separate tokens. Line breaks after a line break are blanks. -/
def nextSpaced (m : Mode) (afterBreak isSpaced : Bool) : (fuel : Nat) → List Sign → Option State
  | 0, _ => none
  | fuel + 1, s =>
    match s with
    | [] => tokenAt? m isSpaced s
    | x :: rest =>
      match x.char? with
      | none => nextSpaced m afterBreak isSpaced fuel rest
      | some c =>
        if c = ' ' || c = '\t' || c = '\r' then nextSpaced m afterBreak true fuel rest
        else if c = '\n' then
          if afterBreak then nextSpaced m afterBreak true fuel rest
          else some ⟨.newline, true, x.line, rest⟩
        else if m = .line && c = '#' then nextSpaced m afterBreak false fuel (afterComment rest)
        else tokenAt? m isSpaced s

def next? (m : Mode) (afterBreak : Bool) (s : List Sign) : Option State :=
  if m.keepsBlanks then tokenAt? m false (s.dropWhile fun x => x.char?.isNone)
  else nextSpaced m afterBreak false (s.length + 1) s

namespace State

def advance? (m : Mode) (s : State) : Option State :=
  next? m (s.token = .newline) s.rest

def skipBreak? (m : Mode) (s : State) : Option State :=
  if s.token = .newline then s.advance? m else some s

def expect? (m : Mode) (name : String) (s : State) : Option State :=
  if s.isOp name then s.advance? m else none

end State

end Shell

end MerlinBridge
