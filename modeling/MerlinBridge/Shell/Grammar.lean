import MerlinBridge.Shell.Token
import MerlinBridge.Shell.Word

/-!
# Reading a command line

The words of a line are read from its tokens. Every function takes the place in the line that it
reads from and gives the one behind what it has read. Words, parameters and arithmetic contain one
another, so they are read together, with fuel that the length of the line provides.
-/

namespace MerlinBridge

namespace Shell

/-! ## Quotes and names -/

/-- The text up to a single quote, and what follows it. Where two lines are joined, the backslash
and the line break are part of the text. In escaped text a backslash takes the character behind
it. -/
def singleRun (isEscaped : Bool) : List Sign → Option (Bytes × List Sign)
  | [] => none
  | x :: rest =>
    match x.char? with
    | none => (singleRun isEscaped rest).map fun r => ("\\\n" ++ r.1, r.2)
    | some c =>
      if c = singleQuote then some ([], rest)
      else if isEscaped && c = backslash then
        match rest with
        | [] => none
        | y :: rest => (singleRun isEscaped rest).map fun r => (x.bytes ++ y.bytes ++ r.1, r.2)
      else (singleRun isEscaped rest).map fun r => (x.bytes ++ r.1, r.2)

def isNameSign (x : Sign) : Bool :=
  match x.char? with
  | none => true
  | some c => c.toNat < 0x80 && isNameByte (Bytes.byte c)

def isSpecial (c : Char) : Bool :=
  "@*#$?!-0123456789".toList.contains c

def nameRun? (s : List Sign) : Option (Bytes × List Sign) :=
  match s with
  | [] => none
  | x :: rest =>
    match x.char? with
    | none => none
    | some c =>
      if isSpecial c then some (x.bytes, rest)
      else if isNameSign x then
        some ((s.takeWhile isNameSign).flatMap Sign.bytes, s.dropWhile isNameSign)
      else none

/-! ## Operators -/

/-- The operators with two operands, from those that bind least to those that bind most. -/
def levels : List (List (String × BinaryOp)) :=
  [[("||", .or)], [("&&", .and)], [("|", .bitOr)], [("^", .bitXor)], [("&", .bitAnd)],
    [("==", .equal), ("!=", .notEqual)],
    [("<", .less), (">", .greater), ("<=", .lessEqual), (">=", .greaterEqual)],
    [("<<", .shiftLeft), (">>", .shiftRight)], [("+", .add), ("-", .sub)],
    [("*", .mul), ("/", .div), ("%", .rem)]]

def binaryAt? (level : List (String × BinaryOp)) (s : State) : Option BinaryOp :=
  (level.find? fun o => s.isOp o.1).map Prod.snd

def unaryAt? (s : State) : Option UnaryOp :=
  if s.isOp "!" then some .not
  else if s.isOp "~" then some .complement
  else if s.isOp "+" then some .plus
  else if s.isOp "-" then some .minus
  else none

def isAssignment (s : State) : Bool :=
  ["=", "+=", "-=", "*=", "/=", "%=", "&=", "|=", "^=", "<<=", ">>="].any s.isOp

def useOf? (name : String) : Option (List Part → Use) :=
  match name with
  | "-" => some (.alternative .default false)
  | ":-" => some (.alternative .default true)
  | "+" => some (.alternative .replacement false)
  | ":+" => some (.alternative .replacement true)
  | "?" => some (.alternative .required false)
  | ":?" => some (.alternative .required true)
  | "=" => some (.alternative .assigned false)
  | ":=" => some (.alternative .assigned true)
  | "#" => some (.remove .front false)
  | "##" => some (.remove .front true)
  | "%" => some (.remove .back false)
  | "%%" => some (.remove .back true)
  | "^" => some (.recase true false)
  | "^^" => some (.recase true true)
  | "," => some (.recase false false)
  | ",," => some (.recase false true)
  | _ => none

def isTransform (s : State) : Bool :=
  match s.token with
  | .text raw _ => raw.length = 1 && raw.all fun b => ("aukAEKLPUQ" : Bytes).contains b
  | _ => false

/-! ## The head of a parameter -/

inductive Asked where
  | value
  | length
  | indirect
deriving DecidableEq

/-- Whether a number sign or an exclamation mark in front of signs asks something of a parameter,
instead of being its name. -/
def asks (s : List Sign) : Bool :=
  match s with
  | [] => true
  | x :: _ =>
    match x.char? with
    | none => true
    | some c => c ≠ closeBrace && !":+=%[]/^,".toList.contains c

/-- Reads what is asked of a parameter in braces. The place is that of its name. -/
def asked? (s : List Sign) : Option (Asked × State) := do
  if ['|', ' ', '\t', '\n'].any fun c => Sign.startsWith c s then none
  let start ←
    match Sign.after? ['#'] s with
    | some rest => some ⟨.op "#", false, 0, rest⟩
    | none => next? .name false s
  if start.isOp "#" && asks start.rest then pure (.length, ← start.advance? .name)
  else if start.isOp "!" && asks start.rest then pure (.indirect, ← start.advance? .name)
  else pure (.value, start)

/-- Reads the name of a parameter in braces. A number sign in front of an operator is a name. -/
def braceName? (a : Asked) (s : State) : Option (Asked × Bytes × State) := do
  match s.token with
  | .text raw _ =>
    if isNumber raw || isName raw then pure (a, raw, ← s.advance? .name) else none
  | .op n =>
    if (n = "?" || n = "-") && a = .length && !s.precedes closeBrace then pure (.value, "#", s)
    else if ["?", "-", "@", "*", "#", "!", "$"].contains n then pure (a, n, ← s.advance? .name)
    else none
  | _ => none

/-! ## Words -/

mutual

def parts (m : Mode) : (fuel : Nat) → State → Option (List Part × State)
  | 0, _ => none
  | fuel + 1, s => do
    match ← part m fuel s with
    | (none, s) => pure ([], s)
    | (some p, s) =>
      if s.isSpaced then pure ([p], s)
      else
        let (ps, s) ← parts m fuel s
        pure (p :: ps, s)

def part (m : Mode) : (fuel : Nat) → State → Option (Option Part × State)
  | 0, _ => none
  | fuel + 1, s =>
    match s.token with
    | .text raw _ => do pure (some (.bare raw), ← s.advance? m)
    | .op "\x27" => do
      let (t, rest) ← singleRun false s.rest
      pure (some (.single t), ← next? m false rest)
    | .op "$\x27" => do
      let (t, rest) ← singleRun true s.rest
      pure (some (.escaped t), ← next? m false rest)
    | .op "\"" => if m = .quotes then some (none, s) else quoted m fuel s
    | .op "$\"" => quoted m fuel s
    | .op "$((" => do
      let s ← s.advance? .arithmetic
      if s.isOp "#" then none
      let (e, s) ← expr .arithmetic fuel s
      match Sign.after? [')'] s.rest with
      | some rest => if s.isOp ")" then pure (some (.arithmetic e), ← next? m false rest) else none
      | none => none
    | .op "$[" => do
      let s ← s.advance? .index
      if s.isOp "#" then none
      let (e, s) ← expr .index fuel s
      pure (some (.arithmetic e), ← s.expect? m "]")
    | .op "$\x7b" => do
      let (a, start) ← asked? s.rest
      let (a, name, start) ← braceName? a start
      let (p, last) ← parameter m fuel a name s.line start
      pure (some p, last)
    | .op "$" =>
      match nameRun? s.rest with
      | some (name, rest) => do
        pure (some (.parameter name s.line none .value), ← next? m false rest)
      | none => do pure (some (.bare "$"), ← s.advance? m)
    | _ => some (none, s)

def quoted (m : Mode) : (fuel : Nat) → State → Option (Option Part × State)
  | 0, _ => none
  | fuel + 1, s => do
    let (ps, s) ← parts .quotes fuel (← s.advance? .quotes)
    pure (some (.quoted ps), ← s.expect? m "\"")

def parameter (m : Mode) : (fuel : Nat) → Asked → (name : Bytes) → (line : Nat) → State →
    Option (Part × State)
  | 0, _, _, _, _ => none
  | fuel + 1, a, name, line, s => do
    let (index, s) ←
      if s.isOp "[" then
        if isName name then do
          let (e, s) ← index .name fuel s
          pure (some e, s)
        else none
      else some (none, s)
    let (use, s) ← use m fuel a s
    pure (.parameter name line index use, s)

/-- Reads an index in square brackets. A star stands for itself there. -/
def index (m : Mode) : (fuel : Nat) → State → Option (Expr × State)
  | 0, _ => none
  | fuel + 1, s => do
    let s ← s.advance? .index
    let s := if s.isOp "*" then { s with token := .text "*" true } else s
    let (e, s) ← expr .index fuel s
    pure (e, ← s.expect? m "]")

/-- Reads what is done with the value of a parameter, up to the closing brace. -/
def use (m : Mode) : (fuel : Nat) → Asked → State → Option (Use × State)
  | 0, _, _ => none
  | fuel + 1, a, s =>
    let plain : Use :=
      match a with
      | .value => .value
      | .length => .length
      | .indirect => .indirect none none
    match s.token with
    | .op n =>
      if n = "\x7d" then (s.advance? m).map (plain, ·)
      else if a = .length then none
      else if n = "/" || n = "//" then do
        let (pattern, s) ← parts .pattern fuel (← s.advance? .pattern)
        let (word, s) ←
          if s.isOp "/" then do parts .word fuel (← s.advance? .word) else some ([], s)
        let s ← s.expect? m "\x7d"
        pure (if a = .indirect then plain else .replace (n = "//") pattern word, s)
      else if n = ":" then do
        let s ← s.advance? .slice
        let (offset, s) ← if s.isOp ":" then some (none, s) else bound fuel s
        let (count, s) ←
          if s.isOp ":" then do bound fuel (← s.advance? .slice) else some (none, s)
        let s ← s.expect? m "\x7d"
        pure (if a = .indirect then .indirect offset count else .slice offset count, s)
      else if (n = "@" || n = "*") && a = .indirect && s.precedes closeBrace then do
        let s ← s.advance? .name
        pure (.names, ← s.expect? m "\x7d")
      else if n = "@" || (n = "*" && a = .indirect) then do
        let start ← s.advance? .word
        let (word, s) ← parts .word fuel start
        let s ← s.expect? m "\x7d"
        if a = .indirect then if n = "*" || isTransform start then pure (plain, s) else none
        else if Part.rawText? word = some "Q" then pure (.requote, s)
        else if Part.rawText? word = some "E" then pure (.unescape, s)
        else none
      else
        match useOf? n with
        | none => none
        | some u => do
          let (word, s) ← parts .word fuel (← s.advance? .word)
          let s ← s.expect? m "\x7d"
          pure (if a = .indirect then plain else u word, s)
    | _ => none

def bound : (fuel : Nat) → State → Option (Option Expr × State)
  | 0, _ => none
  | fuel + 1, s => do
    let (e, s) ← expr .slice fuel s
    pure (some e, s)

def expr (m : Mode) : (fuel : Nat) → State → Option (Expr × State)
  | 0, _ => none
  | fuel + 1, s => do
    let (e?, s) ← assignment m fuel s
    let e ← e?
    commas m fuel e s

def commas (m : Mode) : (fuel : Nat) → (e : Expr) → State → Option (Expr × State)
  | 0, _, _ => none
  | fuel + 1, e, s =>
    if s.isOp "," then do
      let (e'?, s) ← assignment m fuel (← s.advance? m >>= State.skipBreak? m)
      let e' ← e'?
      commas m fuel (.binary .comma e e') s
    else some (e, s)

/-- Reads an assignment, which needs a variable on its left, or an expression that binds more. -/
def assignment (m : Mode) : (fuel : Nat) → State → Option (Option Expr × State)
  | 0, _ => none
  | fuel + 1, s => do
    let (e?, s) ← conditional m fuel s
    if isAssignment s then
      let e ← e?
      if e.isVariable then
        let (e'?, s) ← assignment m fuel (← s.advance? m >>= State.skipBreak? m)
        let _ ← e'?
        pure (some .assignment, s)
      else none
    else pure (e?, s)

def conditional (m : Mode) : (fuel : Nat) → State → Option (Option Expr × State)
  | 0, _ => none
  | fuel + 1, s => do
    let (e?, s) ← binary m fuel levels s
    if s.isOp "?" then
      let e ← e?
      let s ← s.advance? m >>= State.skipBreak? m
      if s.isOp ":" then none
      let (yes, s) ← expr m fuel s
      if s.isOp ":" then
        let (no?, s) ← conditional m fuel (← s.advance? m >>= State.skipBreak? m)
        let no ← no?
        pure (some (.choice e yes no), s)
      else none
    else pure (e?, s)

def binary (m : Mode) : (fuel : Nat) → List (List (String × BinaryOp)) → State →
    Option (Option Expr × State)
  | 0, _, _ => none
  | fuel + 1, [], s => power m fuel s
  | fuel + 1, level :: levels, s => do
    let (e?, s) ← binary m fuel levels s
    match e? with
    | some e => do
      let (e, s) ← binaryRest m fuel level levels e s
      pure (some e, s)
    | none => if (binaryAt? level s).isSome then none else pure (none, s)

def binaryRest (m : Mode) : (fuel : Nat) → List (String × BinaryOp) →
    List (List (String × BinaryOp)) → (e : Expr) → State → Option (Expr × State)
  | 0, _, _, _, _ => none
  | fuel + 1, level, levels, e, s =>
    match binaryAt? level s with
    | none => some (e, s)
    | some op => do
      let (e'?, s) ← binary m fuel levels (← s.advance? m >>= State.skipBreak? m)
      let e' ← e'?
      binaryRest m fuel level levels (.binary op e e') s

def power (m : Mode) : (fuel : Nat) → State → Option (Option Expr × State)
  | 0, _ => none
  | fuel + 1, s => do
    let (e?, s) ← unary m fuel s
    if s.isOp "**" then
      let e ← e?
      let (e'?, s) ← power m fuel (← s.advance? m >>= State.skipBreak? m)
      let e' ← e'?
      pure (some (.binary .pow e e'), s)
    else pure (e?, s)

def unary (m : Mode) : (fuel : Nat) → State → Option (Option Expr × State)
  | 0, _ => none
  | fuel + 1, s => do
    let s ← s.skipBreak? m
    match unaryAt? s with
    | none => operand m fuel s
    | some op =>
      let (e?, s) ← unary m fuel (← s.advance? m >>= State.skipBreak? m)
      let e ← e?
      pure (some (.unary op e), s)

/-- Reads an operand: a word, an element, an expression in parentheses, or a variable that is
counted up or down. -/
def operand (m : Mode) : (fuel : Nat) → State → Option (Option Expr × State)
  | 0, _ => none
  | fuel + 1, s => do
    if s.isOp "++" || s.isOp "--" then
      let s ← s.advance? m >>= State.skipBreak? m
      match s.token with
      | .text _ true => do
        let (_, s) ← operand m fuel s
        pure (some .assignment, s)
      | _ => none
    else
      let (e?, s) ←
        match s.token with
        | .op "(" => do
          let (e, s) ← expr m fuel (← s.advance? m >>= State.skipBreak? m)
          pure (some e, ← s.expect? m ")")
        | .op "[" => none
        | .op ":" => none
        | .text raw true => do
          let behind ← s.advance? m
          if behind.isOp "[" then
            let (i, behind) ← index m fuel behind
            pure (some (.element raw s.line i), behind)
          else pure (some (.word [.bare raw]), behind)
        | _ => do
          let (ps, s) ← parts m fuel s
          pure (if ps.isEmpty then none else some (.word ps), s)
      match e? with
      | none => pure (none, s)
      | some e =>
        let s ← s.skipBreak? m
        if s.isOp "++" || s.isOp "--" then
          if e.isVariable then pure (some .assignment, ← s.advance? m >>= State.skipBreak? m)
          else none
        else pure (some e, s)

end

def wordsFrom : (fuel : Nat) → State → Option (List (List Part))
  | 0, _ => none
  | fuel + 1, s => do
    let s ← s.skipBreak? .line
    let (w, behind) ← parts .line (32 * (s.rest.length + 2)) s
    if w.isEmpty then if behind.token = .eof then pure [] else none
    else
      let ws ← wordsFrom fuel behind
      pure (w :: ws)

def words? (line : Bytes) : Option (List (List Part)) := do
  let signs ← Sign.ofBytes? line
  let s ← next? .line false signs
  wordsFrom (signs.length + 2) s

end Shell

end MerlinBridge
