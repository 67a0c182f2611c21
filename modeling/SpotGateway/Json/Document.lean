import SpotGateway.Json.Value

/-!
# JSON documents

Text taken apart in its own order, without judging what it means: numbers as they are written, all
members of an object, and strings even if they escape half of a surrogate pair.  Where the text
stops being JSON the document has a `broken` node and nothing after it, so that whoever walks the
document in order comes to the first thing wrong with it, be that its form or its content.

* `Node` — a part of a document;
* `Document.read` — text to document;
* `Node.isIntact` — nothing below is broken;
* `Node.value?` — the value, if nothing below is broken, out of range or nested too deep.
-/

set_option autoImplicit false

namespace SpotGateway.Json

/-- A string of a document; none if an escape names half of a surrogate pair. -/
abbrev Chars := Option String

/-- A part of a document. -/
inductive Node where
  | null
  | bool (b : Bool)
  | number (l : Literal)
  | string (s : Chars)
  | array (items : List Node)
  | object (members : List (Chars × Node))
  /-- Here the text stops being JSON. -/
  | broken
  deriving Inhabited, Repr

/-- The four blanks of JSON. -/
def isBlank (c : Char) : Bool := c == ' ' || c == '\n' || c == '\r' || c == '\t'

def skipBlanks (cs : List Char) : List Char := cs.dropWhile isBlank

namespace Document

/-- Four hexadecimal digits. -/
def codeUnit? (a b c d : Char) : Option Nat := do
  let a ← Text.hexDigit? a
  let b ← Text.hexDigit? b
  let c ← Text.hexDigit? c
  let d ← Text.hexDigit? d
  return ((a * 16 + b) * 16 + c) * 16 + d

/-- The character after a backslash, other than `u`. -/
def escaped? (c : Char) : Option Nat :=
  if c = '"' ∨ c = '\\' ∨ c = '/' then some c.toNat
  else if c = 'b' then some 8
  else if c = 'f' then some 12
  else if c = 'n' then some 10
  else if c = 'r' then some 13
  else if c = 't' then some 9
  else none

/-- The inside of a string as code points and halves of surrogate pairs, and the text after the
closing quote. -/
def units : List Char → Option (List Nat × List Char)
  | [] => none
  | '"' :: rest => some ([], rest)
  | '\\' :: 'u' :: a :: b :: c :: d :: rest => do
    let u ← codeUnit? a b c d
    let (us, r) ← units rest
    return (u :: us, r)
  | '\\' :: c :: rest => do
    let u ← escaped? c
    let (us, r) ← units rest
    return (u :: us, r)
  | c :: rest =>
    if c < ' ' ∨ c = '\\' then none
    else do
      let (us, r) ← units rest
      return (c.toNat :: us, r)

def isHighHalf (u : Nat) : Bool := 0xD800 ≤ u && u < 0xDC00

def isLowHalf (u : Nat) : Bool := 0xDC00 ≤ u && u < 0xE000

/-- Join surrogate pairs; none if half of one stands alone. -/
def joinPairs : List Nat → Option (List Char)
  | [] => some []
  | [u] => if isHighHalf u || isLowHalf u then none else some [Char.ofNat u]
  | u :: v :: us =>
    if isHighHalf u then
      if isLowHalf v then
        (joinPairs us).map (Char.ofNat (0x10000 + (u - 0xD800) * 0x400 + (v - 0xDC00)) :: ·)
      else none
    else if isLowHalf u then none
    else (joinPairs (v :: us)).map (Char.ofNat u :: ·)

/-- A string after its opening quote. -/
def string? (cs : List Char) : Option (Chars × List Char) :=
  (units cs).map fun (us, rest) => ((joinPairs us).map String.ofList, rest)

/-- The digits before the point: a zero alone, or digits that start with another. -/
def whole? (cs : List Char) : Option (List Nat × List Char) :=
  match Text.takeDigits cs with
  | ([], _) => none
  | ([0], rest) => some ([0], rest)
  | (0 :: _, _) => none
  | (ds, rest) => some (ds, rest)

/-- A point and digits, if there is a point. -/
def fraction? : List Char → Option (Option (List Nat) × List Char)
  | '.' :: cs =>
    match Text.takeDigits cs with
    | ([], _) => none
    | (ds, rest) => some (some ds, rest)
  | cs => some (none, cs)

/-- The sign and digits after an exponent mark. -/
def power? (cs : List Char) : Option (Option (Bool × List Nat) × List Char) :=
  let (negative, body) := match cs with
    | '-' :: rest => (true, rest)
    | '+' :: rest => (false, rest)
    | _ => (false, cs)
  match Text.takeDigits body with
  | ([], _) => none
  | (ds, rest) => some (some (negative, ds), rest)

/-- An exponent, if there is a mark. -/
def exponent? : List Char → Option (Option (Bool × List Nat) × List Char)
  | 'e' :: cs => power? cs
  | 'E' :: cs => power? cs
  | cs => some (none, cs)

/-- A number. -/
def number? (cs : List Char) : Option (Literal × List Char) := do
  let (negative, cs) := match cs with
    | '-' :: rest => (true, rest)
    | _ => (false, cs)
  let (ds, cs) ← whole? cs
  let (fraction, cs) ← fraction? cs
  let (exponent, cs) ← exponent? cs
  return (⟨negative, ds, fraction, exponent⟩, cs)

mutual

/-- A value and the text after it; no text after it once something is broken. -/
def value : Nat → List Char → Node × Option (List Char)
  | 0, _ => (.broken, none)
  | fuel + 1, cs =>
    match skipBlanks cs with
    | 'n' :: 'u' :: 'l' :: 'l' :: rest => (.null, some rest)
    | 't' :: 'r' :: 'u' :: 'e' :: rest => (.bool true, some rest)
    | 'f' :: 'a' :: 'l' :: 's' :: 'e' :: rest => (.bool false, some rest)
    | '"' :: rest =>
      match string? rest with
      | some (s, r) => (.string s, some r)
      | none => (.broken, none)
    | '[' :: rest =>
      match skipBlanks rest with
      | ']' :: r => (.array [], some r)
      | r => let (ns, k) := items fuel r; (.array ns, k)
    | '\x7b' :: rest =>
      match skipBlanks rest with
      | '\x7d' :: r => (.object [], some r)
      | r => let (ms, k) := members fuel r; (.object ms, k)
    | rest =>
      match number? rest with
      | some (l, r) => (.number l, some r)
      | none => (.broken, none)

/-- The items of an array from one of them to the closing bracket. -/
def items : Nat → List Char → List Node × Option (List Char)
  | 0, _ => ([.broken], none)
  | fuel + 1, cs =>
    match value fuel cs with
    | (n, none) => ([n], none)
    | (n, some rest) =>
      match skipBlanks rest with
      | ',' :: r => let (ns, k) := items fuel r; (n :: ns, k)
      | ']' :: r => ([n], some r)
      | _ => ([n, .broken], none)

/-- The members of an object from one of them to the closing brace. -/
def members : Nat → List Char → List (Chars × Node) × Option (List Char)
  | 0, _ => ([(none, .broken)], none)
  | fuel + 1, cs =>
    match skipBlanks cs with
    | '"' :: rest =>
      match string? rest with
      | none => ([(none, .broken)], none)
      | some (key, r) =>
        match skipBlanks r with
        | ':' :: r =>
          match value fuel r with
          | (n, none) => ([(key, n)], none)
          | (n, some r) =>
            match skipBlanks r with
            | ',' :: r => let (ms, k) := members fuel r; ((key, n) :: ms, k)
            | '\x7d' :: r => ([(key, n)], some r)
            | _ => ([(key, n), (none, .broken)], none)
        | _ => ([(key, .broken)], none)
    | _ => ([(none, .broken)], none)

end

/-- The document of a text, and whether nothing but blanks follows it. -/
def read (text : String) : Node × Bool :=
  let cs := text.toList
  let (n, rest) := value (2 * cs.length + 2) cs
  (n, (rest.map skipBlanks) == some [])

end Document

mutual

/-- Nothing below is broken. -/
def Node.isIntact : Node → Bool
  | .broken => false
  | .array items => Node.allIntact items
  | .object members => Node.membersIntact members
  | _ => true

/-- No node is broken below. -/
def Node.allIntact : List Node → Bool
  | [] => true
  | n :: ns => n.isIntact && Node.allIntact ns

/-- No member's value is broken below. -/
def Node.membersIntact : List (Chars × Node) → Bool
  | [] => true
  | (_, n) :: ms => n.isIntact && Node.membersIntact ms

end

mutual

/-- The value, with at most `room - 1` arrays and objects around any part of it. -/
def Node.value? (room : Nat) : Node → Option Value
  | .null => some .null
  | .bool b => some (.bool b)
  | .number l => l.number?.map .number
  | .string s => s.map .string
  | .array items =>
    if 2 ≤ room then (Node.values? (room - 1) items).map .array else none
  | .object members =>
    if 2 ≤ room then (Node.memberValues? (room - 1) members).map .ofMembers else none
  | .broken => none

/-- The values of all items. -/
def Node.values? (room : Nat) : List Node → Option (List Value)
  | [] => some []
  | n :: ns => do
    let v ← n.value? room
    let vs ← Node.values? room ns
    return v :: vs

/-- The values of all members. -/
def Node.memberValues? (room : Nat) : List (Chars × Node) → Option (List (String × Value))
  | [] => some []
  | (key, n) :: ms => do
    let key ← key
    let v ← n.value? room
    let vs ← Node.memberValues? room ms
    return (key, v) :: vs

end

end SpotGateway.Json
