import KeyedLedger.Json.Value
import KeyedLedger.Text.Bytes

/-! # JSON text as it is written

Reading a text gives a document: a tree that keeps what was written, in the order in which
it was written, repeated members included. The tree ends where the text stops being JSON, and
it says so: a part that is not JSON is `broken`, and an array or object that never closes is
marked as open. What is wanted of a text decides how much of it has to be right. A part that is
passed over only has to be well formed (`Document.Node.isWellFormed`), a string that is used also
has to consist of characters, and a value that is kept must not nest too deep
(`Document.Node.toJson?`).
-/

namespace KeyedLedger.Document

open KeyedLedger.Text

/-- A part of a JSON text. A string or key that cannot be spelled out is `none`. -/
inductive Node where
  | null
  | bool (value : Bool)
  | number (text : String)
  | string (text : Option String)
  | array (items : List Node) (closed : Bool)
  | object (members : List (Option String × Node)) (closed : Bool)
  | broken

instance : Inhabited Node := ⟨.broken⟩

/-! ## Strings -/

/-- A part of a written string: a character, a code unit given by its number, or a stray byte. -/
inductive Piece where
  | char (c : Char)
  | unit (code : Nat)
  | stray
deriving DecidableEq

/-- The character that a backslash and a letter stand for. -/
def unescape? : Char → Option Char
  | '"' => some '"'
  | '\\' => some '\\'
  | '/' => some '/'
  | 'b' => some '\x08'
  | 'f' => some '\x0c'
  | 'n' => some '\n'
  | 'r' => some '\r'
  | 't' => some '\t'
  | _ => none

/-- The number written with four hexadecimal digits. -/
def hexUnit? (a b c d : Char) : Option Nat := do
  let a ← hexValue? a
  let b ← hexValue? b
  let c ← hexValue? c
  let d ← hexValue? d
  some (a * 4096 + b * 256 + c * 16 + d)

/-- The pieces of a string up to its closing quote, and the rest of the text. -/
def readPieces : List Symbol → Option (List Piece × List Symbol)
  | [] => none
  | .char '"' :: rest => some ([], rest)
  | .char '\\' :: .char 'u' :: .char a :: .char b :: .char c :: .char d :: rest => do
    let unit ← hexUnit? a b c d
    let (pieces, rest) ← readPieces rest
    some (.unit unit :: pieces, rest)
  | .char '\\' :: .char e :: rest => do
    let c ← unescape? e
    let (pieces, rest) ← readPieces rest
    some (.char c :: pieces, rest)
  | .char '\\' :: _ => none
  | .char c :: rest =>
    if c.toNat < 32 then none
    else (readPieces rest).map fun (pieces, rest) => (.char c :: pieces, rest)
  | .stray _ :: rest => (readPieces rest).map fun (pieces, rest) => (.stray :: pieces, rest)

/-- The first half of a surrogate pair. -/
def isHighSurrogate (code : Nat) : Bool :=
  0xD800 ≤ code ∧ code < 0xDC00

/-- The second half of a surrogate pair. -/
def isLowSurrogate (code : Nat) : Bool :=
  0xDC00 ≤ code ∧ code < 0xE000

/-- The characters of a string, if it has no stray byte and no half of a surrogate pair. -/
def spell? : List Piece → Option (List Char)
  | [] => some []
  | .char c :: rest => (spell? rest).map (c :: ·)
  | .stray :: _ => none
  | .unit high :: .unit low :: rest =>
    if isHighSurrogate high then
      if isLowSurrogate low then
        (spell? rest).map (Char.ofNat (0x10000 + (high - 0xD800) * 0x400 + (low - 0xDC00)) :: ·)
      else none
    else if isLowSurrogate high then none
    else (spell? (.unit low :: rest)).map (Char.ofNat high :: ·)
  | .unit code :: rest =>
    if isHighSurrogate code || isLowSurrogate code then none
    else (spell? rest).map (Char.ofNat code :: ·)

/-- The string after an opening quote, and the rest of the text. -/
def readString (s : List Symbol) : Option (Option String × List Symbol) :=
  (readPieces s).map fun (pieces, rest) => ((spell? pieces).map String.ofList, rest)

/-! ## Numbers and words -/

/-- The run of decimal digits at the start of a text, and the rest. -/
def spanDigits : List Symbol → List Char × List Symbol
  | .char c :: rest =>
    if c.isDigit then
      let (digits, after) := spanDigits rest
      (c :: digits, after)
    else ([], .char c :: rest)
  | s => ([], s)

/-- The whole part of a number: a zero alone, or digits that begin with another one. -/
def readWhole (s : List Symbol) : Option (List Char × List Symbol) :=
  match spanDigits s with
  | ([], _) => none
  | ('0' :: _ :: _, _) => none
  | (digits, rest) => some (digits, rest)

/-- The point and digits of a number, if it has a point. -/
def readFraction : List Symbol → Option (List Char × List Symbol)
  | .char '.' :: s =>
    match spanDigits s with
    | ([], _) => none
    | (digits, rest) => some ('.' :: digits, rest)
  | s => some ([], s)

/-- The sign of an exponent, if it has one. -/
def readExponentSign : List Symbol → List Char × List Symbol
  | .char '+' :: s => (['+'], s)
  | .char '-' :: s => (['-'], s)
  | s => ([], s)

/-- The exponent of a number, if it has one. -/
def readExponent : List Symbol → Option (List Char × List Symbol)
  | .char c :: s =>
    if c = 'e' ∨ c = 'E' then
      let (sign, s) := readExponentSign s
      match spanDigits s with
      | ([], _) => none
      | (digits, rest) => some (c :: sign ++ digits, rest)
    else some ([], .char c :: s)
  | s => some ([], s)

/-- A number as it is written, and the rest of the text. -/
def readNumber (s : List Symbol) : Option (String × List Symbol) := do
  let (sign, s) := match s with
    | .char '-' :: s => (['-'], s)
    | s => ([], s)
  let (whole, s) ← readWhole s
  let (fraction, s) ← readFraction s
  let (exponent, s) ← readExponent s
  some (String.ofList (sign ++ whole ++ fraction ++ exponent), s)

/-- The text after a given word. -/
def afterWord : List Char → List Symbol → Option (List Symbol)
  | [], s => some s
  | c :: word, .char d :: s => if c = d then afterWord word s else none
  | _ :: _, _ => none

/-! ## Values -/

/-- The text from its first symbol that is not a space, tab or line end. -/
def skipSpace : List Symbol → List Symbol
  | .char c :: s => if c = ' ' ∨ c = '\n' ∨ c = '\t' ∨ c = '\r' then skipSpace s else .char c :: s
  | s => s

/-- A node with the rest of the text; none where the text stopped being JSON. -/
def ofWord (node : Node) (rest : Option (List Symbol)) : Node × Option (List Symbol) :=
  match rest with
  | some s => (node, some s)
  | none => (.broken, none)

mutual

/-- The value at the start of a text. The first argument bounds the nesting. -/
def readValue : Nat → List Symbol → Node × Option (List Symbol)
  | 0, _ => (.broken, none)
  | fuel + 1, s =>
    match skipSpace s with
    | .char '"' :: s =>
      match readString s with
      | some (text, rest) => (.string text, some rest)
      | none => (.broken, none)
    | .char '[' :: s =>
      match skipSpace s with
      | .char ']' :: rest => (.array [] true, some rest)
      | s =>
        let (items, rest) := readItems fuel s
        (.array items rest.isSome, rest)
    | .char '\x7b' :: s =>
      match skipSpace s with
      | .char '\x7d' :: rest => (.object [] true, some rest)
      | s =>
        let (members, rest) := readMembers fuel s
        (.object members rest.isSome, rest)
    | .char 'n' :: s => ofWord .null (afterWord ['u', 'l', 'l'] s)
    | .char 't' :: s => ofWord (.bool true) (afterWord ['r', 'u', 'e'] s)
    | .char 'f' :: s => ofWord (.bool false) (afterWord ['a', 'l', 's', 'e'] s)
    | s =>
      match readNumber s with
      | some (text, rest) => (.number text, some rest)
      | none => (.broken, none)

/-- The items of an array up to its end. -/
def readItems : Nat → List Symbol → List Node × Option (List Symbol)
  | 0, _ => ([], none)
  | fuel + 1, s =>
    match readValue fuel s with
    | (node, none) => ([node], none)
    | (node, some rest) =>
      match skipSpace rest with
      | .char ']' :: rest => ([node], some rest)
      | .char ',' :: rest =>
        let (nodes, rest) := readItems fuel rest
        (node :: nodes, rest)
      | _ => ([node], none)

/-- The members of an object up to its end. -/
def readMembers : Nat → List Symbol → List (Option String × Node) × Option (List Symbol)
  | 0, _ => ([], none)
  | fuel + 1, s =>
    match skipSpace s with
    | .char '"' :: s =>
      match readString s with
      | none => ([], none)
      | some (key, rest) =>
        match skipSpace rest with
        | .char ':' :: rest =>
          match readValue fuel rest with
          | (node, none) => ([(key, node)], none)
          | (node, some rest) =>
            match skipSpace rest with
            | .char '\x7d' :: rest => ([(key, node)], some rest)
            | .char ',' :: rest =>
              let (members, rest) := readMembers fuel rest
              ((key, node) :: members, rest)
            | _ => ([(key, node)], none)
        | _ => ([(key, .broken)], none)
    | _ => ([], none)

end

end Document

/-- A JSON text: its value, and whether nothing but blanks comes after it. -/
structure Document where
  root : Document.Node
  ended : Bool

namespace Document

/-- The document that a run of symbols spells. -/
def ofSymbols (s : List Text.Symbol) : Document :=
  match readValue (2 * s.length + 2) s with
  | (root, some rest) => ⟨root, (skipSpace rest).isEmpty⟩
  | (root, none) => ⟨root, false⟩

/-- The document that a byte string spells. -/
def ofBytes (bytes : ByteArray) : Document :=
  ofSymbols (Text.symbols bytes)

/-- The document that a text spells. -/
def ofString (s : String) : Document :=
  ofSymbols (s.toList.map .char)

namespace Node

mutual

/-- The part can be passed over: it is JSON to its end. -/
def isWellFormed : Node → Bool
  | array items closed => areWellFormed items && closed
  | object members closed => membersAreWellFormed members && closed
  | broken => false
  | null => true
  | bool _ => true
  | number _ => true
  | string _ => true

/-- Each of the items is JSON to its end. -/
def areWellFormed : List Node → Bool
  | [] => true
  | node :: rest => isWellFormed node && areWellFormed rest

/-- The value of each member is JSON to its end. -/
def membersAreWellFormed : List (Option String × Node) → Bool
  | [] => true
  | (_, node) :: rest => isWellFormed node && membersAreWellFormed rest

end

mutual

/-- The value of the part, with its members sorted. It can hold at most `depth` arrays and
objects inside each other; of two members with one key the later counts. -/
def toJson? (depth : Nat) : Node → Option Json
  | null => some .null
  | bool b => some (.bool b)
  | number t => some (.number t)
  | string s => s.map .string
  | array items closed =>
    if depth = 0 ∨ !closed then none else (itemsToJson? (depth - 1) items).map .array
  | object members closed =>
    if depth = 0 ∨ !closed then none else (membersToJson? (depth - 1) members []).map .object
  | broken => none

/-- The values of the items. -/
def itemsToJson? (depth : Nat) : List Node → Option (List Json)
  | [] => some []
  | node :: rest => do
    let value ← toJson? depth node
    let values ← itemsToJson? depth rest
    some (value :: values)

/-- The members, inserted one after the other. -/
def membersToJson? (depth : Nat) :
    List (Option String × Node) → List (String × Json) → Option (List (String × Json))
  | [], done => some done
  | (key, node) :: rest, done => do
    let key ← key
    let value ← toJson? depth node
    membersToJson? depth rest (Json.insertMember key value done)

end

end Node

mutual

/-- A value as the part of a text that writes it. -/
def ofJson : Json → Node
  | .null => .null
  | .bool b => .bool b
  | .number t => .number t
  | .string s => .string (some s)
  | .array items => .array (ofItems items) true
  | .object members => .object (ofMembers members) true

/-- The parts that write the items. -/
def ofItems : List Json → List Node
  | [] => []
  | j :: rest => ofJson j :: ofItems rest

/-- The parts that write the members. -/
def ofMembers : List (String × Json) → List (Option String × Node)
  | [] => []
  | (k, v) :: rest => (some k, ofJson v) :: ofMembers rest

end

/-- The most arrays and objects inside each other that a value read from text can have. -/
abbrev maxDepth : Nat := 127

/-- The value of a whole text. -/
def toJson? (d : Document) : Option Json :=
  if d.ended then d.root.toJson? maxDepth else none

end Document

end KeyedLedger
