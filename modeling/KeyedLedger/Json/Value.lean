import KeyedLedger.Text.Hex

/-! # JSON values

A number is kept as it is written, so no digit and no trailing zero is lost. The members of an
object are kept in order; a value is *sorted* when every object lists its members by key, each
key once. A value is written without blanks, and a character is escaped only where it has to be.
-/

namespace KeyedLedger

/-- A JSON value. -/
inductive Json where
  | null
  | bool (value : Bool)
  | number (text : String)
  | string (text : String)
  | array (items : List Json)
  | object (members : List (String × Json))

namespace Json

instance : Inhabited Json := ⟨null⟩

/-- A whole number. -/
def ofInt (n : Int) : Json :=
  number (toString n)

/-- A whole number that is not negative. -/
def ofNat (n : Nat) : Json :=
  number (toString n)

/-- The text, or null for none. -/
def ofOption : Option Json → Json
  | none => null
  | some j => j

/-- The member with a key, the first of them. -/
def member? (key : String) : Json → Option Json
  | object members => members.lookup key
  | _ => none

/-- The members with one more, in its place by key; an earlier one with the key gives way. -/
def insertMember (key : String) (value : Json) : List (String × Json) → List (String × Json)
  | [] => [(key, value)]
  | (k, v) :: rest =>
    if key < k then (key, value) :: (k, v) :: rest
    else if key = k then (key, value) :: rest
    else (k, v) :: insertMember key value rest

mutual

/-- The value with the members of every object in the order of their keys. -/
def sorted : Json → Json
  | array items => array (sortedItems items)
  | object members => object (sortedMembers members [])
  | null => null
  | bool b => bool b
  | number t => number t
  | string s => string s

/-- Each item sorted. -/
def sortedItems : List Json → List Json
  | [] => []
  | j :: rest => sorted j :: sortedItems rest

/-- The members inserted one after the other, each of them sorted. -/
def sortedMembers : List (String × Json) → List (String × Json) → List (String × Json)
  | [], done => done
  | (k, v) :: rest, done => sortedMembers rest (insertMember k (sorted v) done)

end

/-- A character inside a written string. -/
def escape (c : Char) : List Char :=
  if c = '"' then ['\\', '"']
  else if c = '\\' then ['\\', '\\']
  else if c = '\n' then ['\\', 'n']
  else if c = '\r' then ['\\', 'r']
  else if c = '\t' then ['\\', 't']
  else if c = '\x08' then ['\\', 'b']
  else if c = '\x0c' then ['\\', 'f']
  else if h : c.toNat < 32 then
    ['\\', 'u', '0', '0', Text.hexDigit ⟨c.toNat / 16, by omega⟩,
      Text.hexDigit ⟨c.toNat % 16, by omega⟩]
  else [c]

/-- A written string, with its quotes. -/
def quote (s : String) : List Char :=
  '"' :: s.toList.flatMap escape ++ ['"']

mutual

/-- The characters of the written value. -/
def toChars : Json → List Char
  | null => "null".toList
  | bool true => "true".toList
  | bool false => "false".toList
  | number t => t.toList
  | string s => quote s
  | array items => '[' :: itemChars items ++ [']']
  | object members => '\x7b' :: memberChars members ++ ['\x7d']

/-- The written items, with commas between them. -/
def itemChars : List Json → List Char
  | [] => []
  | [j] => toChars j
  | j :: rest => toChars j ++ ',' :: itemChars rest

/-- The written members, with commas between them. -/
def memberChars : List (String × Json) → List Char
  | [] => []
  | [(k, v)] => quote k ++ ':' :: toChars v
  | (k, v) :: rest => quote k ++ ':' :: toChars v ++ ',' :: memberChars rest

end

/-- The written value. -/
def render (j : Json) : String :=
  String.ofList j.toChars

end Json

end KeyedLedger
