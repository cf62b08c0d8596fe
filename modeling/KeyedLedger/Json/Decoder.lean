import KeyedLedger.Decimal.Text
import KeyedLedger.Identifier
import KeyedLedger.Json.Document
import KeyedLedger.Time.Text

/-! # Decoding

A decoder takes a part of a JSON text to a value of the domain, or to the first fault that
the text shows when it is read from left to right. Faults are of three kinds: the text is no
JSON, it is JSON of another form than the wanted one, or a value in it is refused by the domain,
which says why.

A record (`Shape`) is an object with the record's fields in any order, or an array with
them in their declared order. In an object, other members are passed over, a repeated or
missing field is a fault, and an optional field may be missing or null.
-/

namespace KeyedLedger

/-- Why a text is not decoded. -/
inductive Fault where
  /-- The text is no JSON. -/
  | malformed
  /-- The text has another form than the wanted one. -/
  | unfit
  /-- A value is refused by the domain. -/
  | refused (reason : String)
deriving DecidableEq, Repr

/-- What is said of a fault. -/
def Fault.message : Fault → String
  | malformed => "the text is not JSON"
  | unfit => "the JSON text does not have the expected form"
  | refused reason => reason

/-- Takes a part of a JSON text to a value. -/
abbrev Decoder (α : Type) := Document.Node → Except Fault α

namespace Decoder

open Document (Node)

/-- A decoder that goes on with what another one found. -/
def check {α β : Type} (d : Decoder α) (f : α → Except Fault β) : Decoder β :=
  fun node => (d node).bind f

/-- A value that is there, else a fault of form. -/
def require {α : Type} : Option α → Except Fault α
  | some a => .ok a
  | none => .error .unfit

/-- The fault of a part that is of no wanted kind. -/
def reject {α : Type} : Decoder α
  | .broken => .error .malformed
  | .string none => .error .malformed
  | _ => .error .unfit

/-- A string. -/
def string : Decoder String
  | .string (some s) => .ok s
  | node => reject node

/-- A truth value. -/
def bool : Decoder Bool
  | .bool b => .ok b
  | node => reject node

/-- A whole number in a range, written without point or exponent. A zero has no sign. -/
def int (least greatest : Int) : Decoder Int
  | .number text => require <| do
    let n ← match text.toList with
      | '-' :: digits => (Text.natural? digits).bind fun n => if n = 0 then none else some (-(n : Int))
      | digits => (Text.natural? digits).map Int.ofNat
    if least ≤ n ∧ n ≤ greatest then some n else none
  | node => reject node

/-- A whole number of 64 bits with a sign. -/
def int64 : Decoder Int64 :=
  check (int (-9223372036854775808) 9223372036854775807) fun n => .ok (Int64.ofInt n)

/-- A whole number of a given count of bits, without a sign. -/
def word (bits : Nat) : Decoder Nat :=
  check (int 0 (Nat.pow 2 bits - 1)) fun n => .ok n.toNat

/-- A decimal, given as a string or as a number. -/
def decimal : Decoder Decimal
  | .string (some s) => require (Decimal.read? s)
  | .number text => require (Decimal.read? text)
  | node => reject node

/-- An identifier. -/
def identifier : Decoder Identifier :=
  check string fun s => require (Identifier.read? s)

/-- A point in time. -/
def timestamp : Decoder Timestamp :=
  check string fun s => require (Timestamp.readLenient? s)

/-- Any value, nested at most `depth` deep. -/
def json (depth : Nat) : Decoder Json := fun node =>
  match node.toJson? depth with
  | some j => .ok j
  | none => .error .malformed

/-- A value, or null for none. -/
def option {α : Type} (d : Decoder α) : Decoder (Option α)
  | .null => .ok none
  | node => (d node).map some

/-- Each of the parts decoded in turn. -/
def items {α : Type} (d : Decoder α) : List Node → Except Fault (List α)
  | [] => .ok []
  | node :: rest => do
    let a ← d node
    let as ← items d rest
    return a :: as

/-- An array of values. -/
def list {α : Type} (d : Decoder α) : Decoder (List α)
  | .array nodes closed => do
    let as ← items d nodes
    if closed then .ok as else .error .malformed
  | node => reject node

/-- One of a set of names: the name as a string, or as the only key of an object whose
value is null. -/
def name {α : Type} (named? : String → Option α) : Decoder α
  | .string (some s) => require (named? s)
  | .object [(some s, .null)] true => require (named? s)
  | node => reject node

end Decoder

/-- A field of a record: its key, whether it may be missing at the end of an array, and
the faults of its value. -/
structure Field where
  key : String
  defaulted : Bool
  check : Document.Node → Except Fault Unit

/-- How the fields of a record make up a value. -/
structure Shape (α : Type) where
  fields : List Field
  build : (String → Option Document.Node) → Except Fault α

namespace Shape

open Document (Node)

/-- Forgets what was found. -/
def check {α : Type} (d : Decoder α) (node : Node) : Except Fault Unit :=
  (d node).map fun _ => ()

/-- A field that must be there. -/
def field {α : Type} (key : String) (d : Decoder α) : Shape α where
  fields := [⟨key, false, check d⟩]
  build get := (Decoder.require (get key)).bind d

/-- A field that may be missing or null. -/
def optional {α : Type} (key : String) (d : Decoder α) : Shape (Option α) where
  fields := [⟨key, false, check (Decoder.option d)⟩]
  build get := match get key with
    | none => .ok none
    | some node => Decoder.option d node

/-- A field that may be missing, with the value that it then has. -/
def withDefault {α : Type} (key : String) (d : Decoder α) (value : α) : Shape α where
  fields := [⟨key, true, check d⟩]
  build get := match get key with
    | none => .ok value
    | some node => d node

instance : Functor Shape where
  map f s := ⟨s.fields, fun get => (s.build get).map f⟩

instance : Seq Shape where
  seq f s := ⟨f.fields ++ (s ()).fields, fun get => do
    let g ← f.build get
    let a ← (s ()).build get
    return g a⟩

/-- The members of an object that belong to a record, each of them checked when its turn
comes. -/
def readMembers (fields : List Field) : List (Option String × Node) → (seen : List String) →
    Except Fault (List (String × Node))
  | [], _ => .ok []
  | (none, _) :: _, _ => .error .malformed
  | (some key, node) :: rest, seen =>
    match fields.find? fun f => f.key == key with
    | none => if node.isWellFormed then readMembers fields rest seen else .error .malformed
    | some f =>
      if key ∈ seen then .error .unfit
      else do
        f.check node
        let members ← readMembers fields rest (key :: seen)
        return (key, node) :: members

/-- The items of an array as the fields of a record, in order. -/
def readItems : List Field → List Node → Except Fault (List (String × Node))
  | [], [] => .ok []
  | [], _ :: _ => .error .malformed
  | f :: fields, [] => if f.defaulted then readItems fields [] else .error .unfit
  | f :: fields, node :: nodes => do
    f.check node
    let members ← readItems fields nodes
    return (f.key, node) :: members

/-- The decoder of a record. -/
def decoder {α : Type} (s : Shape α) : Decoder α
  | .object members closed => do
    let found ← readMembers s.fields members []
    if closed then s.build fun key => found.lookup key else .error .malformed
  | .array nodes closed => do
    let found ← readItems s.fields (if closed then nodes else nodes ++ [.broken])
    s.build fun key => found.lookup key
  | node => Decoder.reject node

/-- The decoder of one of several records, told apart by a member with the record's name. The
other members must make up a value of their own. -/
def tagged {α : Type} (tag : String) (variant? : String → Option (Decoder α)) (depth : Nat) :
    Decoder α
  | node@(.object members true) => do
    let _ ← Decoder.json depth node
    match members.filter fun m => m.1 == some tag with
    | [(_, tagNode)] =>
      let name ← Decoder.string tagNode
      let d ← Decoder.require (variant? name)
      d (.object (members.filter fun m => m.1 != some tag) true)
    | _ => .error .unfit
  | node@(.array (tagNode :: rest) true) => do
    let _ ← Decoder.json depth node
    let name ← Decoder.string tagNode
    let d ← Decoder.require (variant? name)
    d (.array rest true)
  | node => Decoder.reject node

/-- A record without fields. -/
def empty {α : Type} (a : α) : Shape α where
  fields := []
  build _ := .ok a

end Shape

namespace Document

/-- The value of a whole text. -/
def decode {α : Type} (doc : Document) (d : Decoder α) : Except Fault α := do
  let a ← d doc.root
  if doc.ended then return a else .error .malformed

end Document

/-- The value that a byte string spells. -/
def Decoder.ofBytes {α : Type} (d : Decoder α) (bytes : ByteArray) : Except Fault α :=
  (Document.ofBytes bytes).decode d

/-- The value that a text spells. -/
def Decoder.ofString {α : Type} (d : Decoder α) (s : String) : Except Fault α :=
  (Document.ofString s).decode d

/-- The value that a JSON value stands for. -/
def Decoder.ofJson {α : Type} (d : Decoder α) (j : Json) : Except Fault α :=
  d (Document.ofJson j)

end KeyedLedger
