import KeyedLedger.Message.Outcome

/-! # Waiting callers

A caller waits for the outcome of a request under its key. All who wait for one key share a
slot: the first of them has to publish the command, and the others only wait. The slot takes one
resolution, which every one of them sees, and it goes away when the last of them leaves.
-/

namespace KeyedLedger

/-- How a request ended. -/
inductive Resolution where
  /-- It succeeded, with this answer. -/
  | completed (payload : Json)
  /-- The ledger rejected it. -/
  | rejected (rejection : Rejection)
  /-- It never reached the ledger. -/
  | aborted (reason : String)

/-- The end of a request as JSON. -/
def Resolution.toJson : Resolution → Json
  | completed payload => .object [("completed", payload)]
  | rejected rejection => .object [("rejected", rejection.toJson)]
  | aborted reason => .object [("aborted", .string reason)]

/-- What a caller who has just joined is to do. -/
inductive Role where
  | publisher
  | attached
deriving DecidableEq, Repr

/-- What those who wait for one key share. -/
structure Slot where
  resolution : Option Resolution := none
  waiters : Nat := 1

/-- The slots by key. -/
structure Waiting where
  slots : List (String × Slot) := []

namespace Waiting

instance : Inhabited Waiting := ⟨{}⟩

/-- The slot of a key. -/
def slot? (w : Waiting) (key : String) : Option Slot :=
  w.slots.lookup key

/-- The slots with that of a key changed. -/
def update (w : Waiting) (key : String) (f : Slot → Slot) : Waiting :=
  ⟨w.slots.map fun (k, slot) => (k, if k = key then f slot else slot)⟩

/-- A caller joins those who wait for a key. -/
def join (w : Waiting) (key : String) : Role × Waiting :=
  match w.slot? key with
  | some _ => (.attached, w.update key fun slot => { slot with waiters := slot.waiters + 1 })
  | none => (.publisher, ⟨w.slots ++ [(key, {})]⟩)

/-- Resolves a key, and tells whether there was an unresolved slot for it. -/
def resolve (w : Waiting) (key : String) (resolution : Resolution) : Bool × Waiting :=
  match w.slot? key with
  | some ⟨none, _⟩ => (true, w.update key fun slot => { slot with resolution := some resolution })
  | _ => (false, w)

/-- One of those who wait for a key leaves. -/
def leave (w : Waiting) (key : String) : Waiting :=
  match w.slot? key with
  | none => w
  | some slot =>
    if slot.waiters ≤ 1 then ⟨w.slots.filter fun s => s.1 ≠ key⟩
    else w.update key fun slot => { slot with waiters := slot.waiters - 1 }

/-- What a caller who waits for a key sees. -/
def outcome? (w : Waiting) (key : String) : Option Resolution :=
  (w.slot? key).bind Slot.resolution

/-- Somebody waits for the key. -/
def isPending (w : Waiting) (key : String) : Bool :=
  (w.slot? key).isSome

/-- The keys that somebody waits for. -/
def size (w : Waiting) : Nat :=
  w.slots.length

end Waiting

end KeyedLedger
