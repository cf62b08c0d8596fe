import KeyedLedger.Http.Path

/-! # Resources

What a path leads to, and the methods that it takes. A resource that can be read also answers a
request for the head of its response. The identifier in a path may be anything but empty; it is
kept as it is written.
-/

namespace KeyedLedger.Http

/-- What a path leads to. -/
inductive Resource where
  | accounts
  | account (id : String)
  | accountTransactions (id : String)
  | transactions
  | health
  | feed
deriving DecidableEq, Repr

namespace Resource

/-- The resource at the segments of a path. -/
def ofSegments? : List String → Option Resource
  | ["", "api", "accounts"] => some accounts
  | ["", "api", "accounts", id] => if id.isEmpty then none else some (account id)
  | ["", "api", "accounts", id, "transactions"] =>
    if id.isEmpty then none else some (accountTransactions id)
  | ["", "api", "transactions"] => some transactions
  | ["", "health"] => some health
  | ["", "ws"] => some feed
  | _ => none

/-- The resource that a target leads to. -/
def ofTarget? (target : String) : Option Resource :=
  ofSegments? (Path.ofTarget target)

/-- The methods that the resource takes. -/
def methods : Resource → List String
  | accounts => ["POST"]
  | transactions => ["POST"]
  | account _ => ["GET", "HEAD"]
  | accountTransactions _ => ["GET", "HEAD"]
  | health => ["GET", "HEAD"]
  | feed => ["GET", "HEAD"]

end Resource

end KeyedLedger.Http
