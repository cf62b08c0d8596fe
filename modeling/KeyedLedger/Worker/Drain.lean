/-! # Draining

When the program ends it waits for its tasks, one after the other, and for each of them only so
long. The tasks run meanwhile, so a task whose turn comes late may have ended by then.
-/

namespace KeyedLedger

/-- A task, by what becomes of it. Times are in milliseconds. -/
inductive Task where
  | ends (time : Nat)
  | panics
  | hangs
deriving DecidableEq, Repr

namespace Task

/-- When the task is over, if it ever is. -/
def over? : Task → Option Nat
  | ends time => some time
  | panics => some 0
  | hangs => none

/-- The time after waiting for the task, at most so long. -/
def await (timeout now : Nat) (t : Task) : Nat :=
  match t.over? with
  | some time => max now (min time (now + timeout))
  | none => now + timeout

/-- The time after waiting for each task in turn. -/
def drain (timeout : Nat) (tasks : List Task) : Nat :=
  tasks.foldl (await timeout) 0

end Task

end KeyedLedger
