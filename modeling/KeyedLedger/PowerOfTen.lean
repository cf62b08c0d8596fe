/-! # Powers of ten

The digit with `places` digits behind it counts `tenTo places` times.
-/

namespace KeyedLedger

/-- Ten multiplied with itself a number of times. -/
def tenTo (places : Nat) : Nat :=
  Nat.pow 10 places

theorem tenTo_zero : tenTo 0 = 1 := rfl

theorem tenTo_succ (places : Nat) : tenTo (places + 1) = tenTo places * 10 := rfl

theorem tenTo_pos (places : Nat) : 0 < tenTo places :=
  Nat.pow_pos (by decide)

end KeyedLedger
