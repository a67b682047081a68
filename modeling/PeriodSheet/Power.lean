/-!
# Powers

The powers that scale decimals and bound machine integers.
-/

namespace PeriodSheet

/-- A one with so many zeros after it. -/
abbrev tenPow (zeros : Nat) : Nat := Nat.pow 10 zeros

/-- How many numbers so many bits can hold. -/
abbrev twoPow (bits : Nat) : Nat := Nat.pow 2 bits

end PeriodSheet
