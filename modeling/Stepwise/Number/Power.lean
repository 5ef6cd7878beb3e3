/-!
# Powers of two and of ten
-/
namespace Stepwise.Number

def powTwo (n : Nat) : Nat := Nat.pow 2 n

def powTen (n : Nat) : Nat := Nat.pow 10 n

theorem powTwo_pos (n : Nat) : 0 < powTwo n :=
  Nat.pow_pos (by decide)

theorem powTen_pos (n : Nat) : 0 < powTen n :=
  Nat.pow_pos (by decide)

/-- The sum of some numbers. -/
def total (ns : List Nat) : Nat :=
  ns.foldr Nat.add 0

end Stepwise.Number
