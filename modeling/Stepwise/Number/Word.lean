/-!
# Words of fixed width

Some numbers are kept in words of 32 or 64 bits. A number either has to fit its
word or wraps around in it.
-/
namespace Stepwise.Number

def wordCount32 : Nat := 4294967296

def wordCount64 : Nat := 18446744073709551616

def least64 : Int := -9223372036854775808

def greatest64 : Int := 9223372036854775807

def least32 : Int := -2147483648

def greatest32 : Int := 2147483647

def fits64 (n : Int) : Bool :=
  least64 ≤ n && n ≤ greatest64

def fits32 (n : Int) : Bool :=
  least32 ≤ n && n ≤ greatest32

/-- A number in 64 bits with a sign, by wrapping around. -/
def wrap64 (n : Int) : Int :=
  n.bmod wordCount64

end Stepwise.Number
