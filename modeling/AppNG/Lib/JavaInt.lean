/-!
# Lib.JavaInt

The 32-bit integers of Java, as integers that wrap around.
-/

namespace AppNG
namespace Java

def maxInt : Int := 2147483647

/-- The value of an `int` after an operation whose exact result is `n`. -/
def wrap (n : Int) : Int := (n + 2147483648) % 4294967296 - 2147483648

theorem wrap_of_range {n : Int} (h₁ : -2147483648 ≤ n) (h₂ : n ≤ maxInt) : wrap n = n := by
  unfold wrap
  unfold maxInt at h₂
  omega

@[simp] theorem wrap_zero : wrap 0 = 0 := rfl

@[simp] theorem wrap_wrap_add (n m : Int) : wrap (wrap n + m) = wrap (n + m) := by
  unfold wrap
  omega

end Java
end AppNG
