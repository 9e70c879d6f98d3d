/-!
# Arithmetic modulo a prime

Powers by repeated squaring, and the inverse as a power, which is right because of Fermat's little
theorem.
-/

namespace Sealing.Modular

/-- The power of a number modulo `m`. -/
def power (m base exponent : Nat) : Nat :=
  if exponent = 0 then 1 % m
  else
    let half := power m (base * base % m) (exponent / 2)
    if exponent % 2 = 0 then half else base * half % m
termination_by exponent
decreasing_by omega

/-- The inverse of a number modulo a prime. -/
def inverse (p a : Nat) : Nat := power p a (p - 2)

/-- The difference of two numbers modulo `m`. -/
def difference (m a b : Nat) : Nat := (a + (m - b % m)) % m

/-- The bits of a number, most significant first. -/
def bits (n : Nat) : List Bool :=
  if n = 0 then [] else bits (n / 2) ++ [n % 2 == 1]
termination_by n
decreasing_by omega

end Sealing.Modular
