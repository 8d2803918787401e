import SharedScene.Json.Basic

/-!
# The limits of a test run

The executor gets the time limit; the scheduler uses the rest. Before the retry that follows
attempt `n` a run waits `retryDelay · backoffFactor^(n-1)` milliseconds, at most `maxRetryDelay`.
The power is taken by squaring in doubles, the product is cut to whole milliseconds between zero
and the limit, and a product that is no finite number counts as the limit.
-/

namespace SharedScene

/-- The limits of a test run, in milliseconds where they are times. -/
structure SafetyPolicy where
  timeout : Nat := 120000
  maxRetries : Nat := 2
  retryDelay : Nat := 1000
  backoffFactor : Float := 2.0
  maxRetryDelay : Nat := 30000
deriving BEq, Inhabited

namespace SafetyPolicy

/-- The product `acc · x^n`, by squaring `x`; `fuel` bits of `n` are looked at. -/
def powerFrom : Nat → Float → Float → Nat → Float
  | 0, acc, _, _ => acc
  | fuel + 1, acc, x, n =>
    let acc := if n % 2 = 1 then acc * x else acc
    if n / 2 = 0 then acc else powerFrom fuel acc (x * x) (n / 2)

/-- A power of a double with an exponent of at most 32 bits. -/
def power (x : Float) (n : Nat) : Float := powerFrom 32 1.0 x n

/-- The largest exponent of a backoff. -/
def maxExponent : Nat := Nat.pow 2 31 - 1

def toDouble (n : Nat) : Float := Float.ofScientific n false 0

/-- The milliseconds to wait after an attempt, as the policy says. -/
def delayAfter (p : SafetyPolicy) (attempt : Nat) : Nat :=
  let raw := toDouble p.retryDelay * power p.backoffFactor (min (attempt - 1) maxExponent)
  if raw.isFinite then
    let cap := toDouble p.maxRetryDelay
    let clamped := if raw < 0.0 then 0.0 else if cap < raw then cap else raw
    clamped.toUInt64.toNat
  else p.maxRetryDelay

/-- The longest duration in milliseconds. -/
def maxDuration : Nat := Nat.pow 2 63 - 1

/-- The duration to wait after an attempt. -/
def durationAfter (p : SafetyPolicy) (attempt : Nat) : Int := min (p.delayAfter attempt) maxDuration

end SafetyPolicy

end SharedScene
