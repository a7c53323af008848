import StandingQuery.Calendar

/-! Points in time with nanoseconds, in the years -262143 to 262142. A leap second is kept as the
last second of its minute with a thousand million nanoseconds added, so it differs from the
second that follows it. -/

namespace StandingQuery

namespace Instant

def firstYear : Int := -262143

def lastYear : Int := 262142

/-- 00:00:00 on the first day of the first year. -/
def leastSeconds : Int := 86400 * (Date.mk firstYear 1 1).dayNumber

/-- 23:59:59 on the last day of the last year. -/
def greatestSeconds : Int := 86400 * (Date.mk lastYear 12 31).dayNumber + 86399

def nanosPerSecond : Nat := 1000000000

/-- Within the supported years, with a leap second only at the end of a minute. `chrono` has them
after any other second as well, for `with_nanosecond` asks no more; they are left out here, since no
reader makes one. -/
def Fits (seconds : Int) (nanos : Nat) : Prop :=
  leastSeconds ≤ seconds ∧ seconds ≤ greatestSeconds ∧
    (nanos < nanosPerSecond ∨ nanos < 2 * nanosPerSecond ∧ seconds % 60 = 59)

instance (s : Int) (n : Nat) : Decidable (Fits s n) := by unfold Fits; infer_instance

end Instant

/-- Seconds since 1970-01-01T00:00:00Z, rounded down, and the nanoseconds beyond them. -/
structure Instant where
  seconds : Int
  nanos : Nat
  fits : Instant.Fits seconds nanos
deriving DecidableEq, Repr

namespace Instant

def ofSeconds? (seconds : Int) (nanos : Nat) : Option Instant :=
  if h : Fits seconds nanos then some ⟨seconds, nanos, h⟩ else none

/-- The instant so many milliseconds after 1970-01-01T00:00:00Z, or before if negative. -/
def ofMillis? (ms : Int) : Option Instant :=
  ofSeconds? (ms / 1000) ((ms % 1000).toNat * 1000000)

end Instant
end StandingQuery
