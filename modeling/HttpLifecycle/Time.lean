namespace HttpLifecycle

abbrev Duration := Nat

/-- Nanoseconds since the start of the run. A clock may be set back, so two
readings come in no fixed order. -/
abbrev Instant := Nat

namespace Duration

def ofMillis (n : Nat) : Duration := n * 1000000

def ofMicros (n : Nat) : Duration := n * 1000

def toMillis (d : Duration) : Nat := d / 1000000

def toMicros (d : Duration) : Nat := d / 1000

end Duration

/-- The first whole millisecond that is not before `t`. -/
def Instant.tick (t : Instant) : Instant := (t + 999999) / 1000000 * 1000000

theorem Instant.le_tick (t : Instant) : t ≤ t.tick := by
  change @LE.le Nat _ t ((t + 999999) / 1000000 * 1000000)
  omega

def Instant.since (now start : Instant) : Duration := now - start

/-- A clock, by the first instant that it cannot tell, if there is one. -/
structure Clock where
  limit : Option Instant := none
  deriving DecidableEq, Repr

namespace Clock

def endless : Clock := {}

def tells (k : Clock) (t : Instant) : Bool := k.limit.all (t < ·)

@[simp] theorem endless_tells (t : Instant) : endless.tells t = true := rfl

end Clock

end HttpLifecycle
