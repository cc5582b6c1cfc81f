import Stagewise.Timestamp
/-!
# The clock

A clock counts milliseconds from its epoch. Every reading is a little later than the one before, so
that what happens within one millisecond keeps its order.
-/

namespace Stagewise

/-- The epoch, the milliseconds since, and the number of readings taken. -/
structure Clock where
  epoch : Timestamp
  ms : Nat
  readings : Nat
  deriving Repr, Inhabited

namespace Clock

/-- The point in time so many milliseconds after the present one. -/
def after (c : Clock) (ms : Nat) : Timestamp :=
  c.epoch.addNanos ((c.ms + ms) * 1000000 + c.readings)

def now (c : Clock) : Timestamp := c.after 0

def tick (c : Clock) : Clock := { c with readings := c.readings + 1 }

def moveTo (c : Clock) (ms : Nat) : Clock := { c with ms := max c.ms ms }

end Clock

end Stagewise
