/-
  Time in milliseconds since the start.

  A clock counts up to a last instant and stays there. The time since a later
  instant is zero, so a clock that is set back makes nothing due.

  What is proved: a time that is not zero has passed just if the clock shows an instant
  so much later (`Millis.le_since_iff`).
-/
namespace GimbalLink

/-- Milliseconds. -/
abbrev Millis := Nat

/-- The last instant a clock can show. -/
def Millis.last : Millis := UInt64.size - 1

/-- The time from an earlier instant to `now`, zero if it is not earlier. -/
def Millis.since (now earlier : Millis) : Millis := now - earlier

theorem Millis.le_since_iff {now earlier d : Nat} (h : d ≠ 0) :
    d ≤ Millis.since now earlier ↔ earlier + d ≤ now := by
  show d ≤ now - earlier ↔ earlier + d ≤ now
  omega

structure Clock where
  now : Millis
  deriving DecidableEq, Inhabited

namespace Clock

def advance (c : Clock) (d : Millis) : Clock := ⟨min (c.now + d) Millis.last⟩

def elapsedSince (c : Clock) (earlier : Millis) : Millis := c.now.since earlier

end Clock

end GimbalLink
