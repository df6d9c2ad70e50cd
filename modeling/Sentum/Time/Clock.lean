import Mathlib.Data.Int.Notation

/-!
# Time points and the replay clock

`std::chrono::system_clock` counts nanoseconds since the epoch, so a time
point and a duration are integers; the coarser durations of the program are
converted where they meet one.
-/

namespace Sentum

/-- Nanoseconds since the epoch. -/
abbrev TimePoint := Int

def microseconds (n : Int) : Int := n * 1000

def milliseconds (n : Int) : Int := n * 1000000

def seconds (n : Int) : Int := n * 1000000000

/-- `duration_cast<microseconds>`: truncates toward zero. -/
def toMicroseconds (t : TimePoint) : Int := t.tdiv 1000

/-- `duration_cast<milliseconds>` -/
def toMilliseconds (t : TimePoint) : Int := t.tdiv 1000000

/-- `duration_cast<seconds>` -/
def toSeconds (t : TimePoint) : Int := t.tdiv 1000000000

structure ReplayClock where
  current : TimePoint := 0

def ReplayClock.now (c : ReplayClock) : TimePoint := c.current

def ReplayClock.advanceTo (c : ReplayClock) (value : TimePoint) : Except String ReplayClock :=
  if value < c.current then .error "Replay clock cannot move backwards" else .ok ⟨value⟩

end Sentum
