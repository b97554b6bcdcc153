import Captions.Number.Binary64
import Captions.Text

/-!
# Waiting

The program asks the system to wait, and the system need not do it. A length
that is no number is refused, and so is one that has no place in the system's
clock or is negative. A wait that is not refused can still be cut short when the
user interrupts.

How long the system can wait is its own affair, so the program is given a
*sleeper* that decides. `Sleeper.system` decides by the clock alone, which counts
nanoseconds in sixty-four bits.

## Main definitions

* `Sleeper.Refusal`: Why a wait is refused.
* `Sleeper`: What is refused, and when the user interrupts.
* `Sleeper.Reaches`: The user lets a wait begin.
* `Sleeper.system`: The sleeper with the system's clock.
-/

namespace Captions

/-- Why a wait is refused. -/
inductive Sleeper.Refusal where
  /-- Its length is not a number. -/
  | notNumber
  /-- Its length lies beyond the clock. -/
  | beyondClock
  /-- Its length is below zero. -/
  | negative
  deriving DecidableEq

/-- What waiting leads to. -/
structure Sleeper where
  /-- The user interrupts the wait after this many others, or none. -/
  patience : Option Nat := none
  /-- Why a wait of a length is refused, if it is. -/
  refuses : Binary64 → Option Sleeper.Refusal

namespace Sleeper

/-- What is said about a wait that is refused. -/
def Refusal.message : Refusal → Text
  | .notNumber => "Invalid value NaN (not a number)"
  | .beyondClock => "timestamp out of range for platform time_t"
  | .negative => "sleep length must be non-negative"

/-- The user does not interrupt before the wait after so many others. That wait
    itself begins, even if it is the one to be interrupted. -/
def Reaches (sleeper : Sleeper) (waits : Nat) : Prop :=
  ∀ patience, sleeper.patience = some patience → waits ≤ patience

/-- The sleeper after a wait. -/
def waited (sleeper : Sleeper) : Sleeper :=
  { sleeper with patience := sleeper.patience.map (· - 1) }

/-- The nanoseconds in a second. -/
def nanos : Binary64 := Binary64.ofInt 1000000000

/-- The number of nanoseconds at which the clock ends. -/
def clockEnd : Int := 9223372036854775808

/-- Why the clock refuses a wait, if it does. The nanoseconds are rounded before
    they are compared. -/
def refusal? (seconds : Binary64) : Option Refusal :=
  if seconds = .nan then some .notNumber
  else if !(seconds.mul nanos).lt (Binary64.ofInt clockEnd) ||
      (seconds.mul nanos).lt (Binary64.ofInt (-clockEnd)) then some .beyondClock
  else if seconds.lt Binary64.zero then some .negative
  else none

/-- The sleeper with the system's clock. -/
def system (patience : Option Nat) : Sleeper := ⟨patience, refusal?⟩

end Sleeper

end Captions
