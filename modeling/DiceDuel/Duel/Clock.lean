import DiceDuel.Spell.Code

/-!
# The clock of a duel

Nothing in a duel waits. A step that takes time is put on the clock with the moment at which it is
due, and the host moves the clock. At most one step is on the clock at a time. Moments have 64 bits,
and a moment that would lie beyond them is the last one.
-/

namespace DiceDuel

/-- A step of a turn that is put off. -/
inductive Deferred where
  /-- Show the face of the rolling die. -/
  | reveal
  /-- Cast a code for the automated side. -/
  | cast (code : Code)
  /-- End the animation. -/
  | settle
deriving DecidableEq, Repr

/-- A step with the moment at which it is due. -/
structure Appointment where
  /-- The moment. -/
  due : UInt64
  /-- The step. -/
  step : Deferred
deriving DecidableEq, Repr

/-- The moment some time after another, or the last one. -/
def later (time delay : UInt64) : UInt64 :=
  UInt64.ofNat (min (time.toNat + delay.toNat) (UInt64.size - 1))

/-- Adding a delay is exact up to the last moment. -/
theorem toNat_later (time delay : UInt64) :
    (later time delay).toNat = min (time.toNat + delay.toNat) (UInt64.size - 1) := by
  have hlt : min (time.toNat + delay.toNat) (UInt64.size - 1) < UInt64.size :=
    Nat.lt_of_le_of_lt (Nat.min_le_right _ _) (by decide)
  exact UInt64.toNat_ofNat_of_lt' hlt

/-- A clock: the present moment and the step that is put off, if there is one. -/
structure Clock where
  /-- The present moment. -/
  now : UInt64 := 0
  /-- The step that is put off. -/
  pending : Option Appointment := none
deriving DecidableEq, Repr

namespace Clock

/-- Whether nothing is put off. -/
def isIdle (clock : Clock) : Bool := clock.pending.isNone

/-- The time until the pending step is due; none is left once the moment has passed. -/
def remaining? (clock : Clock) : Option UInt64 :=
  clock.pending.map fun appointment =>
    if clock.now ≤ appointment.due then appointment.due - clock.now else 0

/-- Puts a step off by a delay. -/
def schedule (clock : Clock) (delay : UInt64) (step : Deferred) : Clock :=
  { clock with pending := some ⟨later clock.now delay, step⟩ }

/-- Moves the clock forward to a moment; it never goes back. -/
def moveTo (clock : Clock) (time : UInt64) : Clock := { clock with now := max clock.now time }

/-- The clock never goes back. -/
theorem le_moveTo (clock : Clock) (time : UInt64) : clock.now ≤ (clock.moveTo time).now := by
  change clock.now ≤ if clock.now ≤ time then time else clock.now
  split
  · assumption
  · exact UInt64.le_refl _

/-- Takes the pending step whenever it is due, moving the clock to that moment. -/
def takeNow? (clock : Clock) : Option (Deferred × Clock) :=
  clock.pending.map fun appointment =>
    (appointment.step, { clock.moveTo appointment.due with pending := none })

/-- Takes the pending step if it is due by a deadline, moving the clock to that moment. -/
def takeDue? (clock : Clock) (deadline : UInt64) : Option (Deferred × Clock) :=
  match clock.pending with
  | none => none
  | some appointment => if appointment.due ≤ deadline then clock.takeNow? else none

end Clock

end DiceDuel
