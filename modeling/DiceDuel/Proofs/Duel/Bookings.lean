import DiceDuel.Proofs.Duel.Waiting
import Mathlib.Data.List.Forall2

/-!
# The books of a clock

A clock is used in four ways: a step is put off, the pending step is taken if it is due by a
deadline, it is taken at once, and time passes. As long as a step is put off only while nothing is
pending, the books of the clock balance after any uses in any order. The steps that were taken, and
after them the one that is pending, are the steps that were put off, in that order; and a step that
is taken leaves the clock at the moment at which it was due, or where the clock stood if that moment
had passed. A step that is put off while another one is pending takes its place; nothing is promised
for that case.
-/

namespace DiceDuel

/-- A step that was put off. -/
structure Booking where
  /-- The moment at which it was put off. -/
  moment : UInt64
  /-- For how long. -/
  delay : UInt64
  /-- The step. -/
  step : Deferred
deriving DecidableEq

/-- The appointment that a booking makes. -/
def Booking.appointment (booking : Booking) : Appointment :=
  ⟨later booking.moment booking.delay, booking.step⟩

/-- A step that was taken. -/
structure Taking where
  /-- The moment at which the clock stood before. -/
  before : UInt64
  /-- The moment at which the clock stood after that. -/
  after : UInt64
  /-- The step. -/
  step : Deferred
deriving DecidableEq

/-- A step is taken as it was booked. -/
structure Taking.Honours (taking : Taking) (booking : Booking) : Prop where
  /-- It is the step that was put off. -/
  step : taking.step = booking.step
  /-- The clock stands at the due moment, or stays if it is past that. -/
  after : taking.after = max taking.before booking.appointment.due

/-- Takings that honour bookings one by one are of the same steps. -/
theorem map_step_eq_of_honours {takings : List Taking} {bookings : List Booking}
    (h : List.Forall₂ Taking.Honours takings bookings) :
    takings.map Taking.step = bookings.map Booking.step := by
  induction h with
  | nil => rfl
  | cons hhonours _ ih => rw [List.map_cons, List.map_cons, hhonours.step, ih]

namespace Clock

/-- One use of a clock. -/
inductive Use where
  /-- Puts a step off by a delay. -/
  | schedule (delay : UInt64) (step : Deferred)
  /-- Takes the pending step if it is due by a deadline. -/
  | takeDue (deadline : UInt64)
  /-- Takes the pending step whenever it is due. -/
  | takeNow
  /-- Moves the clock forward to a moment. -/
  | moveTo (time : UInt64)
deriving DecidableEq

/-- Whether a use asks for the pending step. -/
def Use.isTaking : Use → Bool
  | .takeDue _ | .takeNow => true
  | .schedule .. | .moveTo _ => false

/-- The booking that a use makes at a moment, if it makes one. -/
def Use.booking? (moment : UInt64) : Use → Option Booking
  | .schedule delay step => some ⟨moment, delay, step⟩
  | .takeDue _ | .takeNow | .moveTo _ => none

/-- To ask for the pending step makes no booking. -/
theorem Use.booking?_of_isTaking {next : Use} (hasks : next.isTaking = true) (moment : UInt64) :
    next.booking? moment = none := by
  cases next with
  | schedule delay step => cases hasks
  | takeDue deadline => rfl
  | takeNow => rfl
  | moveTo time => cases hasks

/-- What a clock hands out when a step was asked for: the step and the clock behind it, or nothing
and the clock as it was. -/
def handOut (clock : Clock) : Option (Deferred × Clock) → Option Deferred × Clock
  | some (step, next) => (some step, next)
  | none => (none, clock)

/-- What a use hands out, and the clock behind it. -/
def use (clock : Clock) : Use → Option Deferred × Clock
  | .schedule delay step => (none, clock.schedule delay step)
  | .takeDue deadline => clock.handOut (clock.takeDue? deadline)
  | .takeNow => clock.handOut clock.takeNow?
  | .moveTo time => (none, clock.moveTo time)

/-- Whether a clock is free for a use: no step is put off while another is pending. -/
def allows (clock : Clock) : Use → Bool
  | .schedule .. => clock.isIdle
  | .takeDue _ | .takeNow | .moveTo _ => true

/-- Whether a clock is free for each of some uses, one after the other. -/
def orderly (clock : Clock) : List Use → Bool
  | [] => true
  | next :: uses => clock.allows next && (clock.use next).2.orderly uses

/-! ## What a use can do -/

/-- The effects that a use can have on a clock. -/
inductive Effect (clock : Clock) : Use → Option Deferred × Clock → Prop
  /-- A step is put off. -/
  | booked (delay : UInt64) (step : Deferred) :
      Effect clock (.schedule delay step) (none, clock.schedule delay step)
  /-- The pending step is taken, and the clock does not stay behind its due moment. -/
  | taken {next : Use} {due : UInt64} {step : Deferred} (asks : next.isTaking = true)
      (pending : clock.pending = some ⟨due, step⟩) :
      Effect clock next (some step, ⟨max clock.now due, none⟩)
  /-- No step is handed out. -/
  | missed {next : Use} (asks : next.isTaking = true) : Effect clock next (none, clock)
  /-- Time passes. -/
  | moved (time : UInt64) : Effect clock (.moveTo time) (none, clock.moveTo time)

/-- To ask for the pending step has one of two effects. -/
theorem effect_handOut {clock : Clock} {next : Use} (hasks : next.isTaking = true)
    {taken : Option (Deferred × Clock)}
    (htaken : ∀ step after, taken = some (step, after) → clock.takeNow? = some (step, after)) :
    clock.Effect next (clock.handOut taken) := by
  cases taken with
  | none => exact .missed hasks
  | some result =>
    obtain ⟨step, after⟩ := result
    obtain ⟨due, hpending, rfl⟩ := takeNow?_eq_some_iff.mp (htaken step after rfl)
    exact .taken hasks hpending

/-- A use has one of the four effects. -/
theorem effect_use (clock : Clock) (next : Use) : clock.Effect next (clock.use next) := by
  cases next with
  | schedule delay step => exact .booked delay step
  | takeDue deadline => exact effect_handOut rfl fun _ _ => takeNow?_of_takeDue?
  | takeNow => exact effect_handOut rfl fun _ _ => id
  | moveTo time => exact .moved time

/-- No use takes the clock back. -/
theorem Effect.le_now {clock after : Clock} {next : Use} {step? : Option Deferred}
    (h : clock.Effect next (step?, after)) : clock.now ≤ after.now := by
  cases h with
  | booked delay step => exact UInt64.le_refl _
  | taken asks pending => exact clock.le_moveTo _
  | missed asks => exact UInt64.le_refl _
  | moved time => exact clock.le_moveTo time

/-- A step is handed out by a deadline if one is pending that is due by then. -/
theorem use_takeDue_isSome_iff {clock : Clock} {deadline : UInt64} :
    (clock.use (.takeDue deadline)).1.isSome = true ↔
      ∃ appointment ∈ clock.pending, appointment.due ≤ deadline := by
  rw [use]
  cases htaken : clock.takeDue? deadline with
  | none =>
    have hlate := takeDue?_eq_none_iff.mp htaken
    refine iff_of_false nofun ?_
    rintro ⟨appointment, hpending, hdue⟩
    exact UInt64.not_le.mpr (hlate appointment hpending) hdue
  | some taken =>
    obtain ⟨step, after⟩ := taken
    obtain ⟨due, hpending, hdue, -⟩ := takeDue?_eq_some_iff.mp htaken
    exact iff_of_true rfl ⟨_, hpending, hdue⟩

/-- At once the pending step is handed out, whenever it is due. -/
theorem fst_use_takeNow (clock : Clock) :
    (clock.use .takeNow).1 = clock.pending.map Appointment.step := by
  rw [use, takeNow?]
  cases clock.pending with
  | none => rfl
  | some appointment => rfl

/-- Whoever asks for the pending step and gets none leaves the clock as it was. -/
theorem snd_use_of_missed {clock : Clock} {next : Use} (hasks : next.isTaking = true)
    (hmissed : (clock.use next).1 = none) : (clock.use next).2 = clock := by
  have heffect := clock.effect_use next
  generalize clock.use next = used at heffect hmissed ⊢
  cases heffect with
  | booked delay step => cases hasks
  | taken asks pending => cases hmissed
  | missed asks => rfl
  | moved time => cases hasks

/-- What is handed out is the pending step, and the clock does not stay behind its due moment. -/
theorem exists_pending_of_use {clock : Clock} {next : Use} {step : Deferred}
    (hstep : (clock.use next).1 = some step) :
    ∃ due, clock.pending = some ⟨due, step⟩ ∧
      (clock.use next).2 = ⟨max clock.now due, none⟩ := by
  have heffect := clock.effect_use next
  generalize clock.use next = used at heffect hstep ⊢
  cases heffect with
  | booked delay planned => cases hstep
  | taken asks pending =>
    cases hstep
    exact ⟨_, pending, rfl⟩
  | missed asks => cases hstep
  | moved time => cases hstep

end Clock

/-! ## The books -/

/-- A clock with what was put off on it and what was taken from it, oldest first. -/
structure Diary where
  /-- The clock. -/
  clock : Clock := {}
  /-- The steps that were put off. -/
  bookings : List Booking := []
  /-- The steps that were taken. -/
  takings : List Taking := []

namespace Diary

/-- The diary after one use of its clock. -/
def note (diary : Diary) (next : Clock.Use) : Diary where
  clock := (diary.clock.use next).2
  bookings := diary.bookings ++ (next.booking? diary.clock.now).toList
  takings := diary.takings ++ ((diary.clock.use next).1.map fun step =>
    ⟨diary.clock.now, (diary.clock.use next).2.now, step⟩).toList

/-- The diary after some uses of its clock. -/
def after (diary : Diary) : List Clock.Use → Diary
  | [] => diary
  | next :: uses => (diary.note next).after uses

/-- The books balance: the earlier bookings were honoured one by one, in their order, and at most
one is left, which is the pending appointment. -/
def Balances (diary : Diary) : Prop :=
  ∃ (earlier : List Booking) (waiting : Option Booking),
    diary.bookings = earlier ++ waiting.toList ∧
      diary.clock.pending = waiting.map Booking.appointment ∧
      List.Forall₂ Taking.Honours diary.takings earlier

/-- Every use that the clock is free for keeps the balance. -/
theorem Balances.note {diary : Diary} (h : diary.Balances) {next : Clock.Use}
    (hfree : diary.clock.allows next = true) : (diary.note next).Balances := by
  obtain ⟨earlier, waiting, hbookings, hpending, hhonoured⟩ := h
  have heffect := diary.clock.effect_use next
  unfold Diary.note
  generalize diary.clock.use next = used at heffect ⊢
  cases heffect with
  | booked delay step =>
    -- the clock is free, so every earlier booking has been honoured
    have hidle : waiting = none := by
      simpa [Clock.allows, Clock.isIdle, hpending] using hfree
    subst hidle
    refine ⟨earlier, some ⟨diary.clock.now, delay, step⟩, ?_, rfl, ?_⟩
    · simp [hbookings, Clock.Use.booking?]
    · simpa using hhonoured
  | @taken _ due step asks pending =>
    have hnone := Clock.Use.booking?_of_isTaking asks diary.clock.now
    rw [hpending, Option.map_eq_some_iff] at pending
    obtain ⟨booking, rfl, happointment⟩ := pending
    have hhonours : Taking.Honours ⟨diary.clock.now, max diary.clock.now due, step⟩ booking :=
      ⟨(congrArg Appointment.step happointment).symm, by rw [happointment]⟩
    refine ⟨earlier ++ [booking], none, ?_, rfl, ?_⟩
    · simp [hbookings, hnone]
    · exact List.rel_append hhonoured (.cons hhonours .nil)
  | missed asks =>
    have hnone := Clock.Use.booking?_of_isTaking asks diary.clock.now
    exact ⟨earlier, waiting, by simp [hbookings, hnone], hpending, by simpa using hhonoured⟩
  | moved time =>
    exact ⟨earlier, waiting, by simp [hbookings, Clock.Use.booking?], hpending,
      by simpa using hhonoured⟩

/-- Orderly uses keep the balance. -/
theorem Balances.after {diary : Diary} (h : diary.Balances) {uses : List Clock.Use}
    (horderly : diary.clock.orderly uses = true) : (diary.after uses).Balances := by
  induction uses generalizing diary with
  | nil => exact h
  | cons next uses ih =>
    rw [Clock.orderly, Bool.and_eq_true] at horderly
    exact ih (h.note horderly.1) horderly.2

/-- In balanced books the steps that were taken and the pending one are those that were put off. -/
theorem Balances.steps_eq {diary : Diary} (h : diary.Balances) :
    diary.takings.map Taking.step ++ (diary.clock.pending.map Appointment.step).toList =
      diary.bookings.map Booking.step := by
  obtain ⟨earlier, waiting, hbookings, hpending, hhonoured⟩ := h
  have hsteps := map_step_eq_of_honours hhonoured
  have hwaiting : (diary.clock.pending.map Appointment.step).toList =
      waiting.toList.map Booking.step := by
    rw [hpending]
    cases waiting with
    | none => rfl
    | some booking => rfl
  rw [hsteps, hwaiting, hbookings, List.map_append]

/-- No uses take the clock back. -/
theorem le_now_after (diary : Diary) (uses : List Clock.Use) :
    diary.clock.now ≤ (diary.after uses).clock.now := by
  induction uses generalizing diary with
  | nil => exact UInt64.le_refl _
  | cons next uses ih =>
    have hnext : diary.clock.now ≤ (diary.note next).clock.now :=
      (diary.clock.effect_use next).le_now
    exact UInt64.le_trans hnext (ih _)

/-- The books of a new clock balance after any uses in which a step is put off only while nothing
is pending. What was taken, with the pending step behind it, is what was put off, in that order, and
each step is taken at the moment at which it was due, or at a later one if the clock stood there.
The clock never goes back. By a deadline a step is handed out exactly if one is pending that is due
by then, and if none is the clock is left as it was; at once whatever is pending is handed out.
Whenever a step is handed out it is the pending one, nothing is pending after that, and the clock
stands at the later of its own moment and the due one. -/
theorem books_after_uses (uses : List Clock.Use)
    (horderly : ({} : Clock).orderly uses = true) :
    let diary := ({} : Diary).after uses
    diary.takings.map Taking.step ++ (diary.clock.pending.map Appointment.step).toList =
        diary.bookings.map Booking.step ∧
      diary.Balances ∧
      (∀ more, diary.clock.now ≤ (diary.after more).clock.now) ∧
      (∀ deadline,
        ((diary.clock.use (.takeDue deadline)).1.isSome = true ↔
          ∃ appointment ∈ diary.clock.pending, appointment.due ≤ deadline) ∧
        ((diary.clock.use (.takeDue deadline)).1 = none →
          (diary.clock.use (.takeDue deadline)).2 = diary.clock)) ∧
      (diary.clock.use .takeNow).1 = diary.clock.pending.map Appointment.step ∧
      ∀ next step, (diary.clock.use next).1 = some step →
        ∃ due, diary.clock.pending = some ⟨due, step⟩ ∧
          (diary.clock.use next).2 = ⟨max diary.clock.now due, none⟩ := by
  intro diary
  have hfresh : ({} : Diary).Balances := ⟨[], none, rfl, rfl, .nil⟩
  have hbalances : diary.Balances := hfresh.after horderly
  refine ⟨hbalances.steps_eq, hbalances, diary.le_now_after, fun deadline => ⟨?_, ?_⟩,
    diary.clock.fst_use_takeNow, ?_⟩
  · exact Clock.use_takeDue_isSome_iff
  · exact Clock.snd_use_of_missed rfl
  · intro next step hstep
    exact Clock.exists_pending_of_use hstep

/-- A step that is taken by a deadline before the present moment, one whose delay leads beyond the
last moment, and one that is still pending. -/
theorem books_after_uses_overdue :
    let uses : List Clock.Use := [.schedule 1000 .reveal, .takeDue 999, .moveTo 1500,
      .takeDue 1200, .schedule 18446744073709551615 .settle, .takeNow, .moveTo 3,
      .schedule 5 .reveal]
    let diary := ({} : Diary).after uses
    ({} : Clock).orderly uses = true ∧
      diary.takings.map Taking.step ++ (diary.clock.pending.map Appointment.step).toList =
        diary.bookings.map Booking.step ∧
      diary.takings =
        [⟨1500, 1500, .reveal⟩, ⟨1500, 18446744073709551615, .settle⟩] ∧
      diary.clock = ⟨18446744073709551615, some ⟨18446744073709551615, .reveal⟩⟩ :=
  ⟨by decide, (books_after_uses _ (by decide)).1, by decide, by decide⟩

end Diary

end DiceDuel
