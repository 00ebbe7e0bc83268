import DiceDuel.Proofs.Duel.Runs
import Mathlib.Data.List.Chain

/-!
# The history of a run

A history is a chain: after each recorded state only few states can be recorded next, the first one
opens the first turn, and the last one is the visible state. From these three facts alone an entry
is known from its index, up to the face and the code of its turn: five entries make a turn, and the
sides take turns. Delays, the ways of moving the clock and refused requests leave no trace here.
-/

namespace DiceDuel

/-- Which state can be recorded right after which. -/
inductive Follows : Snapshot → Snapshot → Prop
  /-- The die starts to roll. -/
  | roll (side : Side) (turn : UInt32) :
      Follows (Stage.ready.snapshot side turn) (Stage.rolling.snapshot side turn)
  /-- The face shows. -/
  | reveal (side : Side) (turn : UInt32) {face : UInt8} (isFace : Die.IsFace face) :
      Follows (Stage.rolling.snapshot side turn) ((Stage.offered face).snapshot side turn)
  /-- A code is cast; the enemy casts the one on offer. -/
  | cast (side : Side) (turn : UInt32) {face : UInt8} {code : Code}
      (offer : side = .enemy → code = .ofFace face) :
      Follows ((Stage.offered face).snapshot side turn)
        ((Stage.showing face code none).snapshot side turn)
  /-- The animation has ended. -/
  | settle (side : Side) (turn : UInt32) (face : UInt8) (code : Code) :
      Follows ((Stage.showing face code none).snapshot side turn)
        ((Stage.closing face code).snapshot side turn)
  /-- The other side's turn opens. -/
  | close (side : Side) (turn : UInt32) (face : UInt8) (code : Code) :
      Follows ((Stage.closing face code).snapshot side turn)
        (Stage.ready.snapshot side.opposite (turn + 1))

/-- A history that tells of a duel from its first turn to its visible state. -/
structure Chronicle (opener : Side) (history : List Snapshot) (current : Snapshot) : Prop where
  /-- The first entry opens the first turn. -/
  head : history.head? = some (Stage.ready.snapshot opener 1)
  /-- Each entry follows the one before it. -/
  chain : history.IsChain Follows
  /-- The last entry is the visible state. -/
  last : history.getLast? = some current

namespace Follows

variable {side : Side} {turn : UInt32} {next : Snapshot}

/-- An opened turn is followed by its rolling die. -/
theorem of_ready (h : Follows (Stage.ready.snapshot side turn) next) :
    next = Stage.rolling.snapshot side turn := by
  cases h with
  | roll => rfl

/-- A rolling die is followed by its face. -/
theorem of_rolling (h : Follows (Stage.rolling.snapshot side turn) next) :
    ∃ face, Die.IsFace face ∧ next = (Stage.offered face).snapshot side turn := by
  cases h with
  | reveal _ _ hface => exact ⟨_, hface, rfl⟩

/-- An offer is followed by a code that is shown. -/
theorem of_offered {face : UInt8} (h : Follows ((Stage.offered face).snapshot side turn) next) :
    ∃ code, (side = .enemy → code = .ofFace face) ∧
      next = (Stage.showing face code none).snapshot side turn := by
  cases h with
  | cast _ _ hoffer => exact ⟨_, hoffer, rfl⟩

/-- A shown code is followed by the same code in a turn that can be closed. -/
theorem of_showing {face : UInt8} {code : Code} {ending : Option Ending}
    (h : Follows ((Stage.showing face code ending).snapshot side turn) next) :
    next = (Stage.closing face code).snapshot side turn := by
  cases h with
  | settle => rfl

/-- A turn is followed by the other side's next turn. -/
theorem of_closing {face : UInt8} {code : Code}
    (h : Follows ((Stage.closing face code).snapshot side turn) next) :
    next = Stage.ready.snapshot side.opposite (turn + 1) := by
  cases h with
  | close => rfl

end Follows

/-- The stage that is recorded at each of the five places of a turn. -/
def Stage.atPlace (face : UInt8) (code : Code) : Nat → Stage
  | 0 => .ready
  | 1 => .rolling
  | 2 => .offered face
  | 3 => .showing face code none
  | _ => .closing face code

/-- The side whose turn it is after a number of complete turns. -/
def turnSide (opener : Side) (turns : Nat) : Side :=
  if turns % 2 = 0 then opener else opener.opposite

/-- One turn later it is the other side's turn. -/
theorem turnSide_succ (opener : Side) (turns : Nat) :
    turnSide opener (turns + 1) = (turnSide opener turns).opposite := by
  unfold turnSide
  rcases Nat.mod_two_eq_zero_or_one turns with heven | hodd
  · have hnext : ¬(turns + 1) % 2 = 0 := by omega
    rw [if_pos heven, if_neg hnext]
  · have hnext : (turns + 1) % 2 = 0 := by omega
    have hthis : ¬turns % 2 = 0 := by omega
    rw [if_pos hnext, if_neg hthis, Side.opposite_opposite]

/-- The phase that is recorded at each place of a turn. -/
def Phase.atPlace : Nat → Phase
  | 0 | 1 => .opening
  | 2 => .casting
  | 3 => .animating
  | _ => .closing

/-- What the entry at a place of a turn holds, when some turns came before. -/
structure IsEntry (opener : Side) (face : UInt8) (code : Code) (turns place : Nat)
    (entry : Snapshot) : Prop where
  /-- Turns are counted from one on. -/
  turn : turns + 1 < UInt32.size → entry.turn.toNat = turns + 1
  /-- The sides take turns. -/
  side : entry.side = turnSide opener turns
  /-- The phase is that of the place. -/
  phase : entry.phase = Phase.atPlace place
  /-- Only the second entry shows a rolling die. -/
  rolling : entry.rolling = decide (place = 1)
  /-- The face shows from the third entry on. -/
  roll : entry.roll = if place < 2 then none else some face
  /-- The face's own code is on offer before the code that was cast. -/
  offered : entry.offered =
    if place < 2 then none else if place = 2 then some (.ofFace face) else some code
  /-- A code is shown once it was cast. -/
  shown : entry.shown = if place < 3 then none else some code

/-- What is recorded at the stages of a turn holds what it should. -/
theorem isEntry_atPlace (opener : Side) (face : UInt8) (code : Code) (turns : Nat) {place : Nat}
    (hplace : place < 5) :
    IsEntry opener face code turns place
      ((Stage.atPlace face code place).snapshot (turnSide opener turns)
        (UInt32.ofNat (turns + 1))) := by
  have hturn : turns + 1 < UInt32.size → (UInt32.ofNat (turns + 1)).toNat = turns + 1 :=
    fun hlt => UInt32.toNat_ofNat_of_lt' hlt
  rcases place with _ | _ | _ | _ | place
  · exact ⟨hturn, rfl, rfl, rfl, rfl, rfl, rfl⟩
  · exact ⟨hturn, rfl, rfl, rfl, rfl, rfl, rfl⟩
  · exact ⟨hturn, rfl, rfl, rfl, rfl, rfl, rfl⟩
  · exact ⟨hturn, rfl, rfl, rfl, rfl, rfl, rfl⟩
  · obtain rfl : place = 0 := by omega
    exact ⟨hturn, rfl, rfl, rfl, rfl, rfl, rfl⟩

/-- The face of a turn, as its third entry shows it. -/
def turnFace (history : List Snapshot) (turns : Nat) : UInt8 :=
  (history[5 * turns + 2]?.bind Snapshot.roll).getD 1

/-- The code of a turn, as its fourth entry shows it. -/
def turnCode (history : List Snapshot) (turns : Nat) : Code :=
  (history[5 * turns + 3]?.bind Snapshot.offered).getD default

namespace Chronicle

variable {opener : Side} {history : List Snapshot} {current : Snapshot}

/-- The first entry alone is a chronicle. -/
theorem opening (opener : Side) :
    Chronicle opener [Stage.ready.snapshot opener 1] (Stage.ready.snapshot opener 1) :=
  ⟨rfl, .singleton _, rfl⟩

/-- A chronicle goes on with a state that follows the visible one. -/
theorem record (h : Chronicle opener history current) {next : Snapshot}
    (hfollows : Follows current next) : Chronicle opener (history ++ [next]) next where
  head := by rw [List.head?_append, h.head, Option.some_or]
  chain := by
    refine List.isChain_append.mpr ⟨h.chain, .singleton next, ?_⟩
    intro last hlast first hfirst
    rw [h.last] at hlast
    cases hlast
    cases hfirst
    exact hfollows
  last := List.getLast?_concat

/-- In a chronicle an entry is known from its index, the face and the code of its turn. -/
theorem getElem_eq (h : Chronicle opener history current) {i : Nat} (hi : i < history.length) :
    history[i] =
      (Stage.atPlace (turnFace history (i / 5)) (turnCode history (i / 5)) (i % 5)).snapshot
        (turnSide opener (i / 5)) (UInt32.ofNat (i / 5 + 1)) := by
  induction i with
  | zero =>
    have hhead := h.head
    rw [List.head?_eq_getElem?, List.getElem?_eq_getElem hi] at hhead
    exact Option.some.inj hhead
  | succ i ih =>
    have hlink : Follows history[i] history[i + 1] := List.isChain_iff_getElem.mp h.chain i hi
    rw [ih (by omega)] at hlink
    obtain hplace | hplace | hplace | hplace | hplace :
        i % 5 = 0 ∨ i % 5 = 1 ∨ i % 5 = 2 ∨ i % 5 = 3 ∨ i % 5 = 4 := by omega
    · rw [hplace] at hlink
      rw [show (i + 1) / 5 = i / 5 by omega, show (i + 1) % 5 = 1 by omega]
      exact hlink.of_ready
    · rw [hplace] at hlink
      obtain ⟨face, -, hnext⟩ := hlink.of_rolling
      have hface : turnFace history (i / 5) = face := by
        unfold turnFace
        rw [show 5 * (i / 5) + 2 = i + 1 by omega, List.getElem?_eq_getElem hi, hnext]
        rfl
      rw [show (i + 1) / 5 = i / 5 by omega, show (i + 1) % 5 = 2 by omega, hface]
      exact hnext
    · rw [hplace] at hlink
      obtain ⟨code, -, hnext⟩ := hlink.of_offered
      have hcode : turnCode history (i / 5) = code := by
        unfold turnCode
        rw [show 5 * (i / 5) + 3 = i + 1 by omega, List.getElem?_eq_getElem hi, hnext]
        rfl
      rw [show (i + 1) / 5 = i / 5 by omega, show (i + 1) % 5 = 3 by omega, hcode]
      exact hnext
    · rw [hplace] at hlink
      rw [show (i + 1) / 5 = i / 5 by omega, show (i + 1) % 5 = 4 by omega]
      exact hlink.of_showing
    · rw [hplace] at hlink
      rw [show (i + 1) / 5 = i / 5 + 1 by omega, show (i + 1) % 5 = 0 by omega, turnSide_succ,
        UInt32.ofNat_add]
      exact hlink.of_closing

/-- The face of every turn of a chronicle is one of the die's. -/
theorem isFace_turnFace (h : Chronicle opener history current) (turns : Nat) :
    Die.IsFace (turnFace history turns) := by
  by_cases hlong : 5 * turns + 2 < history.length
  · have hlink : Follows history[5 * turns + 1] history[5 * turns + 2] :=
      List.isChain_iff_getElem.mp h.chain (5 * turns + 1) hlong
    rw [h.getElem_eq (by omega), show (5 * turns + 1) % 5 = 1 by omega] at hlink
    obtain ⟨face, hface, hnext⟩ := hlink.of_rolling
    unfold turnFace
    rw [List.getElem?_eq_getElem hlong, hnext]
    exact hface
  · unfold turnFace
    rw [List.getElem?_eq_none (by omega)]
    exact Die.isFace_one

end Chronicle

namespace Duel

variable {χ η δ : Type} {opener : Side} {duel next : Duel χ η δ} {stage following : Stage}

/-- Duels at stages that follow each other show states that follow each other. -/
theorem follows_of_isAt (h : duel.IsAt stage) (h' : next.IsAt following)
    (hside : next.current.side = duel.current.side) (hturn : next.current.turn = duel.current.turn)
    (hfollows : Follows (stage.snapshot duel.current.side duel.current.turn)
      (following.snapshot duel.current.side duel.current.turn)) :
    Follows duel.current next.current := by
  rw [h.current, h'.current, hside, hturn]
  exact hfollows

variable [Hooks χ]

/-- A turn that is opened is recorded, for the enemy with its roll. -/
theorem chronicle_openTurn {side : Side} (h : Chronicle opener duel.history duel.current)
    (hfollows : Follows duel.current (Stage.ready.snapshot side (duel.current.turn + 1))) :
    Chronicle opener (duel.openTurn side).history (duel.openTurn side).current := by
  cases side with
  | player => exact h.record hfollows
  | enemy => exact (h.record hfollows).record (.roll _ _)

/-- The first turn begins a chronicle. -/
theorem chronicle_openTurn_first {side : Side} (hhistory : duel.history = [])
    (hturn : duel.current.turn = 0) :
    Chronicle side (duel.openTurn side).history (duel.openTurn side).current := by
  have hfirst : Chronicle side
      (duel.history ++ [Stage.ready.snapshot side (duel.current.turn + 1)])
      (Stage.ready.snapshot side (duel.current.turn + 1)) := by
    rw [hhistory, hturn]
    exact .opening side
  cases side with
  | player => exact hfirst
  | enemy => exact hfirst.record (.roll _ _)

/-- The face that a reveal shows is recorded. -/
theorem chronicle_reveal [DieSource δ] (hat : duel.IsAt .rolling) {clock : Clock}
    (hclock : clock.pending = none) (h : Chronicle opener duel.history duel.current) :
    Chronicle opener { duel with clock }.reveal.history { duel with clock }.reveal.current := by
  have hnext := isAt_reveal hat hclock
  have hface : Die.IsFace duel.nextFace := hnext.fits
  have hside : { duel with clock }.reveal.current.side = duel.current.side := by
    rw [current_reveal]
    rfl
  have hturn : { duel with clock }.reveal.current.turn = duel.current.turn := by
    rw [current_reveal]
    rfl
  have hfollows := follows_of_isAt hat hnext hside hturn (.reveal _ _ hface)
  rw [history_reveal]
  rw [current_reveal] at hfollows ⊢
  exact h.record hfollows

/-- Opening a turn only adds to the history. -/
theorem prefix_openTurn (duel : Duel χ η δ) (side : Side) :
    duel.history <+: (duel.openTurn side).history := by
  cases side with
  | player => exact List.prefix_append _ _
  | enemy => exact (List.prefix_append _ _).trans (List.prefix_append _ _)

/-- Settling a turn only adds to the history. -/
theorem Settles.history_extends (hsettles : Settles duel next) : duel.history <+: next.history := by
  cases hsettles with
  | death dead => exact List.prefix_rfl
  | lateDeath alive dead => exact List.prefix_rfl
  | noDeath alive still => exact List.prefix_append _ _

variable [SpellHandler η] [DieSource δ]

/-- A move of any duel, reachable or not, only adds to the history. -/
theorem Move.history_extends (hmove : Move duel next) : duel.history <+: next.history := by
  cases hmove with
  | start fresh roster => exact prefix_openTurn { duel with started := true, hooks := _ } _
  | request granted =>
    rename_i request
    cases request with
    | roll roller => exact List.prefix_append _ _
    | cast code => exact List.prefix_append _ _
    | close => exact prefix_openTurn duel _
  | fire taken =>
    rename_i step clock
    cases step with
    | reveal =>
      change duel.history <+: { duel with clock }.reveal.history
      rw [history_reveal]
      exact List.prefix_append _ _
    | cast code => exact List.prefix_append _ _
    | settle => exact (settles_settle { duel with clock }).history_extends
  | wait time => exact List.prefix_rfl

/-- A call of any duel, reachable or not, only adds to the history. -/
theorem prefix_call (duel : Duel χ η δ) (call : HostCall) :
    duel.history <+: (duel.call call).2.history :=
  Moves.preserve (P := fun other => duel.history <+: other.history)
    (fun h hmove => h.trans hmove.history_extends) (moves_call duel call) List.prefix_rfl

/-- A code that is cast is recorded. -/
theorem chronicle_cast {face : UInt8} (hat : duel.IsAt (.offered face)) (clock : Clock)
    {code : Code} (hcode : duel.current.side = .enemy → code = .ofFace face)
    (h : Chronicle opener duel.history duel.current) :
    Chronicle opener ({ duel with clock }.cast code).history
      ({ duel with clock }.cast code).current :=
  h.record (follows_of_isAt hat (isAt_cast hat clock hcode) rfl rfl (.cast _ _ hcode))

/-- Whatever carries a turn on keeps the history a chronicle. -/
theorem Continues.chronicle (hcontinues : Continues duel stage next) (hat : duel.IsAt stage)
    (h : Chronicle opener duel.history duel.current) :
    Chronicle opener next.history next.current := by
  cases hcontinues with
  | wait time => exact h
  | roll =>
    have hnext := isAt_startRoll hat.started hat.current hat.ending
    exact h.record (follows_of_isAt hat hnext rfl rfl (.roll _ _))
  | reveal taken => exact chronicle_reveal hat (Clock.pending_of_takeNow? taken) h
  | cast side code =>
    refine chronicle_cast hat duel.clock (fun henemy => ?_) h
    rw [side] at henemy
    cases henemy
  | castOffer side taken => exact chronicle_cast hat _ (fun _ => rfl) h
  | settle taken settles =>
    cases settles with
    | death dead => exact h
    | lateDeath alive dead => exact h
    | noDeath alive still =>
      refine h.record ?_
      have hcurrent := hat.current
      generalize duel.current.side = side, duel.current.turn = turn at hcurrent
      rw [hcurrent]
      exact .settle side turn _ _
  | close =>
    refine chronicle_openTurn h ?_
    rw [hat.current]
    exact .close _ _ _ _

variable (settings : Settings) (hooks : χ) (handler : η) (dice : δ)

/-- After any calls the history of a started duel is a chronicle. -/
theorem chronicle_after_calls (calls : List HostCall) :
    let duel := (new settings hooks handler dice).after calls
    duel.started = true → Chronicle settings.opener duel.history duel.current :=
  after_induction
    (P := fun duel => duel.started = true → Chronicle settings.opener duel.history duel.current)
    (fun _ hstarted => nomatch hstarted)
    (fun _ _ _ => chronicle_openTurn_first rfl rfl)
    (fun hat h hnext _ => hnext.chronicle hat (h hat.started)) calls

/-- A duel that has not started has recorded nothing. -/
theorem history_eq_nil {calls : List HostCall}
    (hfresh : ((new settings hooks handler dice).after calls).started = false) :
    ((new settings hooks handler dice).after calls).history = [] := by
  obtain ⟨now, hnow⟩ := exists_waited settings hooks handler dice hfresh
  rw [hnow]
  rfl

/-- The history of every run, entry by entry: five entries make a turn, each turn has one face of
the die and one code, and the index of an entry fixes all the rest of it. A call only adds entries,
and from the start on the last entry is the visible state. -/
theorem history_after_calls (calls : List HostCall) :
    let duel := (new settings hooks handler dice).after calls
    (∃ (faces : Nat → UInt8) (codes : Nat → Code), (∀ turns, Die.IsFace (faces turns)) ∧
        ∀ (i : Nat) (hi : i < duel.history.length),
          IsEntry settings.opener (faces (i / 5)) (codes (i / 5)) (i / 5) (i % 5)
            duel.history[i]) ∧
      (∀ call, duel.history <+: (duel.call call).2.history) ∧
      (duel.started = true → duel.history.getLast? = some duel.current) := by
  intro duel
  refine ⟨?_, prefix_call duel, fun hstarted =>
    (chronicle_after_calls settings hooks handler dice calls hstarted).last⟩
  cases hstarted : duel.started with
  | false =>
    have hempty : duel.history = [] := history_eq_nil settings hooks handler dice hstarted
    refine ⟨fun _ => 1, fun _ => default, fun _ => Die.isFace_one, ?_⟩
    intro i hi
    rw [hempty] at hi
    cases hi
  | true =>
    have h := chronicle_after_calls settings hooks handler dice calls hstarted
    refine ⟨turnFace duel.history, turnCode duel.history, h.isFace_turnFace, ?_⟩
    intro i hi
    rw [h.getElem_eq hi]
    exact isEntry_atPlace _ _ _ _ (Nat.mod_lt i (by decide))

end Duel

end DiceDuel
