import DiceDuel.Proofs.Duel.History
import Mathlib.Data.List.Enum

/-!
# What the hooks are told

Hooks that write down every call have in their books no more and no less than the history says: the
start, then for each entry the calls that go with its place in its turn, and at the end of the duel
the checks that found somebody dead. So the books are known from the roster, the history and the
ending. In which calls of the host the entries were made, who had to wait and what was refused makes
no difference to them.
-/

namespace DiceDuel

/-! ## Books -/

/-- Hooks that write down every call: what is read off them as their books grows by each call, a
check being written down with its answer. Nothing is assumed of how checks are answered. -/
structure Records {χ : Type} [Hooks χ] (books : χ → List HookCall) : Prop where
  /-- The start is written down. -/
  startBattle : ∀ hooks roster,
    books (Hooks.startBattle hooks roster) = books hooks ++ [.startBattle roster]
  /-- The start of a turn is written down. -/
  startTurn : ∀ hooks side, books (Hooks.startTurn hooks side) = books hooks ++ [.startTurn side]
  /-- The effects of a roll are written down. -/
  rollEffects : ∀ hooks side face,
    books (Hooks.rollEffects hooks side face) = books hooks ++ [.rollEffects side face]
  /-- The effects of the turn's end are written down. -/
  endTurnEffects : ∀ hooks side,
    books (Hooks.endTurnEffects hooks side) = books hooks ++ [.endTurnEffects side]
  /-- A check is written down with its answer. -/
  deathCheck : ∀ hooks, books (Hooks.deathCheck hooks).2 =
    books hooks ++ [.deathCheck (Hooks.deathCheck hooks).1]
  /-- A state that is recorded is written down. -/
  onTransition : ∀ hooks snapshot,
    books (Hooks.onTransition hooks snapshot) = books hooks ++ [.transition snapshot]

/-- The recorder writes down every call. -/
theorem Recorder.records : Records Recorder.calls where
  startBattle _ _ := rfl
  startTurn _ _ := rfl
  rollEffects _ _ _ := rfl
  endTurnEffects _ _ := rfl
  deathCheck _ := rfl
  onTransition _ _ := rfl

namespace HookCall

/-- The calls that go with an entry of the history at a place of its turn. -/
def ofEntry (entry : Snapshot) : Nat → List HookCall
  | 0 => [.transition entry, .startTurn entry.side]
  | 1 => [.transition entry]
  | 2 => (entry.roll.map (.rollEffects entry.side)).toList ++ [.transition entry]
  | 3 => [.transition entry]
  | _ => [.deathCheck false, .endTurnEffects entry.side, .deathCheck false, .transition entry]

/-- The calls with which a duel ends in a side's turn, none while it goes on. -/
def ofEnding (side : Side) : Option Ending → List HookCall
  | none => []
  | some .afterSpell => [.deathCheck true]
  | some .afterTurnEffects => [.deathCheck false, .endTurnEffects side, .deathCheck true]

/-- All calls of a duel with a history and an ending, if it was started with a roster. Five entries
make a turn, and a duel ends in the turn of its last entry. -/
def protocol (history : List Snapshot) (ending : Option Ending) : Option Roster → List HookCall
  | none => []
  | some roster =>
    .startBattle roster :: (history.zipIdx.flatMap fun entry => ofEntry entry.1 (entry.2 % 5))
      ++ history.getLast?.toList.flatMap fun last => ofEnding last.side ending

/-- The state that a call tells of. -/
def snapshot? : HookCall → Option Snapshot
  | .transition snapshot => some snapshot
  | _ => none

/-- The only state among the calls of an entry is the entry. -/
theorem snapshots_ofEntry (entry : Snapshot) (place : Nat) :
    (ofEntry entry place).filterMap snapshot? = [entry] := by
  rcases place with _ | _ | _ | _ | place
  · rfl
  · rfl
  · unfold ofEntry
    cases entry.roll <;> rfl
  · rfl
  · rfl

/-- There is no state among the calls of an ending. -/
theorem snapshots_ofEnding (side : Side) (ending : Option Ending) :
    (ofEnding side ending).filterMap snapshot? = [] := by
  rcases ending with _ | _ | _ <;> rfl

end HookCall

/-- The place of an entry in its turn, as it shows from the entry itself. -/
def Snapshot.place (entry : Snapshot) : Nat :=
  match entry.phase, entry.rolling with
  | .opening, false => 0
  | .opening, true => 1
  | .casting, _ => 2
  | .animating, _ => 3
  | .closing, _ => 4

/-- In a chronicle the index of an entry tells its place. -/
theorem Chronicle.place_getElem {opener : Side} {history : List Snapshot} {current : Snapshot}
    (h : Chronicle opener history current) {i : Nat} (hi : i < history.length) :
    history[i].place = i % 5 := by
  have hplace : i % 5 < 5 := Nat.mod_lt i (by decide)
  rw [h.getElem_eq hi]
  generalize i % 5 = place at hplace ⊢
  rcases place with _ | _ | _ | _ | place
  · rfl
  · rfl
  · rfl
  · rfl
  · obtain rfl : place = 0 := by omega
    rfl

/-- In a chronicle the third entry of every turn has a roll. -/
theorem Chronicle.roll_getElem {opener : Side} {history : List Snapshot} {current : Snapshot}
    (h : Chronicle opener history current) {i : Nat} (hi : i < history.length)
    (hplace : i % 5 = 2) : history[i].roll ≠ none := by
  rw [h.getElem_eq hi, hplace]
  exact Option.some_ne_none _

/-- The calls that go with the entries of a history. -/
def HookCall.ofHistory (history : List Snapshot) : List HookCall :=
  history.flatMap fun entry => ofEntry entry entry.place

/-- One more entry is told of after the others. -/
theorem HookCall.ofHistory_append (history : List Snapshot) (entry : Snapshot) :
    ofHistory (history ++ [entry]) = ofHistory history ++ ofEntry entry entry.place := by
  rw [ofHistory, List.flatMap_append, List.flatMap_singleton]
  rfl

/-- The states in the calls of a history are the history. -/
theorem HookCall.snapshots_ofHistory (history : List Snapshot) :
    (ofHistory history).filterMap snapshot? = history := by
  induction history with
  | nil => rfl
  | cons entry rest ih =>
    rw [ofHistory, List.flatMap_cons, List.filterMap_append, snapshots_ofEntry]
    exact congrArg (entry :: ·) ih

/-- In a chronicle the calls that go with an entry are known from its index. -/
theorem Chronicle.ofHistory_eq {opener : Side} {history : List Snapshot} {current : Snapshot}
    (h : Chronicle opener history current) :
    HookCall.ofHistory history =
      history.zipIdx.flatMap fun entry => HookCall.ofEntry entry.1 (entry.2 % 5) := by
  have hplaces : ∀ entry ∈ history.zipIdx,
      HookCall.ofEntry entry.1 entry.1.place = HookCall.ofEntry entry.1 (entry.2 % 5) := by
    rw [List.forall_mem_zipIdx']
    intro i hi
    rw [h.place_getElem hi]
  calc HookCall.ofHistory history
      = HookCall.ofHistory (history.zipIdx.map Prod.fst) := by rw [List.zipIdx_map_fst]
    _ = history.zipIdx.flatMap fun entry => HookCall.ofEntry entry.1 entry.1.place :=
      List.flatMap_map ..
    _ = history.zipIdx.flatMap fun entry => HookCall.ofEntry entry.1 (entry.2 % 5) :=
      List.flatMap_congr hplaces

/-! ## Transitions in the books -/

namespace Duel

variable {χ η δ : Type}

/-- The books of a duel that was started with a roster tell its history and its ending. -/
def Told (books : χ → List HookCall) (roster : Roster) (duel : Duel χ η δ) : Prop :=
  books duel.hooks = HookCall.startBattle roster :: HookCall.ofHistory duel.history
    ++ HookCall.ofEnding duel.current.side duel.ending

variable {books : χ → List HookCall} {roster : Roster} {duel next : Duel χ η δ}

/-- A duel that goes on has nothing in its books behind its history. -/
theorem told_iff_of_going (hgoing : duel.ending = none) :
    duel.Told books roster ↔
      books duel.hooks = HookCall.startBattle roster :: HookCall.ofHistory duel.history := by
  rw [Told, hgoing, HookCall.ofEnding, List.append_nil]

variable [Hooks χ] (hbooks : Records books)

include hbooks

/-- A state is told of behind the calls that come first in its entry. -/
theorem told_commit {entry : Snapshot} {before : List HookCall}
    (hgoing : (duel.commit entry).ending = none)
    (htold : books duel.hooks =
      HookCall.startBattle roster :: HookCall.ofHistory duel.history ++ before)
    (hentry : HookCall.ofEntry entry entry.place = before ++ [.transition entry]) :
    (duel.commit entry).Told books roster := by
  rw [told_iff_of_going hgoing]
  change books (Hooks.onTransition duel.hooks entry) =
    _ :: HookCall.ofHistory (duel.history ++ [entry])
  rw [hbooks.onTransition, htold, HookCall.ofHistory_append, hentry]
  simp

/-- A state that comes first in its entry is told of behind the entries before it. -/
theorem told_commit_first {entry : Snapshot} (h : duel.Told books roster)
    (hgoing : duel.ending = none)
    (hentry : HookCall.ofEntry entry entry.place = [.transition entry]) :
    (duel.commit entry).Told books roster := by
  have htold := (told_iff_of_going hgoing).mp h
  rw [← List.append_nil (HookCall.ofHistory _)] at htold
  exact told_commit hbooks hgoing htold hentry

theorem told_startRoll (h : duel.Told books roster) (hgoing : duel.ending = none)
    (hphase : duel.current.phase = .opening) : duel.startRoll.Told books roster := by
  let entry : Snapshot := { duel.current with rolling := true, roll := none }
  have hplace : entry.place = 1 := by simp [entry, Snapshot.place, hphase]
  have hcalls : HookCall.ofEntry entry entry.place = [.transition entry] := by
    rw [hplace]
    rfl
  exact told_commit_first hbooks h hgoing hcalls

theorem told_openTurn (side : Side) (hgoing : duel.ending = none)
    (htold : books duel.hooks = HookCall.startBattle roster :: HookCall.ofHistory duel.history) :
    (duel.openTurn side).Told books roster := by
  let entry : Snapshot := { side, turn := duel.current.turn + 1 }
  let opened : Duel χ η δ := { duel.commit entry with
    hooks := Hooks.startTurn (duel.commit entry).hooks side }
  have hstill : opened.ending = none := hgoing
  have hopened : opened.Told books roster := by
    rw [told_iff_of_going hstill]
    change books (Hooks.startTurn (Hooks.onTransition duel.hooks entry) side) =
      _ :: HookCall.ofHistory (duel.history ++ [entry])
    have hcalls : HookCall.ofEntry entry entry.place = [.transition entry, .startTurn side] := rfl
    rw [hbooks.startTurn, hbooks.onTransition, htold, HookCall.ofHistory_append, hcalls]
    simp
  cases side with
  | player => exact hopened
  | enemy => exact told_startRoll hbooks hopened hgoing rfl

theorem told_reveal [DieSource δ] (h : duel.Told books roster) (hgoing : duel.ending = none) :
    duel.reveal.Told books roster := by
  let entry : Snapshot := { duel.current with
    phase := .casting
    roll := some duel.nextFace
    rolling := false
    offered := some (.ofFace duel.nextFace) }
  have hcalls : HookCall.ofEntry entry entry.place =
      [.rollEffects duel.current.side duel.nextFace] ++ [.transition entry] := rfl
  have htold : books (Hooks.rollEffects duel.hooks duel.current.side duel.nextFace) =
      HookCall.startBattle roster :: HookCall.ofHistory duel.history
        ++ [.rollEffects duel.current.side duel.nextFace] := by
    rw [hbooks.rollEffects, (told_iff_of_going hgoing).mp h]
  have hrevealed : duel.revealed.Told books roster := told_commit hbooks hgoing htold hcalls
  cases hside : duel.current.side with
  | player =>
    rw [reveal_of_player duel hside]
    exact hrevealed
  | enemy =>
    rw [reveal_of_enemy duel hside]
    exact hrevealed

theorem told_cast [SpellHandler η] [DieSource δ] (h : duel.Told books roster)
    (hgoing : duel.ending = none) (code : Code) : (duel.cast code).Told books roster := by
  rw [cast_eq_castWith]
  exact told_commit_first hbooks h hgoing rfl

/-- The checks at the end of an animation are told of with the closing entry or, if one of them
finds somebody dead, as the ending. -/
theorem told_settles (h : duel.Told books roster) (hgoing : duel.ending = none)
    (hsettles : Settles duel next) : next.Told books roster := by
  have htold := (told_iff_of_going hgoing).mp h
  have hfirst := hbooks.deathCheck duel.hooks
  have hworn : books duel.wornHooks = books duel.hooks ++
      [.deathCheck (Hooks.deathCheck duel.hooks).1, .endTurnEffects duel.current.side] := by
    rw [wornHooks, hbooks.endTurnEffects, hfirst, List.append_assoc]
    rfl
  have hsecond := hbooks.deathCheck duel.wornHooks
  cases hsettles with
  | death dead =>
    rw [dead, htold] at hfirst
    exact hfirst
  | lateDeath alive dead =>
    rw [dead, hworn, alive, htold, List.append_assoc] at hsecond
    exact hsecond
  | noDeath alive still =>
    rw [still, hworn, alive, htold, List.append_assoc] at hsecond
    exact told_commit hbooks hgoing hsecond rfl

variable [SpellHandler η] [DieSource δ]

/-- Whatever carries a turn on keeps the books. -/
theorem Continues.told {stage : Stage} (hcontinues : Continues duel stage next)
    (hat : duel.IsAt stage) (h : duel.Told books roster) : next.Told books roster := by
  have hphase : duel.current.phase =
      (stage.snapshot duel.current.side duel.current.turn).phase :=
    congrArg Snapshot.phase hat.current
  cases hcontinues with
  | wait time => exact h
  | roll => exact told_startRoll hbooks h hat.ending hphase
  | @reveal clock taken =>
    have hwaited : { duel with clock }.Told books roster := h
    exact told_reveal hbooks hwaited hat.ending
  | cast side code => exact told_cast hbooks h hat.ending code
  | @castOffer face clock side taken =>
    have hwaited : { duel with clock }.Told books roster := h
    exact told_cast hbooks hwaited hat.ending _
  | @settle face code clock next taken settles =>
    have hwaited : { duel with clock }.Told books roster := h
    exact told_settles hbooks hwaited hat.ending settles
  | close =>
    exact told_openTurn hbooks _ hat.ending ((told_iff_of_going hat.ending).mp h)

end Duel

/-! ## The books of a run -/

/-- The roster of a call to start. -/
def HostCall.roster? : HostCall → Option Roster
  | .start roster => some roster
  | _ => none

namespace Duel

variable {χ η δ : Type} [Hooks χ] [SpellHandler η] [DieSource δ] {books : χ → List HookCall}
  (hbooks : Records books) (settings : Settings) (hooks : χ) (handler : η) (dice : δ)

/-- Until the first start only the time moves. -/
theorem after_unstarted {calls : List HostCall}
    (hnone : ∀ call ∈ calls, call.roster? = none) :
    ∃ now, (new settings hooks handler dice).after calls =
      waited settings hooks handler dice now :=
  after_waited settings hooks handler dice 0 fun _ hmem => nomatch hnone _ hmem

/-- A duel has started if a call to start was among the calls. -/
theorem started_of_roster {calls : List HostCall} {roster : Roster}
    (hstart : calls.findSome? HostCall.roster? = some roster) :
    ((new settings hooks handler dice).after calls).started = true := by
  obtain ⟨call, hmem, hcall⟩ := List.exists_of_findSome?_eq_some hstart
  obtain rfl : call = .start roster := by
    cases call <;> cases hcall
    rfl
  exact (started_after_iff settings hooks handler dice calls).mpr ⟨roster, hmem⟩

include hbooks

/-- From the first start on the books tell the history and the ending. -/
theorem told_after_calls (hblank : books hooks = []) {calls : List HostCall} {roster : Roster}
    (hstart : calls.findSome? HostCall.roster? = some roster) :
    ((new settings hooks handler dice).after calls).Told books roster := by
  obtain ⟨earlier, call, later, rfl, hcall, hearlier⟩ := List.findSome?_eq_some_iff.mp hstart
  obtain rfl : call = .start roster := by
    cases call <;> cases hcall
    rfl
  obtain ⟨now, hnow⟩ := after_unstarted settings hooks handler dice hearlier
  rw [after_append, hnow, after_cons, call_start_of_fresh rfl]
  have hbegun : ((waited settings hooks handler dice now).begun roster).Told books roster := by
    refine told_openTurn hbooks _ rfl ?_
    change books (Hooks.startBattle hooks roster) = _
    rw [hbooks.startBattle, hblank]
    rfl
  -- From the first turn on every move carries a turn on, whatever the later calls are.
  let Q : Duel χ η δ → Prop := fun duel => (∃ stage, duel.IsAt stage) ∧ duel.Told books roster
  have hstep : ∀ {duel next : Duel χ η δ}, Q duel → Move duel next → Q next := by
    rintro duel next ⟨⟨stage, hat⟩, htold⟩ hmove
    have hnext := hat.continues hmove
    exact ⟨hnext.isAt hat, hnext.told hbooks hat htold⟩
  exact (Moves.preserve hstep (moves_after _ later) ⟨⟨_, isAt_begun now roster⟩, hbegun⟩).2

/-- Hooks that write down every call have exactly the calls of the history and of the ending in
their books after any run, and nothing before the first start. Every third entry of a turn has a
roll to be told of, and the states that the hooks were told of are the history. -/
theorem books_after_calls (hblank : books hooks = []) (calls : List HostCall) :
    let duel := (new settings hooks handler dice).after calls
    books duel.hooks = HookCall.protocol duel.history duel.ending
        (calls.findSome? HostCall.roster?) ∧
      (∀ (i : Nat) (hi : i < duel.history.length), i % 5 = 2 → duel.history[i].roll ≠ none) ∧
      (books duel.hooks).filterMap HookCall.snapshot? = duel.history := by
  intro duel
  cases hstart : calls.findSome? HostCall.roster? with
  | none =>
    have hnone := List.findSome?_eq_none_iff.mp hstart
    obtain ⟨now, hnow⟩ := after_unstarted settings hooks handler dice hnone
    have hduel : books duel.hooks = [] := by
      rw [show duel = _ from hnow]
      exact hblank
    have hhistory : duel.history = [] := by
      rw [show duel = _ from hnow]
      rfl
    rw [hduel, hhistory]
    exact ⟨rfl, fun _ hi => (Nat.not_lt_zero _ hi).elim, rfl⟩
  | some roster =>
    have htold : duel.Told books roster :=
      told_after_calls hbooks settings hooks handler dice hblank hstart
    have h : Chronicle settings.opener duel.history duel.current :=
      chronicle_after_calls settings hooks handler dice calls
        (started_of_roster settings hooks handler dice hstart)
    rw [Told] at htold
    refine ⟨?_, fun i hi => h.roll_getElem hi, ?_⟩
    · rw [htold, h.ofHistory_eq, HookCall.protocol, h.last]
      simp
    · rw [htold, List.filterMap_append, List.filterMap_cons_none rfl, HookCall.snapshots_ofHistory,
        HookCall.snapshots_ofEnding, List.append_nil]

end Duel

/-- The recorder's books of a duel that the enemy opened and that ends with the player's turn. -/
theorem Duel.books_after_calls_recorder :
    let recorder : Recorder := { answers := [false, false, false, true] }
    let settings : Settings := { opener := .enemy }
    let calls : List HostCall := [.request .close, .advance 5, .start {}, .start {},
      .request (.roll .player), .advance 9000, .request .close, .request (.roll .player),
      .advance 2000, .request (.cast ⟨"-"⟩), .runUntilIdle]
    let duel := (new settings recorder Journal.empty (ScriptedDice.ofRolls [3, 4])).after calls
    recorder.calls = [] ∧ duel.ending = some .afterTurnEffects ∧ duel.history.length = 9 ∧
      duel.hooks.calls = HookCall.protocol duel.history duel.ending
        (calls.findSome? HostCall.roster?) := by
  intro recorder settings calls duel
  have hblank : recorder.calls = [] := rfl
  have htold := books_after_calls Recorder.records settings recorder Journal.empty
    (ScriptedDice.ofRolls [3, 4]) hblank calls
  exact ⟨hblank, by decide, by decide, by rw [htold.1]⟩

end DiceDuel
