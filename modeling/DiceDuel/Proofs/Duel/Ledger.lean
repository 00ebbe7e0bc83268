import DiceDuel.Proofs.Casting.Effects
import DiceDuel.Proofs.Die.Script
import DiceDuel.Proofs.Duel.Runs

/-!
# The ledger of a run

A run with scripted dice and a journal writes four logs: the history, the outcomes, the journal and
the count of draws. One die is shared by the rolls of the turns and by the gates of marked codes,
and the logs are written at different moments of a turn. A tally says how they hang together: which
draw each face and each gate came from, and which casting each outcome left in the journal. An
offered face and a shown code each extend the tally by one entry, and nothing else in a run touches
it.
-/

namespace DiceDuel

open ScriptedDice

/-- The entries of a history with a phase. A face is offered at each entry with the phase of
casting, and a code is shown first at each with the phase of the animation. -/
def entriesAt (phase : Phase) (history : List Snapshot) : List Snapshot :=
  history.filter fun entry => entry.phase = phase

/-- The entries of two parts of a history are those of the parts. -/
theorem entriesAt_append (phase : Phase) (history more : List Snapshot) :
    entriesAt phase (history ++ more) = entriesAt phase history ++ entriesAt phase more :=
  List.filter_append history more

/-- One more entry with the phase is the last of them. -/
theorem entriesAt_append_of_eq {phase : Phase} (history : List Snapshot) {entry : Snapshot}
    (hphase : entry.phase = phase) :
    entriesAt phase (history ++ [entry]) = entriesAt phase history ++ [entry] := by
  have hlast : entriesAt phase [entry] = [entry] :=
    List.filter_cons_of_pos (decide_eq_true hphase)
  rw [entriesAt_append, hlast]

/-- One more entry with another phase makes no difference. -/
theorem entriesAt_append_of_ne {phase : Phase} (history : List Snapshot) {entry : Snapshot}
    (other : Phase) (hentry : entry.phase = other) (hother : other ≠ phase) :
    entriesAt phase (history ++ [entry]) = entriesAt phase history := by
  have hlast : entriesAt phase [entry] = [] :=
    List.filter_cons_of_neg fun hsame => hother (hentry.symm.trans (of_decide_eq_true hsame))
  rw [entriesAt_append, hlast, List.append_nil]

/-- How many of some entries show a marked code, which draws a die for its gate. -/
def gates (entries : List Snapshot) : Nat :=
  entries.countP fun entry => entry.shown.any fun code => (Spell.ofCode code).rollAgain

/-- Who casts the code that an entry shows. -/
def Snapshot.caller (entry : Snapshot) : Caller := ⟨entry.side, entry.roll⟩

/-- How the logs of a run with scripted dice hang together: `offered` and `shown` are the entries of
its history at which a face is offered and a code is shown first. -/
structure Tally (rolls : List UInt8) (strictness : Strictness) (offered shown : List Snapshot)
    (outcomes : List Outcome) (castings : List Casting) (dice : ScriptedDice) : Prop where
  /-- A die was drawn for each face and for each gate. -/
  dice : dice = afterDraws rolls (offered.length + gates shown)
  /-- Before a face one die was drawn for each earlier face and each earlier gate. -/
  face : ∀ i (hi : i < offered.length),
    offered[i].roll = some (Die.clamp (answerAt rolls (i + gates (shown.take i))))
  /-- There is one outcome for each code. -/
  size : outcomes.length = shown.length
  /-- Before a gate the die of the face in its own turn was drawn as well. -/
  outcome : ∀ i (hi : i < shown.length), ∃ code, shown[i].shown = some code ∧
    ∀ journal : Journal, outcomes[i]? = some (Casting.castCode strictness code shown[i].caller
      (afterDraws rolls (i + 1 + gates (shown.take i))) journal).1
  /-- The journal holds the castings that the outcomes tell of. -/
  castings : castings =
    (shown.zip outcomes).filterMap fun entry => entry.2.casting? entry.1.caller

/-- One more entry that shows a code counts if the code is marked. -/
theorem gates_append_singleton (entries : List Snapshot) {entry : Snapshot} {code : Code}
    (hshown : entry.shown = some code) :
    gates (entries ++ [entry]) =
      gates entries + if (Spell.ofCode code).rollAgain then 1 else 0 := by
  rw [gates, List.countP_append, List.countP_singleton, hshown]
  rfl

namespace Tally

variable {rolls : List UInt8} {strictness : Strictness} {offered shown : List Snapshot}
  {outcomes : List Outcome} {castings : List Casting} {dice : ScriptedDice} {entry : Snapshot}

/-- Before anything is recorded there is nothing to tally. -/
theorem nil (rolls : List UInt8) (strictness : Strictness) :
    Tally rolls strictness [] [] [] [] (ofRolls rolls) where
  dice := rfl
  face _ hi := nomatch hi
  size := rfl
  outcome _ hi := nomatch hi
  castings := rfl

/-- A face that is offered is the next draw, when every earlier offer was answered by a code. -/
theorem offer (h : Tally rolls strictness offered shown outcomes castings dice)
    (hturns : offered.length = shown.length) (hroll : entry.roll = some (Die.clamp dice.roll.1)) :
    Tally rolls strictness (offered ++ [entry]) shown outcomes castings dice.roll.2 where
  dice := by
    rw [h.dice, List.length_append, List.length_singleton, Nat.add_right_comm]
    rfl
  face i hi := by
    rw [List.length_append, List.length_singleton] at hi
    by_cases hearlier : i < offered.length
    · rw [List.getElem_append_left hearlier]
      exact h.face i hearlier
    · obtain rfl : i = offered.length := by omega
      rw [List.getElem_concat_length rfl, hroll, h.dice, roll_afterDraws,
        List.take_of_length_le (Nat.le_of_eq hturns.symm)]
  size := h.size
  outcome := h.outcome
  castings := h.castings

/-- A code that is shown is cast with the next draws, when its turn's face has been offered. -/
theorem cast (h : Tally rolls strictness offered shown outcomes castings dice)
    (hturns : offered.length = shown.length + 1) {code : Code} (hshown : entry.shown = some code)
    {journal : Journal} (hjournal : castings = journal.castings) :
    let cast := Casting.castCode strictness code entry.caller dice journal
    Tally rolls strictness offered (shown ++ [entry]) (outcomes ++ [cast.1]) cast.2.2.castings
      cast.2.1 where
  dice := by
    rw [Casting.castCode_dice, gates_append_singleton _ hshown, h.dice]
    by_cases hgated : (Spell.ofCode code).rollAgain = true
    · rw [if_pos hgated, if_pos hgated]
      rfl
    · rw [if_neg hgated, if_neg hgated]
      rfl
  face i hi := by
    rw [List.take_append_of_le_length (by omega)]
    exact h.face i hi
  size := by
    rw [List.length_append, List.length_append, h.size]
    rfl
  outcome i hi := by
    rw [List.length_append, List.length_singleton] at hi
    by_cases hearlier : i < shown.length
    · obtain ⟨earlierCode, hearlierCode, houtcome⟩ := h.outcome i hearlier
      refine ⟨earlierCode, ?_, fun other => ?_⟩
      · rw [List.getElem_append_left hearlier]
        exact hearlierCode
      · rw [List.getElem?_append_left (by rw [h.size]; exact hearlier),
          List.getElem_append_left hearlier, List.take_append_of_le_length (Nat.le_of_lt hearlier)]
        exact houtcome other
    · obtain rfl : i = shown.length := by omega
      refine ⟨code, ?_, fun other => ?_⟩
      · rw [List.getElem_concat_length rfl]
        exact hshown
      · rw [List.getElem_concat_length rfl, List.take_append_of_le_length (Nat.le_refl _),
          List.take_length, ← hturns, ← h.dice, ← h.size, List.getElem?_concat_length,
          Casting.castCode_fst_eq strictness entry.caller code dice journal other]
  castings := by
    rw [Casting.castings_castCode, ← hjournal, h.castings, List.zip_append h.size.symm,
      List.filterMap_append]
    refine congrArg (_ ++ ·) ?_
    cases (Casting.castCode strictness code entry.caller dice journal).1 <;> rfl

end Tally

namespace Duel

variable {χ : Type} {rolls : List UInt8} {strictness : Strictness}
  {duel next : Duel χ Journal ScriptedDice}

/-- A duel whose logs hang together. -/
structure Aligned (rolls : List UInt8) (strictness : Strictness)
    (duel : Duel χ Journal ScriptedDice) : Prop where
  /-- Faults are treated as they were from the beginning. -/
  faults : duel.settings.strictness = strictness
  /-- A face that is on offer is the only one whose turn has not shown a code. -/
  turns : (entriesAt .casting duel.history).length =
    (entriesAt .animating duel.history).length + if duel.current.phase = .casting then 1 else 0
  /-- The four logs tally. -/
  tally : Tally rolls strictness (entriesAt .casting duel.history)
    (entriesAt .animating duel.history) duel.outcomes duel.handler.castings duel.dice

namespace Aligned

/-- A duel that has recorded nothing and drawn nothing is aligned. -/
theorem of_fresh (faults : duel.settings.strictness = strictness) (hhistory : duel.history = [])
    (hphase : duel.current.phase = .opening) (houtcomes : duel.outcomes = [])
    (hcastings : duel.handler.castings = []) (hdice : duel.dice = ofRolls rolls) :
    duel.Aligned rolls strictness := by
  refine ⟨faults, ?_, ?_⟩
  · rw [hhistory, hphase]
    rfl
  · rw [hhistory, houtcomes, hcastings, hdice]
    exact .nil rolls strictness

/-- While no face is on offer, every turn that offered one has shown a code. -/
theorem turns_of_ne (h : duel.Aligned rolls strictness) (hphase : duel.current.phase ≠ .casting) :
    (entriesAt .casting duel.history).length = (entriesAt .animating duel.history).length := by
  rw [h.turns, if_neg hphase, Nat.add_zero]

variable [Hooks χ]

/-- A state that offers no face and shows no new code is no concern of the ledger. -/
theorem commit (h : duel.Aligned rolls strictness) (hbefore : duel.current.phase ≠ .casting)
    {entry : Snapshot} (phase : Phase) (hentry : entry.phase = phase) (hoffer : phase ≠ .casting)
    (hshow : phase ≠ .animating) : (duel.commit entry).Aligned rolls strictness := by
  have hoffers : entriesAt .casting (duel.commit entry).history = _ :=
    entriesAt_append_of_ne duel.history phase hentry hoffer
  have hshows : entriesAt .animating (duel.commit entry).history = _ :=
    entriesAt_append_of_ne duel.history phase hentry hshow
  have hafter : (duel.commit entry).current.phase ≠ .casting := hentry.trans_ne hoffer
  refine ⟨h.faults, ?_, ?_⟩
  · rw [hoffers, hshows, h.turns_of_ne hbefore, if_neg hafter, Nat.add_zero]
  · rw [hoffers, hshows]
    exact h.tally

/-- The start of a roll is no concern of the ledger. -/
theorem startRoll (h : duel.Aligned rolls strictness) (hphase : duel.current.phase = .opening) :
    duel.startRoll.Aligned rolls strictness := by
  let entry : Snapshot := { duel.current with rolling := true, roll := none }
  have hbefore : duel.current.phase ≠ .casting := hphase.trans_ne (by decide)
  have hcommit : (duel.commit entry).Aligned rolls strictness :=
    h.commit hbefore .opening hphase (by decide) (by decide)
  exact ⟨hcommit.faults, hcommit.turns, hcommit.tally⟩

/-- The opening of a turn is no concern of the ledger. -/
theorem openTurn (h : duel.Aligned rolls strictness) (hbefore : duel.current.phase ≠ .casting)
    (side : Side) : (duel.openTurn side).Aligned rolls strictness := by
  let entry : Snapshot := { side, turn := duel.current.turn + 1 }
  have hcommit : (duel.commit entry).Aligned rolls strictness :=
    h.commit hbefore .opening rfl (by decide) (by decide)
  have hopened : { duel.commit entry with
      hooks := Hooks.startTurn (duel.commit entry).hooks side }.Aligned rolls strictness :=
    ⟨hcommit.faults, hcommit.turns, hcommit.tally⟩
  cases side with
  | player => exact hopened
  | enemy => exact hopened.startRoll rfl

/-- A face that shows is entered in the ledger. -/
theorem revealed (h : duel.Aligned rolls strictness) (hbefore : duel.current.phase ≠ .casting) :
    duel.revealed.Aligned rolls strictness := by
  have hoffers : entriesAt .casting duel.revealed.history = _ :=
    entriesAt_append_of_eq duel.history rfl
  have hshows : entriesAt .animating duel.revealed.history = _ :=
    entriesAt_append_of_ne duel.history .casting rfl (by decide)
  have hturns := h.turns_of_ne hbefore
  refine ⟨h.faults, ?_, ?_⟩
  · rw [hoffers, hshows, List.length_append, hturns]
    rfl
  · rw [hoffers, hshows]
    exact h.tally.offer hturns rfl

/-- A reveal is entered in the ledger, whoever casts on it. -/
theorem reveal (h : duel.Aligned rolls strictness) (hbefore : duel.current.phase ≠ .casting) :
    duel.reveal.Aligned rolls strictness := by
  have hrevealed := h.revealed hbefore
  cases hside : duel.current.side with
  | player =>
    rw [reveal_of_player duel hside]
    exact hrevealed
  | enemy =>
    rw [reveal_of_enemy duel hside]
    exact ⟨hrevealed.faults, hrevealed.turns, hrevealed.tally⟩

/-- A code that is cast on an offer is entered in the ledger. -/
theorem cast (h : duel.Aligned rolls strictness) (hbefore : duel.current.phase = .casting)
    (code : Code) : (duel.cast code).Aligned rolls strictness := by
  rw [cast_eq_castWith, h.faults]
  let entry : Snapshot :=
    { duel.current with phase := .animating, offered := some code, shown := some code }
  have hoffers : entriesAt .casting (duel.history ++ [entry]) = _ :=
    entriesAt_append_of_ne duel.history .animating rfl (by decide)
  have hshows : entriesAt .animating (duel.history ++ [entry]) = _ :=
    entriesAt_append_of_eq duel.history rfl
  have hturns := h.turns
  rw [if_pos hbefore] at hturns
  have hshown : entry.shown = some code := rfl
  have htally := h.tally.cast hturns hshown rfl
  refine ⟨h.faults, ?_, ?_⟩
  · change (entriesAt .casting (duel.history ++ [entry])).length =
      (entriesAt .animating (duel.history ++ [entry])).length + 0
    rw [hoffers, hshows, List.length_append, hturns]
    rfl
  · rw [← hoffers, ← hshows] at htally
    exact htally

/-- The end of an animation is no concern of the ledger. -/
theorem settles (h : duel.Aligned rolls strictness) (hbefore : duel.current.phase = .animating)
    (hsettles : Settles duel next) : next.Aligned rolls strictness := by
  cases hsettles with
  | death dead => exact ⟨h.faults, h.turns, h.tally⟩
  | lateDeath alive dead => exact ⟨h.faults, h.turns, h.tally⟩
  | noDeath alive still =>
    have hchecked : { duel with
        hooks := (Hooks.deathCheck duel.wornHooks).2 }.Aligned rolls strictness :=
      ⟨h.faults, h.turns, h.tally⟩
    exact hchecked.commit (hbefore.trans_ne (by decide)) .closing rfl (by decide) (by decide)

/-- Whatever carries a turn on keeps the logs aligned. -/
theorem continues (h : duel.Aligned rolls strictness) {stage : Stage} (hat : duel.IsAt stage)
    (hcontinues : Continues duel stage next) : next.Aligned rolls strictness := by
  have hphase : duel.current.phase =
      (stage.snapshot duel.current.side duel.current.turn).phase :=
    congrArg Snapshot.phase hat.current
  cases hcontinues with
  | wait time => exact ⟨h.faults, h.turns, h.tally⟩
  | roll => exact h.startRoll hphase
  | @reveal clock taken =>
    have hwaited : { duel with clock }.Aligned rolls strictness := ⟨h.faults, h.turns, h.tally⟩
    exact hwaited.reveal (hphase.trans_ne nofun)
  | cast side code => exact h.cast hphase code
  | @castOffer face clock side taken =>
    have hwaited : { duel with clock }.Aligned rolls strictness := ⟨h.faults, h.turns, h.tally⟩
    exact hwaited.cast hphase _
  | @settle face code clock next taken settles =>
    have hwaited : { duel with clock }.Aligned rolls strictness := ⟨h.faults, h.turns, h.tally⟩
    exact hwaited.settles hphase settles
  | close => exact h.openTurn (hphase.trans_ne nofun) _

end Aligned

variable [Hooks χ] (settings : Settings) (hooks : χ) (rolls : List UInt8)

/-- After any calls the logs of a duel hang together. -/
theorem aligned_after_calls (calls : List HostCall) :
    ((new settings hooks Journal.empty (ofRolls rolls)).after calls).Aligned rolls
      settings.strictness := by
  have hfresh (now : UInt64) (started : Bool) (hooks : χ) :
      { waited settings hooks Journal.empty (ofRolls rolls) now with started }.Aligned rolls
        settings.strictness :=
    .of_fresh rfl rfl rfl rfl rfl rfl
  exact after_induction (P := fun duel => duel.Aligned rolls settings.strictness)
    (fun now => hfresh now false hooks)
    (fun now roster => (hfresh now true (Hooks.startBattle hooks roster)).openTurn nofun _)
    (fun hat h hcontinues => h.continues hat hcontinues) calls

/-- In every run with scripted dice and a journal the four logs tell of the same castings. Each
shown code has one outcome, that of casting it for the side and the roll of its entry with the die
that was next; the journal holds the castings of these outcomes and no others; and the draws are
those of the faces and of the gates, each face and each gate being answered by the byte of the
script at the number of draws before it. -/
theorem ledger_after_calls (calls : List HostCall) :
    let duel := (new settings hooks Journal.empty (ofRolls rolls)).after calls
    let offered := entriesAt .casting duel.history
    let shown := entriesAt .animating duel.history
    duel.outcomes.length = shown.length ∧
      (∀ i (hi : i < shown.length), ∃ code, shown[i].shown = some code ∧
        ∀ journal : Journal, duel.outcomes[i]? = some (Casting.castCode settings.strictness code
          ⟨shown[i].side, shown[i].roll⟩ (afterDraws rolls (i + 1 + gates (shown.take i)))
          journal).1) ∧
      duel.handler.castings = (shown.zip duel.outcomes).filterMap
        (fun entry => entry.2.casting? ⟨entry.1.side, entry.1.roll⟩) ∧
      (∀ i (hi : i < offered.length),
        offered[i].roll = some (Die.clamp (answerAt rolls (i + gates (shown.take i))))) ∧
      duel.dice = afterDraws rolls (offered.length + gates shown) ∧
      duel.dice.draws = offered.length + gates shown ∧
      ∀ drawn, (afterDraws rolls drawn).roll.1 = answerAt rolls drawn := by
  intro duel offered shown
  have h : Tally rolls settings.strictness offered shown duel.outcomes duel.handler.castings
      duel.dice := (aligned_after_calls settings hooks rolls calls).tally
  refine ⟨h.size, h.outcome, h.castings, h.face, h.dice, ?_, roll_afterDraws rolls⟩
  rw [h.dice, draws_afterDraws]

end Duel

end DiceDuel
