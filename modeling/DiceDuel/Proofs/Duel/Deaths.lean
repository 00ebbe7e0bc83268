import DiceDuel.Proofs.Duel.Idle
import DiceDuel.Proofs.Duel.Ledger
import DiceDuel.Proofs.Duel.Noted
import Mathlib.Data.List.Induction

/-!
# Deaths

At the end of each animation the hooks are asked twice whether somebody has died. As long as they
deny it, every closed turn has had its two checks. The first check that they affirm is the last one
that is ever made: its number tells at which of the two checks, and in which turn, the duel ended,
and from then on a duel does nothing but let time pass. The checks are read off the notes of noted
hooks, so that nothing is assumed of how hooks answer.
-/

namespace DiceDuel

/-! ## The checks in the books -/

namespace HookCall

/-- The answer to a check. -/
def answer? : HookCall → Option Bool
  | .deathCheck answer => some answer
  | _ => none

/-- A closing entry goes with two checks that found nobody dead, and any other with none. -/
theorem answers_ofEntry (entry : Snapshot) :
    (ofEntry entry entry.place).filterMap answer? =
      if entry.phase = .closing then [false, false] else [] := by
  unfold Snapshot.place
  cases hphase : entry.phase with
  | opening => cases entry.rolling <;> rfl
  | casting =>
    dsimp only [ofEntry]
    cases entry.roll <;> rfl
  | animating => rfl
  | closing => rfl

/-- A history goes with two checks for each closing entry. -/
theorem answers_ofHistory (history : List Snapshot) :
    (ofHistory history).filterMap answer? =
      List.replicate (2 * (entriesAt .closing history).length) false := by
  induction history with
  | nil => rfl
  | cons entry rest ih =>
    have hcons : ofHistory (entry :: rest) = ofEntry entry entry.place ++ ofHistory rest :=
      List.flatMap_cons
    rw [hcons, List.filterMap_append, answers_ofEntry, ih]
    by_cases hphase : entry.phase = .closing
    · have hentries : entriesAt .closing (entry :: rest) = entry :: entriesAt .closing rest :=
        List.filter_cons_of_pos (decide_eq_true hphase)
      have hsize : 2 * ((entriesAt .closing rest).length + 1) =
          2 * (entriesAt .closing rest).length + 1 + 1 := by omega
      rw [if_pos hphase, hentries, List.length_cons, hsize, List.replicate_succ,
        List.replicate_succ]
      rfl
    · have hentries : entriesAt .closing (entry :: rest) = entriesAt .closing rest :=
        List.filter_cons_of_neg fun hsame => hphase (of_decide_eq_true hsame)
      rw [if_neg hphase, hentries, List.nil_append]

end HookCall

section Denials

variable {denials number : Nat}

/-- Behind some denials the affirmation has the number of the denials. -/
theorem eq_of_affirmed (haffirmed : (List.replicate denials false ++ [true])[number]? = some true) :
    number = denials := by
  rw [List.getElem?_append, List.length_replicate] at haffirmed
  by_cases hearly : number < denials
  · rw [if_pos hearly, List.getElem?_replicate, if_pos hearly] at haffirmed
    cases haffirmed
  · rw [if_neg hearly, List.getElem?_singleton] at haffirmed
    by_contra hother
    have hbehind : ¬number - denials = 0 := by omega
    rw [if_neg hbehind] at haffirmed
    cases haffirmed

/-- Every answer before the affirmation is a denial. -/
theorem denied_of_lt (hearly : number < denials) :
    (List.replicate denials false ++ [true])[number]? = some false := by
  rw [List.getElem?_append, List.length_replicate, if_pos hearly, List.getElem?_replicate,
    if_pos hearly]

end Denials

namespace Ending

/-- How many checks of the last turn found nobody dead. -/
def denials : Ending → Nat
  | .afterSpell => 0
  | .afterTurnEffects => 1

/-- The end to which a check leads that finds somebody dead, by the number of checks before it: the
two checks of a turn alternate. -/
def ofCheck (number : Nat) : Ending := if number % 2 = 0 then .afterSpell else .afterTurnEffects

/-- Behind two checks for each of some turns, the check that ends a duel has its number. -/
theorem ofCheck_denials (turns : Nat) (ending : Ending) :
    ofCheck (2 * turns + ending.denials) = ending ∧ (2 * turns + ending.denials) / 2 = turns := by
  cases ending with
  | afterSpell =>
    have heven : (2 * turns + 0) % 2 = 0 := by omega
    have hturns : (2 * turns + 0) / 2 = turns := by omega
    exact ⟨if_pos heven, hturns⟩
  | afterTurnEffects =>
    have hodd : ¬(2 * turns + 1) % 2 = 0 := by omega
    have hturns : (2 * turns + 1) / 2 = turns := by omega
    exact ⟨if_neg hodd, hturns⟩

/-- The answers to the checks of the turn in which a duel has ended, none while it goes on. -/
def lastAnswers : Option Ending → List Bool
  | none => []
  | some ending => List.replicate ending.denials false ++ [true]

/-- Behind two denials for each of some turns, an affirmation has the number of the check that ends
the duel, and every other answer is a denial before it. -/
theorem of_affirmed {turns number : Nat} {ending : Option Ending}
    (haffirmed : (List.replicate (2 * turns) false ++ lastAnswers ending)[number]? = some true) :
    ending = some (ofCheck number) ∧ number / 2 = turns ∧
      List.replicate (2 * turns) false ++ lastAnswers ending =
        List.replicate number false ++ [true] := by
  cases ending with
  | none =>
    have hmem := List.mem_of_getElem? haffirmed
    simp [lastAnswers] at hmem
  | some ending =>
    rw [lastAnswers, ← List.append_assoc, List.replicate_append_replicate] at haffirmed ⊢
    obtain rfl := eq_of_affirmed haffirmed
    obtain ⟨hcheck, hturns⟩ := ofCheck_denials turns ending
    rw [hcheck]
    exact ⟨rfl, hturns, rfl⟩

/-- An ending goes with the checks that led to it. -/
theorem answers_ofEnding (side : Side) (ending : Option Ending) :
    (HookCall.ofEnding side ending).filterMap HookCall.answer? = lastAnswers ending := by
  rcases ending with _ | _ | _ <;> rfl

end Ending

/-- The answers that noted hooks have given to checks, the first one first. -/
def NotedHooks.answers {χ : Type} (noted : NotedHooks χ) : List Bool :=
  noted.calls.filterMap HookCall.answer?

/-! ## The number of a turn -/

namespace Chronicle

variable {opener : Side} {history : List Snapshot} {current : Snapshot}

/-- What holds of the first entry alone, and goes over to every longer chronicle, holds of all. -/
theorem induction {motive : List Snapshot → Snapshot → Prop}
    (hopening : motive [Stage.ready.snapshot opener 1] (Stage.ready.snapshot opener 1))
    (hrecord : ∀ {history current next}, Chronicle opener history current → Follows current next →
      motive history current → motive (history ++ [next]) next)
    (h : Chronicle opener history current) : motive history current := by
  induction history using List.reverseRecOn generalizing current with
  | nil => cases h.head
  | append_singleton front last ih =>
    have hlast := h.last
    rw [List.getLast?_concat] at hlast
    obtain rfl : last = current := Option.some.inj hlast
    cases hfront : front.getLast? with
    | none =>
      obtain rfl : front = [] := List.getLast?_eq_none_iff.mp hfront
      obtain rfl : last = Stage.ready.snapshot opener 1 := Option.some.inj h.head
      exact hopening
    | some before =>
      obtain ⟨hchain, -, hlink⟩ := List.isChain_append.mp h.chain
      have hne : front ≠ [] := by
        rintro rfl
        cases hfront
      have hhead : front.head? = some (Stage.ready.snapshot opener 1) := by
        rw [← h.head, List.head?_append_of_ne_nil front hne]
      have hbefore : Chronicle opener front before := ⟨hhead, hchain, hfront⟩
      exact hrecord hbefore (hlink before hfront last rfl) (ih hbefore)

/-- The turn that is on is the one after the closed ones, until it is closed itself. -/
theorem turn_eq (h : Chronicle opener history current) :
    current.turn = UInt32.ofNat ((entriesAt .closing history).length +
      if current.phase = .closing then 0 else 1) := by
  refine h.induction (motive := fun history current => current.turn = UInt32.ofNat
    ((entriesAt .closing history).length + if current.phase = .closing then 0 else 1)) rfl ?_
  intro history current next _ hfollows hturn
  cases hfollows with
  | roll side turn =>
    rw [entriesAt_append_of_ne history .opening rfl (by decide)]
    exact hturn
  | reveal side turn isFace =>
    rw [entriesAt_append_of_ne history .casting rfl (by decide)]
    exact hturn
  | cast side turn offer =>
    rw [entriesAt_append_of_ne history .animating rfl (by decide)]
    exact hturn
  | settle side turn face code =>
    have hclosing : ((Stage.closing face code).snapshot side turn).phase = .closing := rfl
    rw [entriesAt_append_of_eq history hclosing, List.length_append]
    exact hturn
  | close side turn face code =>
    rw [entriesAt_append_of_ne history .opening rfl (by decide), UInt32.ofNat_add]
    exact congrArg (· + 1) hturn

end Chronicle

namespace Duel

/-! ## Duels that are over -/

section Over

variable {χ η δ : Type}

/-- A duel that has come to an end, with nothing on its clock. -/
structure IsOver (duel : Duel χ η δ) (ending : Ending) : Prop where
  /-- The duel has started. -/
  started : duel.started = true
  /-- It has ended in this way. -/
  ending : duel.ending = some ending
  /-- Nothing is put off. -/
  idle : duel.clock.pending = none

/-- How a duel that is over answers each call, and what the call does to it. -/
structure SaysOver [Hooks χ] [SpellHandler η] [DieSource δ] (duel : Duel χ η δ) (ending : Ending) :
    Prop where
  /-- Every request is refused. -/
  request : ∀ request, duel.call (.request request) = (.error (.ended ending), duel)
  /-- Every start is refused. -/
  start : ∀ roster, duel.call (.start roster) = (.error .alreadyStarted, duel)
  /-- Time passes, and nothing else happens. -/
  advance : ∀ elapsed, duel.call (.advance elapsed) = (.ok (.ended ending),
    { duel with clock := { duel.clock with now := later duel.clock.now elapsed } })
  /-- There is nothing left to fire. -/
  fastForward : duel.call .fastForward = (.ok (.ended ending), duel)
  /-- There is nothing left to run. -/
  runUntilIdle : duel.call .runUntilIdle = (.ok (.ended ending), duel)

/-- A duel at a stage that has ended is over, and shows the code after which it ended. -/
theorem IsAt.isOver {duel : Duel χ η δ} {stage : Stage} (h : duel.IsAt stage) {ending : Ending}
    (hending : duel.ending = some ending) :
    duel.IsOver ending ∧ duel.current.phase = .animating := by
  have hstage : stage.ending? = some ending := h.ending.symm.trans hending
  have hphase : duel.current.phase =
      (stage.snapshot duel.current.side duel.current.turn).phase :=
    congrArg Snapshot.phase h.current
  cases stage with
  | ready => cases hstage
  | rolling => cases hstage
  | offered face => cases hstage
  | showing face code ended =>
    obtain rfl : ended = some ending := hstage
    exact ⟨⟨h.started, hending, h.idle rfl⟩, hphase⟩
  | closing face code => cases hstage

namespace IsOver

variable {duel : Duel χ η δ} {ending : Ending}

/-- A duel that is over stays so at any other moment. -/
theorem at_moment (h : duel.IsOver ending) (now : UInt64) :
    { duel with clock := { duel.clock with now } }.IsOver ending :=
  ⟨h.started, h.ending, h.idle⟩

/-- A duel that is over says so. -/
theorem status_eq (h : duel.IsOver ending) : duel.status = .ended ending := by
  unfold status
  rw [h.started, h.ending]
  rfl

variable [Hooks χ] [SpellHandler η] [DieSource δ]

/-- A duel that is over does nothing any more but let time pass. -/
theorem saysOver (h : duel.IsOver ending) : duel.SaysOver ending where
  request request := by
    have hrefused : duel.refusal? request = some (.ended ending) := by
      unfold refusal?
      rw [h.started, h.ending]
      rfl
    exact call_request_of_refused hrefused
  start := call_start_of_started h.started
  advance elapsed := by
    have hnone : duel.clock.takeDue? (later duel.clock.now elapsed) = none :=
      Clock.takeDue?_of_idle h.idle
    have hadvance := advancedTo_of_none duel hnone
    rw [Clock.moveTo_of_le (le_later duel.clock.now elapsed)] at hadvance
    rw [call, advance_eq_advancedTo, hadvance, (h.at_moment _).status_eq]
  fastForward := by
    have hforward : duel.fastForward = duel := by
      rw [fastForward, Clock.takeNow?, h.idle]
      rfl
    rw [call, hforward, h.status_eq]
  runUntilIdle := by
    rw [call, runUntilIdle_of_none duel h.idle, h.status_eq]

/-- A call changes nothing but the moment. -/
theorem call_snd (h : duel.IsOver ending) (call : HostCall) :
    ∃ now, (duel.call call).2 = { duel with clock := { duel.clock with now } } := by
  cases call with
  | start roster => exact ⟨duel.clock.now, congrArg Prod.snd (h.saysOver.start roster)⟩
  | request request => exact ⟨duel.clock.now, congrArg Prod.snd (h.saysOver.request request)⟩
  | advance elapsed => exact ⟨_, congrArg Prod.snd (h.saysOver.advance elapsed)⟩
  | fastForward => exact ⟨duel.clock.now, congrArg Prod.snd h.saysOver.fastForward⟩
  | runUntilIdle => exact ⟨duel.clock.now, congrArg Prod.snd h.saysOver.runUntilIdle⟩

/-- Any number of calls change nothing but the moment, and the duel is still over then. -/
theorem after_calls (h : duel.IsOver ending) (calls : List HostCall) :
    (∃ now, duel.after calls = { duel with clock := { duel.clock with now } }) ∧
      (duel.after calls).IsOver ending := by
  induction calls generalizing duel with
  | nil => exact ⟨⟨duel.clock.now, rfl⟩, h⟩
  | cons call calls ih =>
    obtain ⟨now, hnow⟩ := h.call_snd call
    rw [after_cons, hnow]
    exact ih (h.at_moment now)

end IsOver

end Over

/-! ## Deaths in a run -/

variable {χ η δ : Type} [Hooks χ] [SpellHandler η] [DieSource δ] (settings : Settings) (hooks : χ)
  (handler : η) (dice : δ)

/-- The checks of a run are the two denials of each closed turn, and then those that ended it. -/
theorem answers_after_calls (calls : List HostCall) :
    let duel := (noted settings hooks handler dice).after calls
    duel.hooks.answers = List.replicate (2 * (entriesAt .closing duel.history).length) false
      ++ Ending.lastAnswers duel.ending := by
  intro duel
  cases hstart : calls.findSome? HostCall.roster? with
  | none =>
    have hnone := List.findSome?_eq_none_iff.mp hstart
    obtain ⟨now, hnow⟩ := after_unstarted settings ({ hooks } : NotedHooks χ)
      ({ handler } : NotedHandler η) ({ dice } : Noted δ) hnone
    have hduel : duel = _ := hnow
    rw [hduel]
    rfl
  | some roster =>
    have htold : duel.Told NotedHooks.calls roster :=
      told_after_calls NotedHooks.records settings _ _ _ rfl hstart
    rw [NotedHooks.answers, htold, List.filterMap_append, List.filterMap_cons_none rfl,
      HookCall.answers_ofHistory, Ending.answers_ofEnding]

/-- A death ends a duel once and for all. While every check of a run has found nobody dead, the duel
has not ended, and there were two checks for each closed turn. A check that finds somebody dead is
the first to do so and the last to be made; its number tells how the duel has ended and in which
turn it shows its code for good. From then on every request and every start is refused, and the
other calls say how the duel has ended and change nothing but the moment, neither in the duel nor in
the notes of its hooks, of its handler of spells and of its dice. -/
theorem ended_after_calls (calls : List HostCall) :
    let duel := (noted settings hooks handler dice).after calls
    let answers := duel.hooks.answers
    duel.plain = (new settings hooks handler dice).after calls ∧
      ((∀ answer ∈ answers, answer = false) →
        duel.ending = none ∧ answers.length = 2 * (entriesAt .closing duel.history).length) ∧
      ∀ k, answers[k]? = some true →
        (∀ i < k, answers[i]? = some false) ∧ answers.length = k + 1 ∧
          duel.ending = some (Ending.ofCheck k) ∧ duel.current.phase = .animating ∧
          (k / 2 + 1 < UInt32.size → duel.current.turn.toNat = k / 2 + 1) ∧
          ∀ more,
            (∃ now, duel.after more = { duel with clock := { duel.clock with now } }) ∧
              (duel.after more).SaysOver (Ending.ofCheck k) := by
  intro duel answers
  have hanswers : answers =
      List.replicate (2 * (entriesAt .closing duel.history).length) false
        ++ Ending.lastAnswers duel.ending :=
    answers_after_calls settings hooks handler dice calls
  have hstanding : (∃ now, duel = waited settings _ _ _ now) ∨ ∃ stage, duel.IsAt stage :=
    waited_or_isAt settings _ _ _ calls
  have hchronicle : duel.started = true →
      Chronicle settings.opener duel.history duel.current :=
    chronicle_after_calls settings _ _ _ calls
  refine ⟨plain_after_noted settings hooks handler dice calls, ?_, ?_⟩
  · intro hdenied
    rw [hanswers] at hdenied ⊢
    cases hending : duel.ending with
    | none => simp [Ending.lastAnswers]
    | some ending =>
      rw [hending] at hdenied
      have haffirmed := hdenied true (by simp [Ending.lastAnswers])
      cases haffirmed
  · intro k haffirmed
    rw [hanswers] at haffirmed
    obtain ⟨hending, hturns, hshape⟩ := Ending.of_affirmed haffirmed
    obtain ⟨stage, hat⟩ : ∃ stage, duel.IsAt stage := by
      rcases hstanding with ⟨now, hnow⟩ | hat
      · rw [hnow] at hending
        cases hending
      · exact hat
    obtain ⟨hover, hphase⟩ := hat.isOver hending
    have hturn := (hchronicle hat.started).turn_eq
    rw [hphase, if_neg (by decide), ← hturns] at hturn
    rw [hanswers, hshape]
    refine ⟨fun i => denied_of_lt, by simp, hending, hphase, ?_, fun more => ?_⟩
    · intro hfits
      rw [hturn]
      exact UInt32.toNat_ofNat_of_lt' hfits
    · obtain ⟨hnow, hstill⟩ := hover.after_calls more
      exact ⟨hnow, hstill.saysOver⟩

/-- The enemy's first turn, in which the second check finds somebody dead. -/
example :
    let duel := (noted { opener := .enemy } ({ answers := [false, true] } : Recorder) Journal.empty
      (ScriptedDice.ofRolls [3])).after [.start {}, .runUntilIdle, .advance 7]
    duel.hooks.answers = [false, true] ∧ duel.ending = some .afterTurnEffects ∧
      duel.current.turn = 1 := by
  decide

end Duel

end DiceDuel
