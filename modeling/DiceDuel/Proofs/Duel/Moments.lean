import DiceDuel.Proofs.Duel.Runs
import DiceDuel.Proofs.Duel.Waiting
import Mathlib.Data.List.Chain

/-!
# The moments of a run

One call of the host can carry a duel through several steps of a turn, and the duel that the host
gets back is the last of them. The moments of a run are all of them, in their order: the duel at the
beginning and then the duel after each elementary change. What is to be said of the middle of a
call, such as how many dice were drawn between two recorded states, is said of these.
-/

namespace DiceDuel.Duel

variable {χ η δ : Type} [Hooks χ] [SpellHandler η] [DieSource δ]

/-- The duel after each of at most a number of steps that are due by a deadline. -/
def firings (deadline : UInt64) : Nat → Duel χ η δ → List (Duel χ η δ)
  | 0, _ => []
  | n + 1, duel =>
    match duel.clock.takeDue? deadline with
    | none => []
    | some (step, clock) =>
      let fired := { duel with clock }.fire step
      fired :: firings deadline n fired

/-- The duel after a call that is granted, and none after one that is refused. -/
def changed : Except Refusal Status × Duel χ η δ → List (Duel χ η δ)
  | (.ok _, duel) => [duel]
  | (.error _, _) => []

/-- The duel after each elementary change that a call makes. -/
def moments (duel : Duel χ η δ) : HostCall → List (Duel χ η δ)
  | .start roster => changed (duel.start roster)
  | .request request => changed (duel.handle request)
  | .advance elapsed =>
    firings (later duel.clock.now elapsed) (stepsAhead duel.clock) duel ++ [duel.advance elapsed]
  | .fastForward => firings lastMoment 1 duel
  | .runUntilIdle => firings lastMoment (stepsAhead duel.clock) duel

/-- The duel after each elementary change that some calls make. -/
def passed (duel : Duel χ η δ) : List HostCall → List (Duel χ η δ)
  | [] => []
  | call :: calls => duel.moments call ++ (duel.call call).2.passed calls

/-- All moments of a run, from the duel at its beginning on. -/
def trace (duel : Duel χ η δ) (calls : List HostCall) : List (Duel χ η δ) :=
  duel :: duel.passed calls

section Induction

variable {P : List (Duel χ η δ) → Duel χ η δ → Prop}

/-- What each move keeps along the moments so far is kept by steps that fire. -/
theorem firings_induction
    (hstep : ∀ {visited : List (Duel χ η δ)} {duel next : Duel χ η δ},
      P visited duel → Move duel next → P (visited ++ [next]) next)
    (deadline : UInt64) (n : Nat) {visited : List (Duel χ η δ)} {duel : Duel χ η δ}
    (h : P visited duel) :
    P (visited ++ firings deadline n duel) (fireDue deadline n duel) := by
  induction n generalizing visited duel with
  | zero => exact (List.append_nil visited).symm ▸ h
  | succ n ih =>
    rw [firings, fireDue]
    cases hdue : duel.clock.takeDue? deadline with
    | none => exact (List.append_nil visited).symm ▸ h
    | some taken =>
      obtain ⟨step, clock⟩ := taken
      have hrest := ih (hstep h (.fire (Clock.takeNow?_of_takeDue? hdue)))
      rw [List.append_assoc] at hrest
      exact hrest

/-- What each move keeps along the moments so far is kept by a call. -/
theorem moments_induction
    (hstep : ∀ {visited : List (Duel χ η δ)} {duel next : Duel χ η δ},
      P visited duel → Move duel next → P (visited ++ [next]) next)
    {visited : List (Duel χ η δ)} {duel : Duel χ η δ} (h : P visited duel) (call : HostCall) :
    P (visited ++ duel.moments call) (duel.call call).2 := by
  cases call with
  | start roster =>
    cases hstarted : duel.started with
    | true =>
      have hrefused : duel.start roster = _ := call_start_of_started hstarted roster
      rw [call_start_of_started hstarted, moments, hrefused]
      exact (List.append_nil visited).symm ▸ h
    | false =>
      have hbegun : duel.start roster = _ := call_start_of_fresh hstarted roster
      rw [call_start_of_fresh hstarted, moments, hbegun]
      exact hstep h (.start hstarted roster)
  | request request =>
    cases hrefusal : duel.refusal? request with
    | some refusal =>
      have hrefused : duel.handle request = _ := call_request_of_refused hrefusal
      rw [call_request_of_refused hrefusal, moments, hrefused]
      exact (List.append_nil visited).symm ▸ h
    | none =>
      have hgranted : duel.handle request = _ := call_request_of_granted hrefusal
      rw [call_request_of_granted hrefusal, moments, hgranted]
      exact hstep h (.request hrefusal)
  | advance elapsed =>
    have hfired := firings_induction hstep (later duel.clock.now elapsed) (stepsAhead duel.clock) h
    have hwaited := hstep hfired (.wait (later duel.clock.now elapsed))
    rw [List.append_assoc] at hwaited
    exact hwaited
  | fastForward =>
    have hfired := firings_induction hstep lastMoment 1 h
    rw [← fastForwardBy_eq_fireDue] at hfired
    exact hfired
  | runUntilIdle =>
    have hfired := firings_induction hstep lastMoment (stepsAhead duel.clock) h
    rw [← fastForwardBy_eq_fireDue] at hfired
    exact hfired

/-- What each move keeps along the moments so far is kept by a run. -/
theorem passed_induction
    (hstep : ∀ {visited : List (Duel χ η δ)} {duel next : Duel χ η δ},
      P visited duel → Move duel next → P (visited ++ [next]) next)
    {visited : List (Duel χ η δ)} {duel : Duel χ η δ} (h : P visited duel)
    (calls : List HostCall) : P (visited ++ duel.passed calls) (duel.after calls) := by
  induction calls generalizing visited duel with
  | nil => exact (List.append_nil visited).symm ▸ h
  | cons call calls ih =>
    have hcall := ih (moments_induction hstep h call)
    rw [List.append_assoc] at hcall
    exact hcall

end Induction

/-- The moments of a run lead by single moves from its beginning to its end. -/
theorem isChain_trace (start : Duel χ η δ) (calls : List HostCall) :
    (start.trace calls).IsChain Move ∧ (start.trace calls).getLast? = some (start.after calls) := by
  refine passed_induction (P := fun visited duel =>
    visited.IsChain Move ∧ visited.getLast? = some duel) ?_ ⟨.singleton start, rfl⟩ calls
  rintro visited duel next ⟨hchain, hlast⟩ hmove
  refine ⟨List.isChain_append.mpr ⟨hchain, .singleton next, ?_⟩, List.getLast?_concat⟩
  intro last hmem first hfirst
  rw [hlast] at hmem
  cases hmem
  cases hfirst
  exact hmove

variable {settings : Settings} {hooks : χ} {handler : η} {dice : δ}

/-- What holds at the start of a duel that has only waited, and is kept whenever a turn is carried
on, holds of the moments of every run of a duel that has started. -/
theorem trace_induction {P : List (Duel χ η δ) → Stage → Duel χ η δ → Prop}
    (hbegun : ∀ {visited : List (Duel χ η δ)} {now : UInt64},
      waited settings hooks handler dice now ∈ visited → ∀ roster,
        let begun := (waited settings hooks handler dice now).begun roster
        P (visited ++ [begun]) (.opening settings.opener) begun)
    (hcontinues : ∀ {visited : List (Duel χ η δ)} {duel next : Duel χ η δ} {stage : Stage},
      duel ∈ visited → duel.IsAt stage → P visited stage duel → Continues duel stage next →
        ∃ following, next.IsAt following ∧ P (visited ++ [next]) following next)
    (calls : List HostCall) :
    let start := new settings hooks handler dice
    let duel := start.after calls
    (∃ now, duel = waited settings hooks handler dice now) ∨
      ∃ stage, duel.IsAt stage ∧ P (start.trace calls) stage duel := by
  intro start duel
  let Q (visited : List (Duel χ η δ)) (duel : Duel χ η δ) : Prop :=
    duel ∈ visited ∧ ((∃ now, duel = waited settings hooks handler dice now) ∨
      ∃ stage, duel.IsAt stage ∧ P visited stage duel)
  have hstep : ∀ {visited : List (Duel χ η δ)} {duel next : Duel χ η δ},
      Q visited duel → Move duel next → Q (visited ++ [next]) next := by
    intro visited duel next hQ hmove
    refine ⟨List.mem_concat_self, ?_⟩
    obtain ⟨hmem, ⟨now, rfl⟩ | ⟨stage, hat, hP⟩⟩ := hQ
    · rcases hmove.of_waited with ⟨time, rfl⟩ | ⟨roster, rfl⟩
      · exact .inl ⟨time, rfl⟩
      · exact .inr ⟨_, isAt_begun now roster, hbegun hmem roster⟩
    · exact .inr (hcontinues hmem hat hP (hat.continues hmove))
  have hstart : Q [start] start := ⟨List.mem_singleton_self start, .inl ⟨0, rfl⟩⟩
  exact (passed_induction (P := Q) hstep hstart calls).2

end DiceDuel.Duel
