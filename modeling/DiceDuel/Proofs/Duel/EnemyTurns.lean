import DiceDuel.Proofs.Duel.Ledger
import DiceDuel.Proofs.Duel.Moments
import DiceDuel.Proofs.Duel.Noted

/-!
# The enemy's turns

The enemy has no choice: its turn rolls a die and casts the code of the face. The code waits on the
clock between the two, so that what is cast is the face of the same turn has to be carried along the
run. Each recorded turn of the enemy is led back here to the moment before it opened and to the
moment at which its code was shown. Between these two, all logs of the duel have gained exactly what
the byte of the roll decides: one roll, one outcome and one casting of the face's own spell.
-/

namespace DiceDuel

/-! ## The code of a face -/

/-- The face of a die is one of six. -/
theorem Die.isFace_cases {face : UInt8} (hface : Die.IsFace face) :
    face = 1 ∨ face = 2 ∨ face = 3 ∨ face = 4 ∨ face = 5 ∨ face = 6 := by
  have hlower : 1 ≤ face.toNat := UInt8.le_iff_toNat_le.mp hface.1
  have hupper : face.toNat ≤ 6 := UInt8.le_iff_toNat_le.mp hface.2
  simp only [← UInt8.toNat_inj]
  change face.toNat = 1 ∨ face.toNat = 2 ∨ face.toNat = 3 ∨ face.toNat = 4 ∨ face.toNat = 5 ∨
    face.toNat = 6
  omega

namespace Casting

/-- The code of a face has no mark. -/
theorem rollAgain_ofFace {face : UInt8} (hface : Die.IsFace face) :
    (Spell.ofCode (.ofFace face)).rollAgain = false := by
  rcases Die.isFace_cases hface with rfl | rfl | rfl | rfl | rfl | rfl <;> decide

/-- The code of a face names the base of the face. -/
theorem knownBase?_ofFace {face : UInt8} (hface : Die.IsFace face) :
    (Spell.ofCode (.ofFace face)).knownBase? = some (.dice face) := by
  rcases Die.isFace_cases hface with rfl | rfl | rfl | rfl | rfl | rfl <;> decide

/-- The arguments of a face's spell are none, however faults are treated. -/
theorem ofSpell_ofFace (strictness : Strictness) {face : UInt8} (hface : Die.IsFace face) :
    Arguments.ofSpell strictness (.dice face) (Spell.ofCode (.ofFace face)) =
      .ok ⟨{}, .diceTrigger⟩ := by
  cases strictness <;> rcases Die.isFace_cases hface with rfl | rfl | rfl | rfl | rfl | rfl <;>
    decide

/-- The outcome of casting the code of a face is always that its spell was handed over. -/
theorem castCode_ofFace {δ η : Type} [DieSource δ] [SpellHandler η] (strictness : Strictness)
    (caller : Caller) {face : UInt8} (hface : Die.IsFace face) (dice : δ) (handler : η) :
    (castCode strictness (.ofFace face) caller dice handler).1 =
      .cast (.dice face) ⟨{}, .diceTrigger⟩ none := by
  rw [castCode_of_ofSpell strictness caller (knownBase?_ofFace hface)
    (ofSpell_ofFace strictness hface), rollAgain_ofFace hface]
  rfl

/-- The code of a face draws no die. -/
theorem gateDraws_ofFace {δ : Type} [DieSource δ] {face : UInt8} (hface : Die.IsFace face)
    (dice : δ) : gateDraws (.ofFace face) dice = [] := by
  rw [gateDraws, rollAgain_ofFace hface]
  rfl

end Casting

/-! ## Logs -/

/-- What a duel with notes has written down. -/
structure Logs where
  /-- The recorded states. -/
  history : List Snapshot := []
  /-- The bytes that were drawn. -/
  rolls : List UInt8 := []
  /-- How each code went. -/
  outcomes : List Outcome := []
  /-- The castings that were handed over. -/
  castings : List Casting := []

namespace Logs

instance : Append Logs where
  append logs more :=
    ⟨logs.history ++ more.history, logs.rolls ++ more.rolls, logs.outcomes ++ more.outcomes,
      logs.castings ++ more.castings⟩

/-- Logs that go on are lists that go on. -/
theorem append_eq (logs more : Logs) : logs ++ more =
    ⟨logs.history ++ more.history, logs.rolls ++ more.rolls, logs.outcomes ++ more.outcomes,
      logs.castings ++ more.castings⟩ := rfl

/-- Logs that gain nothing stay as they are. -/
@[simp] theorem append_empty (logs : Logs) : logs ++ ({} : Logs) = logs := by
  simp only [append_eq, List.append_nil]

/-- The outcomes go on with those that are gained. -/
theorem outcomes_append (logs more : Logs) :
    (logs ++ more).outcomes = logs.outcomes ++ more.outcomes := rfl

/-- What is gained in two parts is gained one part after the other. -/
theorem append_assoc (logs more rest : Logs) : logs ++ more ++ rest = logs ++ (more ++ rest) := by
  simp only [append_eq, List.append_assoc]

/-- The entries that show a code first. -/
def shown (logs : Logs) : List Snapshot := entriesAt .animating logs.history

/-- What is shown in two parts is shown one part after the other. -/
theorem shown_append (logs more : Logs) : (logs ++ more).shown = logs.shown ++ more.shown :=
  entriesAt_append _ _ _

/-- Logs that tell of the same castings. -/
structure Balanced (logs : Logs) : Prop where
  /-- There is one outcome for each code that is shown. -/
  size : logs.outcomes.length = logs.shown.length
  /-- The castings are those that the outcomes tell of. -/
  castings : logs.castings =
    (logs.shown.zip logs.outcomes).filterMap fun entry => entry.2.casting? entry.1.caller

/-- Logs that tell of no casting are balanced. -/
theorem Balanced.of_none {logs : Logs} (hshown : logs.shown = []) (houtcomes : logs.outcomes = [])
    (hcastings : logs.castings = []) : logs.Balanced where
  size := by rw [hshown, houtcomes, List.length_nil, List.length_nil]
  castings := by rw [hshown, hcastings, List.zip_nil_left, List.filterMap_nil]

/-- Balanced logs that gain balanced ones are balanced. -/
theorem Balanced.append {logs more : Logs} (h : logs.Balanced) (hmore : more.Balanced) :
    (logs ++ more).Balanced where
  size := by
    rw [shown_append, List.length_append, ← h.size, ← hmore.size]
    exact List.length_append
  castings := by
    rw [shown_append, append_eq, List.zip_append h.size.symm, List.filterMap_append, ← h.castings,
      ← hmore.castings]

/-- What a code that is cast writes down, with the draws for its gate and its outcome. -/
def ofCast (entry : Snapshot) (rolls : List UInt8) (outcome : Outcome) : Logs where
  history := [entry]
  rolls := rolls
  outcomes := [outcome]
  castings := (outcome.casting? entry.caller).toList

/-- A code that is cast is shown once. -/
theorem shown_ofCast {entry : Snapshot} (hphase : entry.phase = .animating) (rolls : List UInt8)
    (outcome : Outcome) : (ofCast entry rolls outcome).shown = [entry] :=
  entriesAt_append_of_eq [] hphase

/-- A code that is cast has one outcome and the casting that it tells of. -/
theorem Balanced.ofCast {entry : Snapshot} (hphase : entry.phase = .animating) (rolls : List UInt8)
    (outcome : Outcome) : (ofCast entry rolls outcome).Balanced where
  size := by
    rw [shown_ofCast hphase]
    rfl
  castings := by
    rw [shown_ofCast hphase]
    change (outcome.casting? entry.caller).toList =
      [(entry, outcome)].filterMap fun entry => entry.2.casting? entry.1.caller
    rw [List.filterMap_cons, List.filterMap_nil]
    cases outcome.casting? entry.caller <;> rfl

/-- What the opening of a side's turn writes down. -/
def opened (side : Side) (turn : UInt32) : Logs where
  history :=
    match side with
    | .player => [Stage.ready.snapshot .player turn]
    | .enemy => [Stage.ready.snapshot .enemy turn, Stage.rolling.snapshot .enemy turn]

/-- What the enemy's turn writes down until its face shows, when a byte was drawn. -/
def enemyOffered (turn : UInt32) (roll : UInt8) : Logs where
  history := [.ready, .rolling, .offered (Die.clamp roll)].map (Stage.snapshot .enemy turn)
  rolls := [roll]

/-- What the enemy's turn writes down until its code shows, when a byte was drawn. -/
def enemyShown (turn : UInt32) (roll : UInt8) : Logs :=
  let face := Die.clamp roll
  { history := [.ready, .rolling, .offered face, .showing face (.ofFace face) none].map
      (Stage.snapshot .enemy turn)
    rolls := [roll]
    outcomes := [.cast (.dice face) ⟨{}, .diceTrigger⟩ none]
    castings := [⟨.dice face, ⟨{}, .diceTrigger⟩, ⟨.enemy, some face⟩⟩] }

end Logs

namespace Duel

variable {χ η δ : Type}

/-- What a noted duel has written down. -/
def logs (duel : NotedDuel χ η δ) : Logs where
  history := duel.history
  rolls := duel.dice.given
  outcomes := duel.outcomes
  castings := duel.handler.castings

section Transitions

variable [Hooks χ] (duel : NotedDuel χ η δ)

/-- A state that is recorded is all that is written down of it. -/
theorem logs_commit (snapshot : Snapshot) :
    (duel.commit snapshot).logs = duel.logs ++ { history := [snapshot] } := by
  simp only [logs, commit, Logs.append_eq, List.append_nil]

/-- The opening of a turn writes down its states. -/
theorem logs_openTurn (side : Side) :
    (duel.openTurn side).logs = duel.logs ++ .opened side (duel.current.turn + 1) := by
  cases side with
  | player => exact logs_commit duel _
  | enemy =>
    let ready := duel.commit (Stage.ready.snapshot .enemy (duel.current.turn + 1))
    have hready : ready.logs = duel.logs ++ { history := [ready.current] } := logs_commit duel _
    have hrolling : (duel.openTurn .enemy).logs = ready.logs ++
        { history := [Stage.rolling.snapshot .enemy (duel.current.turn + 1)] } :=
      logs_commit { ready with hooks := Hooks.startTurn ready.hooks .enemy } _
    rw [hrolling, hready, Logs.append_assoc]
    rfl

/-- A reveal writes down the byte that is drawn and the state that shows its face. -/
theorem logs_reveal [DieSource δ] :
    duel.reveal.logs = duel.logs ++
      { history := [duel.revealed.current], rolls := [(DieSource.roll duel.dice.dice).1] } := by
  have hrevealed : duel.revealed.logs = duel.logs ++
      { history := [duel.revealed.current], rolls := [(DieSource.roll duel.dice.dice).1] } := by
    simp only [logs, Logs.append_eq, List.append_nil]
    rfl
  rw [← hrevealed]
  cases hside : duel.current.side with
  | player => rw [reveal_of_player duel hside]
  | enemy =>
    rw [reveal_of_enemy duel hside]
    rfl

/-- A code that is cast writes down its state, the draw of its gate, its outcome and its casting. -/
theorem logs_cast [SpellHandler η] [DieSource δ] (code : Code) :
    (duel.cast code).logs = duel.logs ++
      .ofCast { duel.current with phase := .animating, offered := some code, shown := some code }
        (Casting.gateDraws code duel.dice.dice)
        (Casting.castCode duel.settings.strictness code ⟨duel.current.side, duel.current.roll⟩
          duel.dice.dice duel.handler.handler).1 := by
  rw [cast_eq_castWith, Casting.castCode_noted, Casting.castCode_notedHandler]
  rfl

/-- The end of an animation writes down nothing, or the state of a turn that can be closed. -/
theorem Settles.logs {next : NotedDuel χ η δ}
    (hsettles : Settles duel next) :
    next.logs = duel.logs ∨
      next.logs = duel.logs ++ { history := [{ duel.current with phase := .closing }] } := by
  cases hsettles with
  | death dead => exact .inl rfl
  | lateDeath alive dead => exact .inl rfl
  | noDeath alive still => exact .inr (logs_commit _ _)

end Transitions

/-! ## Turns that are led back -/

/-- A shown code of the enemy, led back to the moment before its turn opened and to the moment at
which it was shown, with the byte that was drawn between the two. -/
structure LedBack (visited : List (NotedDuel χ η δ)) (logs : Logs) (k : Nat) (entry : Snapshot)
    (before shown : NotedDuel χ η δ) (roll : UInt8) : Prop where
  /-- The two moments were passed in this order. -/
  order : [before, shown].Sublist visited
  /-- As many codes were shown before. -/
  place : before.logs.shown.length = k
  /-- Each of them had an outcome. -/
  size : before.logs.outcomes.length = k
  /-- Between the two moments the logs have gained the enemy's turn. -/
  gained : shown.logs = before.logs ++ .enemyShown entry.turn roll
  /-- Nothing of it was taken back. -/
  kept : ∃ more, logs = shown.logs ++ more

section LedBack

variable {visited : List (NotedDuel χ η δ)} {logs : Logs} {k : Nat} {entry : Snapshot}
  {before shown : NotedDuel χ η δ} {roll : UInt8}

/-- What is led back stays so when the run goes on. -/
theorem LedBack.append (h : LedBack visited logs k entry before shown roll)
    (next : NotedDuel χ η δ) (more : Logs) :
    LedBack (visited ++ [next]) (logs ++ more) k entry before shown roll where
  order := h.order.trans (List.sublist_append_left _ _)
  place := h.place
  size := h.size
  gained := h.gained
  kept := by
    obtain ⟨between, hbetween⟩ := h.kept
    exact ⟨between ++ more, by rw [hbetween, Logs.append_assoc]⟩

/-- The entry at a place of a log that has gained a turn there is the one that shows its code, and
the outcome at this place is that of its casting. -/
theorem LedBack.entry_eq (h : LedBack visited logs k entry before shown roll) :
    logs.shown[k]? = some ((Stage.showing (Die.clamp roll) (.ofFace (Die.clamp roll)) none).snapshot
        .enemy entry.turn) ∧
      logs.outcomes[k]? = some (.cast (.dice (Die.clamp roll)) ⟨{}, .diceTrigger⟩ none) := by
  obtain ⟨more, hmore⟩ := h.kept
  rw [hmore, h.gained, Logs.append_assoc]
  constructor
  · rw [Logs.shown_append, Logs.shown_append, ← h.place, List.getElem?_append_right (Nat.le_refl _),
      Nat.sub_self]
    rfl
  · rw [Logs.outcomes_append, ← h.size, List.getElem?_append_right (Nat.le_refl _), Nat.sub_self]
    rfl

end LedBack

/-- A duel whose castings can be told from its logs, and the enemy's from the moments passed. -/
structure Traced (visited : List (NotedDuel χ η δ)) (duel : NotedDuel χ η δ) : Prop where
  /-- The logs tell of the same castings. -/
  balanced : duel.logs.Balanced
  /-- Each code that the enemy has shown can be led back. -/
  ledBack : ∀ k entry, duel.logs.shown[k]? = some entry → entry.side = .enemy →
    ∃ before shown roll, LedBack visited duel.logs k entry before shown roll

/-- What the enemy's turn that is under way at a stage has written down since it opened. -/
def Underway (visited : List (NotedDuel χ η δ)) (duel : NotedDuel χ η δ) : Stage → Prop
  | .rolling => duel.current.side = .enemy → ∃ before ∈ visited,
      duel.logs = before.logs ++ .opened .enemy duel.current.turn
  | .offered face => duel.current.side = .enemy → ∃ before ∈ visited, ∃ roll,
      Die.clamp roll = face ∧ duel.logs = before.logs ++ .enemyOffered duel.current.turn roll
  | .ready | .showing .. | .closing .. => True

section Steps

variable {visited : List (NotedDuel χ η δ)} {duel next : NotedDuel χ η δ} {stage : Stage}

/-- While nothing is written down there is nothing to lead back. -/
theorem Traced.of_empty (hlogs : duel.logs = {}) : Traced visited duel where
  balanced := by
    rw [hlogs]
    exact .of_none rfl rfl rfl
  ledBack := by
    intro k entry hentry
    rw [hlogs] at hentry
    cases hentry

/-- Castings can be told from logs that gain balanced ones, if this is so of the gain. -/
theorem Traced.append (h : Traced visited duel) {more : Logs}
    (hlogs : next.logs = duel.logs ++ more) (hmore : more.Balanced)
    (hnew : ∀ i entry, more.shown[i]? = some entry → entry.side = .enemy →
      ∃ before shown roll,
        LedBack (visited ++ [next]) next.logs (duel.logs.shown.length + i) entry before shown
          roll) :
    Traced (visited ++ [next]) next where
  balanced := by
    rw [hlogs]
    exact h.balanced.append hmore
  ledBack := by
    intro k entry hentry hside
    rw [hlogs, Logs.shown_append] at hentry
    by_cases hearlier : k < duel.logs.shown.length
    · rw [List.getElem?_append_left hearlier] at hentry
      obtain ⟨before, shown, roll, hback⟩ := h.ledBack k entry hentry hside
      rw [hlogs]
      exact ⟨before, shown, roll, hback.append next more⟩
    · have hlater : duel.logs.shown.length ≤ k := Nat.le_of_not_lt hearlier
      rw [List.getElem?_append_right hlater] at hentry
      obtain ⟨before, shown, roll, hback⟩ := hnew _ entry hentry hside
      rw [Nat.add_sub_cancel' hlater] at hback
      exact ⟨before, shown, roll, hback⟩

/-- Logs that gain no casting tell of the same castings as before. -/
theorem Traced.append_of_none (h : Traced visited duel) {more : Logs}
    (hlogs : next.logs = duel.logs ++ more) (hshown : more.shown = [])
    (houtcomes : more.outcomes = []) (hcastings : more.castings = []) :
    Traced (visited ++ [next]) next := by
  refine h.append hlogs (.of_none hshown houtcomes hcastings) fun i entry hentry => ?_
  rw [hshown] at hentry
  cases hentry

/-- Castings can be told from logs that gain one, if one of the enemy's can be led back. -/
theorem Traced.append_ofCast (h : Traced visited duel) {entry : Snapshot} {rolls : List UInt8}
    {outcome : Outcome} (hlogs : next.logs = duel.logs ++ .ofCast entry rolls outcome)
    (hphase : entry.phase = .animating)
    (hnew : entry.side = .enemy → ∃ before shown roll,
      LedBack (visited ++ [next]) next.logs duel.logs.shown.length entry before shown roll) :
    Traced (visited ++ [next]) next := by
  refine h.append hlogs (.ofCast hphase rolls outcome) fun i other hother henemy => ?_
  rw [Logs.shown_ofCast hphase, List.getElem?_singleton, Option.ite_none_right_eq_some] at hother
  obtain ⟨rfl, hentry⟩ := hother
  cases hentry
  exact hnew henemy

/-- A change that writes down nothing leaves all turns as they were. -/
theorem Traced.same (h : Traced visited duel) (hlogs : next.logs = duel.logs) :
    Traced (visited ++ [next]) next :=
  h.append_of_none (hlogs.trans (Logs.append_empty _).symm) rfl rfl rfl

/-- A turn that is under way is so after a wait. -/
theorem Underway.wait (h : Underway visited duel stage) (clock : Clock) :
    Underway (visited ++ [{ duel with clock }]) { duel with clock } stage := by
  cases stage with
  | rolling =>
    intro hside
    obtain ⟨before, hmem, hlogs⟩ := h hside
    exact ⟨before, List.mem_append_left _ hmem, hlogs⟩
  | offered face =>
    intro hside
    obtain ⟨before, hmem, hroll⟩ := h hside
    exact ⟨before, List.mem_append_left _ hmem, hroll⟩
  | ready => trivial
  | showing face code ending => trivial
  | closing face code => trivial

variable [Hooks χ]

/-- A turn that opens has written down its opening. -/
theorem traced_openTurn (h : Traced visited duel) {before : NotedDuel χ η δ}
    (hmem : before ∈ visited) (hlogs : duel.logs = before.logs) (side : Side) :
    Traced (visited ++ [duel.openTurn side]) (duel.openTurn side) ∧
      Underway (visited ++ [duel.openTurn side]) (duel.openTurn side) (.opening side) := by
  have hopened := logs_openTurn duel side
  refine ⟨h.append_of_none hopened (by cases side <;> rfl) rfl rfl, ?_⟩
  cases side with
  | player => trivial
  | enemy =>
    intro _
    refine ⟨before, List.mem_append_left _ hmem, ?_⟩
    rw [hopened, hlogs]
    rfl

/-- A face that shows has written down the byte that it is made of. -/
theorem traced_reveal [DieSource δ] (h : Traced visited duel) (hat : duel.IsAt .rolling)
    (hunderway : Underway visited duel .rolling) (clock : Clock) :
    let revealed := { duel with clock }.reveal
    Traced (visited ++ [revealed]) revealed ∧
      Underway (visited ++ [revealed]) revealed (.offered duel.nextFace) := by
  intro revealed
  have hlogs : revealed.logs = duel.logs ++
      { history := [duel.revealed.current], rolls := [(DieSource.roll duel.dice.dice).1] } :=
    logs_reveal { duel with clock }
  have hcurrent : revealed.current = duel.revealed.current := current_reveal { duel with clock }
  refine ⟨h.append_of_none hlogs rfl rfl rfl, ?_⟩
  intro hside
  rw [hcurrent] at hside
  obtain ⟨before, hmem, hopened⟩ := hunderway hside
  refine ⟨before, List.mem_append_left _ hmem, (DieSource.roll duel.dice.dice).1, rfl, ?_⟩
  have hshows := hat.current_revealed
  rw [show duel.current.side = .enemy from hside] at hshows
  rw [hlogs, hopened, hcurrent, hshows, Logs.append_assoc]
  rfl

variable [SpellHandler η] [DieSource δ]

/-- A code of the player is no turn of the enemy. -/
theorem traced_cast (h : Traced visited duel) (hside : duel.current.side = .player) (code : Code) :
    Traced (visited ++ [duel.cast code]) (duel.cast code) :=
  h.append_ofCast (logs_cast duel code) rfl fun henemy => nomatch henemy.symm.trans hside

/-- The enemy's code of a face completes what its turn writes down, and casting it draws no die. -/
theorem logs_castOffer {roll : UInt8} (hat : duel.IsAt (.offered (Die.clamp roll)))
    (hside : duel.current.side = .enemy) {before : NotedDuel χ η δ}
    (hlogs : duel.logs = before.logs ++ .enemyOffered duel.current.turn roll) (clock : Clock) :
    ({ duel with clock }.cast (.ofFace (Die.clamp roll))).logs =
      before.logs ++ .enemyShown duel.current.turn roll := by
  have hface : Die.IsFace (Die.clamp roll) := Die.isFace_clamp roll
  have hcast := logs_cast { duel with clock } (.ofFace (Die.clamp roll))
  have hsame : ({ duel with clock } : NotedDuel χ η δ).logs =
      before.logs ++ .enemyOffered duel.current.turn roll := hlogs
  have hcurrent := hat.current
  rw [hside] at hcurrent
  rw [Casting.gateDraws_ofFace hface, Casting.castCode_ofFace _ _ hface, hsame,
    Logs.append_assoc] at hcast
  dsimp only at hcast
  rw [hcast, hcurrent]
  rfl

/-- The code that the enemy casts is led back to the opening of its turn. -/
theorem traced_castOffer {face : UInt8} (h : Traced visited duel) (hat : duel.IsAt (.offered face))
    (hunderway : Underway visited duel (.offered face)) (hside : duel.current.side = .enemy)
    (clock : Clock) :
    let cast := { duel with clock }.cast (.ofFace face)
    Traced (visited ++ [cast]) cast := by
  intro cast
  obtain ⟨before, hmem, roll, rfl, hoffered⟩ := hunderway hside
  -- until its face shows the turn has neither shown a code nor noted an outcome
  have hshown : before.logs.shown = duel.logs.shown := by
    rw [hoffered, Logs.shown_append]
    exact (List.append_nil _).symm
  have houtcomes : before.logs.outcomes = duel.logs.outcomes := by
    rw [hoffered, Logs.outcomes_append]
    exact (List.append_nil _).symm
  refine h.append_ofCast (logs_cast { duel with clock } _) rfl fun _ => ?_
  refine ⟨before, cast, roll, ?_, congrArg List.length hshown, ?_,
    logs_castOffer hat hside hoffered clock, {}, (Logs.append_empty _).symm⟩
  · exact List.Sublist.append (List.singleton_sublist.mpr hmem) (List.Sublist.refl [cast])
  · rw [houtcomes, h.balanced.size]

/-- Whatever carries a turn on, the enemy's turns can still be led back. -/
theorem traced_continues (hmem : duel ∈ visited) (hat : duel.IsAt stage)
    (h : Traced visited duel ∧ Underway visited duel stage)
    (hcontinues : Continues duel stage next) :
    ∃ following, next.IsAt following ∧
      Traced (visited ++ [next]) next ∧ Underway (visited ++ [next]) next following := by
  obtain ⟨htraced, hunderway⟩ := h
  cases hcontinues with
  | wait time =>
    exact ⟨stage, ⟨hat.started, hat.current, hat.pending, hat.ending, hat.fits⟩, htraced.same rfl,
      hunderway.wait _⟩
  | roll =>
    refine ⟨_, isAt_startRoll hat.started hat.current hat.ending,
      htraced.append_of_none (logs_commit duel _) ?_ rfl rfl, fun hside => ?_⟩
    · rw [hat.current]
      rfl
    · cases hside.symm.trans hat.fits
  | @reveal clock taken =>
    exact ⟨_, isAt_reveal hat (Clock.pending_of_takeNow? taken),
      traced_reveal htraced hat hunderway clock⟩
  | cast side code =>
    refine ⟨_, isAt_cast hat duel.clock fun henemy => ?_, traced_cast htraced side code, trivial⟩
    cases henemy.symm.trans side
  | @castOffer face clock side taken =>
    exact ⟨_, isAt_cast hat clock fun _ => rfl, traced_castOffer htraced hat hunderway side clock,
      trivial⟩
  | @settle face code clock next taken settles =>
    have hsettled : Traced (visited ++ [next]) next := by
      rcases settles.logs with hsame | hclosing
      · exact htraced.same hsame
      · exact htraced.append_of_none hclosing rfl rfl rfl
    rcases settles.isAt (Clock.pending_of_takeNow? taken) hat with hclosing | ⟨ending, hended⟩
    · exact ⟨_, hclosing, hsettled, trivial⟩
    · exact ⟨_, hended, hsettled, trivial⟩
  | close =>
    exact ⟨_, isAt_openTurn _ hat.started (hat.idle rfl) hat.ending,
      traced_openTurn htraced hmem rfl _⟩

end Steps

section Runs

variable [Hooks χ] [SpellHandler η] [DieSource δ] (settings : Settings) (hooks : χ) (handler : η)
  (dice : δ)

/-- After any calls the enemy's turns can be led back to the moments of the run. -/
theorem traced_after_calls (calls : List HostCall) :
    let start := noted settings hooks handler dice
    Traced (start.trace calls) (start.after calls) := by
  intro start
  have hbegun {visited : List (NotedDuel χ η δ)} {now : UInt64}
      (hmem : waited settings ⟨hooks, []⟩ ⟨handler, []⟩ ⟨dice, []⟩ now ∈ visited)
      (roster : Roster) :
      let begun := (waited settings ⟨hooks, []⟩ ⟨handler, []⟩ ⟨dice, []⟩ now).begun roster
      Traced (visited ++ [begun]) begun ∧
        Underway (visited ++ [begun]) begun (.opening settings.opener) := by
    let told : NotedDuel χ η δ :=
      { noted settings hooks handler dice with
        clock := { now }
        started := true
        hooks := Hooks.startBattle (noted settings hooks handler dice).hooks roster }
    have htold : Traced visited told := .of_empty rfl
    exact traced_openTurn htold hmem rfl settings.opener
  rcases trace_induction hbegun traced_continues calls with ⟨now, hnow⟩ | ⟨stage, -, htraced, -⟩
  · have hduel : start.after calls = _ := hnow
    rw [hduel]
    exact .of_empty rfl
  · exact htraced

/-- An enemy's turn always casts its own die. In every run the outcomes and the castings are those
of the codes that were shown. A code that the enemy has shown is that of the face of its turn, which
is one of the die's whatever byte was drawn; its outcome is that the face's own spell was handed
over, without a gate and however faults are treated. From a moment before the turn opened to the
moment at which the code was shown, the duel has recorded four states of this turn, drawn one byte,
noted this outcome and handed over one casting, for the enemy and its face, and nothing else. -/
theorem enemy_turns_after_calls (calls : List HostCall) :
    let start := noted settings hooks handler dice
    let duel := start.after calls
    let shown := entriesAt .animating duel.history
    duel.plain = (new settings hooks handler dice).after calls ∧
      duel.outcomes.length = shown.length ∧
      duel.handler.castings = (shown.zip duel.outcomes).filterMap
        (fun entry => entry.2.casting? ⟨entry.1.side, entry.1.roll⟩) ∧
      ∀ k entry, shown[k]? = some entry → entry.side = .enemy →
        ∃ roll face, Die.clamp roll = face ∧ Die.IsFace face ∧ entry.roll = some face ∧
          entry.shown = some (.ofFace face) ∧
          duel.outcomes[k]? = some (.cast (.dice face) ⟨{}, .diceTrigger⟩ none) ∧
          ∃ before cast, [before, cast].Sublist (start.trace calls) ∧
            cast.logs = before.logs ++ .enemyShown entry.turn roll ∧
            (entriesAt .animating before.history).length = k ∧
            before.outcomes.length = k ∧
            ∃ more, duel.logs = cast.logs ++ more := by
  intro start duel shown
  have htraced : Traced (start.trace calls) duel :=
    traced_after_calls settings hooks handler dice calls
  refine ⟨plain_after_noted settings hooks handler dice calls, htraced.balanced.size,
    htraced.balanced.castings, ?_⟩
  intro k entry hentry hside
  obtain ⟨before, cast, roll, hback⟩ := htraced.ledBack k entry hentry hside
  obtain ⟨hshown, houtcome⟩ := hback.entry_eq
  have hsame : entry = _ := Option.some.inj (hentry.symm.trans hshown)
  refine ⟨roll, Die.clamp roll, rfl, Die.isFace_clamp roll, ?_, ?_, houtcome, before, cast,
    hback.order, hback.gained, hback.place, hback.size, hback.kept⟩
  · rw [hsame]
    rfl
  · rw [hsame]
    rfl

/-- An enemy's turn with a byte that is no face, while faults are not allowed. -/
example :
    let duel := (noted { opener := .enemy, strictness := .strict } ({} : Recorder) Journal.empty
      (ScriptedDice.ofRolls [200])).after [.start {}, .runUntilIdle]
    duel.dice.given = [200] ∧ duel.outcomes = [.cast (.dice 6) ⟨{}, .diceTrigger⟩ none] ∧
      duel.handler.castings = [⟨.dice 6, ⟨{}, .diceTrigger⟩, ⟨.enemy, some 6⟩⟩] := by
  decide

end Runs

end Duel

end DiceDuel
