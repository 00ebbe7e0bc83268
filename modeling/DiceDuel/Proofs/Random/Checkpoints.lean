import DiceDuel.Random.Choice

/-!
# Checkpoints of the random source

A generator is where it stands: at a position in the stream of the seed that it records. Twins stand
at one place. They draw the same and stay twins, with whatever else their readers carry along, and
what a checkpoint restores is a twin of the generator that wrote the checkpoint down. So to replace
a generator by what its own checkpoint restores, at any time, cannot be noticed.
-/

namespace DiceDuel

namespace Generator

variable {ρ : Type} [WordReader ρ]

/-- A generator stands at a position in the stream of the seed that it records. -/
def Stands (g : Generator ρ) (position : BitVec 68) : Prop :=
  WordReader.Stands g.stream g.seed position

/-- Two generators record one seed and stand at one position in its stream. -/
structure Twins (g other : Generator ρ) : Prop where
  /-- They record one seed. -/
  seed : g.seed = other.seed
  /-- They stand together. -/
  together : ∃ position, g.Stands position ∧ other.Stands position

/-- Draws that show the same from twins and leave twins. -/
def Steady {α : Type} (draw : Generator ρ → α × Generator ρ) : Prop :=
  ∀ g other : Generator ρ, Twins g other →
    (draw g).1 = (draw other).1 ∧ Twins (draw g).2 (draw other).2

/-! ## Draws are steady -/

section Draws

variable {α β : Type}

/-- To give a value without a draw is steady. -/
theorem Steady.pure (value : α) : Steady fun g : Generator ρ => (value, g) :=
  fun _ _ htwins => ⟨rfl, htwins⟩

/-- One steady draw after another is steady, also if the second hangs on what the first showed. -/
theorem Steady.bind {draw : Generator ρ → α × Generator ρ}
    {rest : α → Generator ρ → β × Generator ρ} (hdraw : Steady draw)
    (hrest : ∀ value, Steady (rest value)) : Steady fun g => rest (draw g).1 (draw g).2 := by
  intro g other htwins
  obtain ⟨hsame, hafter⟩ := hdraw g other htwins
  dsimp only
  rw [hsame]
  exact hrest _ _ _ hafter

/-- What is made of a steady draw is steady. -/
theorem Steady.making {draw : Generator ρ → α × Generator ρ} (hdraw : Steady draw) (make : α → β) :
    Steady fun g => g.making draw make :=
  hdraw.bind fun value => Steady.pure (make value)

/-- Steady draws that are repeated until one is accepted are steady. -/
theorem steady_drawUntil {draw : Generator ρ → α × Generator ρ} (hdraw : Steady draw)
    (accept : α → Bool) (tries : Nat) : Steady (drawUntil draw accept tries) := by
  induction tries with
  | zero => exact hdraw
  | succ tries ih =>
    let rest (value : α) (next : Generator ρ) : α × Generator ρ :=
      if accept value then (value, next) else drawUntil draw accept tries next
    have hrest (value : α) : Steady (rest value) := by
      unfold rest
      split
      · exact Steady.pure value
      · exact ih
    exact hdraw.bind hrest

variable (ρ) [LawfulWordReader ρ]

/-- A word is steady. -/
theorem steady_word : Steady (word : Generator ρ → UInt32 × Generator ρ) := by
  rintro g other ⟨hseed, position, hhere, hthere⟩
  rw [Stands, ← hseed] at hthere
  refine ⟨LawfulWordReader.next_eq hhere hthere, hseed, position + 1, hhere.next, ?_⟩
  rw [Stands, word, ← hseed]
  exact hthere.next

/-- Two words are steady. -/
theorem steady_long : Steady (long : Generator ρ → UInt64 × Generator ρ) :=
  (steady_word ρ).bind fun low => (steady_word ρ).bind fun high =>
    Steady.pure (low.toUInt64 ||| (high.toUInt64 <<< 32))

/-- A face is steady, whatever words are refused. -/
theorem steady_face : Steady (face : Generator ρ → UInt8 × Generator ρ) := by
  unfold face
  exact (steady_drawUntil (steady_word ρ) _ _).making _

/-- A whole number is steady, whatever words are refused. -/
theorem steady_below (span : Nat) : Steady (below span : Generator ρ → Nat × Generator ρ) := by
  unfold below
  exact (steady_drawUntil (steady_long ρ) _ _).making _

/-- An integer is steady, also where the bounds are refused. -/
theorem steady_int (low high : Int64) :
    Steady (int low high : Generator ρ → Except RangeFault Int64 × Generator ρ) := by
  unfold int
  split
  · exact Steady.pure _
  · split
    · exact (steady_long ρ).making _
    · exact (steady_below ρ _).making _

/-- A share of a distance is steady. -/
theorem steady_between (low high : Binary64) :
    Steady (between low high : Generator ρ → Binary64 × Generator ρ) := by
  have hshare : Steady (coarseUnit : Generator ρ → Binary64 × Generator ρ) :=
    (steady_long ρ).making _
  exact hshare.making _

/-- A number between bounds is steady, also where the bounds are equal or refused. -/
theorem steady_float (low high : Binary64) :
    Steady (float low high : Generator ρ → Except RangeFault Binary64 × Generator ρ) := by
  unfold float
  split
  · exact Steady.pure _
  · split
    · exact Steady.pure _
    · split
      · exact Steady.pure _
      · exact (steady_drawUntil (steady_between ρ low high) _ _).making _

/-- A number from zero to one is steady. -/
theorem steady_unit : Steady (unit : Generator ρ → Binary64 × Generator ρ) :=
  (steady_long ρ).making _

/-- A chance is steady, also where the probability is refused. -/
theorem steady_chance (p : Binary64) :
    Steady (chance p : Generator ρ → Except RangeFault Bool × Generator ρ) := by
  unfold chance
  split
  · exact (steady_unit ρ).making _
  · exact Steady.pure _

/-- A key is steady, also where the table is refused. -/
theorem steady_key (table : List (α × Binary64)) :
    Steady (key table : Generator ρ → Except WeightFault α × Generator ρ) := by
  unfold key
  split
  · exact Steady.pure _
  · exact (steady_unit ρ).making _

end Draws

/-! ## Twins -/

namespace Twins

variable {g other : Generator ρ}

/-- Twins are each other's twins. -/
theorem symm (h : Twins g other) : Twins other g := by
  obtain ⟨hseed, position, hhere, hthere⟩ := h
  exact ⟨hseed.symm, position, hthere, hhere⟩

/-- Whoever stands somewhere is its own twin. -/
theorem refl {position : BitVec 68} (h : g.Stands position) : Twins g g := ⟨rfl, position, h, h⟩

/-- Readers that are nothing but a key and a position make twins equal. -/
theorem eq {g other : Generator} (h : Twins g other) : g = other := by
  obtain ⟨hseed, position, hhere, hthere⟩ := h
  have hstream : g.stream = other.stream := by
    rw [Keystream.Reader.eq_of_stands hhere, Keystream.Reader.eq_of_stands hthere, hseed]
  cases g
  cases other
  simp only at hstream hseed
  rw [hstream, hseed]

variable [LawfulWordReader ρ]

/-- Twins write down the same checkpoint. -/
theorem checkpoint_eq (h : Twins g other) : g.checkpoint = other.checkpoint := by
  obtain ⟨hseed, position, hhere, hthere⟩ := h
  rw [checkpoint, checkpoint, LawfulWordReader.position_eq hhere,
    LawfulWordReader.position_eq hthere, hseed]

end Twins

section Checkpoints

variable (ρ) in
/-- At the start of a seed's stream a generator stands at its first word. -/
theorem stands_ofSeed (seed : UInt64) : (ofSeed seed : Generator ρ).Stands 0 := .ofSeed seed

variable (ρ) in
/-- What a checkpoint restores stands at its position, as far as that counts. -/
theorem stands_ofCheckpoint (c : Checkpoint) :
    (ofCheckpoint c : Generator ρ).Stands (c.position.setWidth 68) := .seek c.position (.ofSeed c.seed)

variable [LawfulWordReader ρ]

/-- What a checkpoint of a generator restores is a twin of the generator's twins. -/
theorem Twins.restored {g other : Generator ρ} (h : Twins g other) :
    Twins (ofCheckpoint g.checkpoint) other := by
  obtain ⟨hseed, position, hhere, hthere⟩ := h
  have hposition : (position.setWidth 128).setWidth 68 = position :=
    BitVec.setWidth_setWidth_of_le position (by decide)
  have hrestored := stands_ofCheckpoint ρ g.checkpoint
  rw [checkpoint, LawfulWordReader.position_eq hhere, hposition] at hrestored
  refine ⟨hseed, position, ?_, hthere⟩
  rw [checkpoint, LawfulWordReader.position_eq hhere]
  exact hrestored

variable (ρ) in
/-- The checkpoint of what a checkpoint restores has the position as far as it counts. -/
theorem toNat_position_ofCheckpoint (c : Checkpoint) :
    (ofCheckpoint c : Generator ρ).checkpoint.position.toNat = c.position.toNat % positions := by
  have hshort : c.position.toNat % positions < 2 ^ 128 :=
    Nat.lt_of_lt_of_le (Nat.mod_lt _ (Nat.two_pow_pos 68))
      (Nat.pow_le_pow_right (by decide) (by decide))
  rw [checkpoint, LawfulWordReader.position_eq (stands_ofCheckpoint ρ c), BitVec.toNat_setWidth,
    BitVec.toNat_setWidth]
  exact Nat.mod_eq_of_lt hshort

end Checkpoints

/-! ## Sessions -/

/-- One use of a generator. -/
inductive Use : Type 1 where
  /-- Goes over to a named stream. -/
  | name (name : String)
  /-- Draws a face of the die. -/
  | face
  /-- Draws an integer between two bounds. -/
  | int (low high : Int64)
  /-- Draws a number between two bounds. -/
  | float (low high : Binary64)
  /-- Draws true with a probability. -/
  | chance (p : Binary64)
  /-- Draws a key of a table, whatever its keys are. -/
  | key (κ : Type) (table : List (κ × Binary64))
  /-- Writes the checkpoint down. -/
  | save
  /-- Restores the checkpoint that was written down at a place. -/
  | reload (place : Nat)
  /-- Restores some checkpoint. -/
  | restore (c : Checkpoint)
  /-- Replaces the generator by what its own checkpoint restores. -/
  | refresh

/-- Whether a use only replaces the generator. -/
def Use.isRefresh : Use → Bool
  | .refresh => true
  | _ => false

/-- What a use of a generator shows. -/
inductive Answer : Type 1 where
  /-- A face of the die. -/
  | face (result : UInt8)
  /-- An integer, or why there is none. -/
  | int (result : Except RangeFault Int64)
  /-- A number, or why there is none. -/
  | float (result : Except RangeFault Binary64)
  /-- True or false, or why neither. -/
  | chance (result : Except RangeFault Bool)
  /-- A key, or why there is none. -/
  | key (κ : Type) (result : Except WeightFault κ)
  /-- A checkpoint. -/
  | state (c : Checkpoint)

/-- A generator in use. -/
structure Session (ρ : Type := Keystream.Reader) where
  /-- The generator as it stands. -/
  generator : Generator ρ
  /-- The checkpoints that were written down, oldest first. -/
  saved : List Checkpoint

namespace Session

/-- The session at the start of a seed's stream. -/
def ofSeed (seed : UInt64) : Session ρ := ⟨.ofSeed seed, []⟩

/-- A session with another generator. -/
def withGenerator (s : Session ρ) (g : Generator ρ) : Session ρ := { s with generator := g }

/-- A draw and what it shows. -/
def drawing {α : Type} (draw : Generator ρ → α × Generator ρ) (answer : α → Answer)
    (s : Session ρ) : List Answer × Session ρ :=
  ([answer (draw s.generator).1], s.withGenerator (draw s.generator).2)

/-- What a use shows, and the session behind it. To reload a checkpoint that was never written down
leaves the generator as it is. -/
def use (s : Session ρ) : Use → List Answer × Session ρ
  | .name name => ([], s.withGenerator (s.generator.named name))
  | .face => s.drawing Generator.face .face
  | .int low high => s.drawing (Generator.int low high) .int
  | .float low high => s.drawing (Generator.float low high) .float
  | .chance p => s.drawing (Generator.chance p) .chance
  | .key κ table => s.drawing (Generator.key table) (.key κ)
  | .save =>
    ([.state s.generator.checkpoint], { s with saved := s.saved ++ [s.generator.checkpoint] })
  | .reload place => ([], s.withGenerator ((s.saved[place]?.map ofCheckpoint).getD s.generator))
  | .restore c => ([], s.withGenerator (ofCheckpoint c))
  | .refresh => ([], s.withGenerator (ofCheckpoint s.generator.checkpoint))

/-- What a list of uses shows, and the session behind it. -/
def run (s : Session ρ) : List Use → List Answer × Session ρ
  | [] => ([], s)
  | next :: uses => ((s.use next).1 ++ ((s.use next).2.run uses).1, ((s.use next).2.run uses).2)

/-- Two sessions have twins in use and wrote the same checkpoints down. -/
structure Twins (s other : Session ρ) : Prop where
  /-- The generators are twins. -/
  generator : Generator.Twins s.generator other.generator
  /-- The checkpoints are the same. -/
  saved : s.saved = other.saved

variable (ρ) in
/-- The session at the start of a seed's stream is its own twin. -/
theorem twins_ofSeed (seed : UInt64) : Twins (ofSeed seed : Session ρ) (ofSeed seed) :=
  ⟨.refl (stands_ofSeed ρ seed), rfl⟩

/-- Readers that are nothing but a key and a position make twin sessions equal. -/
theorem Twins.eq {s other : Session} (h : Twins s other) : s = other := by
  obtain ⟨hgenerator, hsaved⟩ := h
  cases s
  cases other
  simp only at hgenerator hsaved
  rw [hgenerator.eq, hsaved]

variable {s other : Session ρ}

/-- A steady draw shows the same in twin sessions and leaves twins. -/
theorem Twins.drawing (h : Twins s other) {α : Type} {draw : Generator ρ → α × Generator ρ}
    (hdraw : Steady draw) (answer : α → Answer) :
    (s.drawing draw answer).1 = (other.drawing draw answer).1 ∧
      Twins (s.drawing draw answer).2 (other.drawing draw answer).2 := by
  obtain ⟨hsame, hafter⟩ := hdraw _ _ h.generator
  exact ⟨congrArg (fun value => [answer value]) hsame, hafter, h.saved⟩

variable [LawfulWordReader ρ]

/-- Every use shows the same in twin sessions and leaves twins. -/
theorem Twins.use (h : Twins s other) (next : Use) :
    (s.use next).1 = (other.use next).1 ∧ Twins (s.use next).2 (other.use next).2 := by
  cases next with
  | name name =>
    refine ⟨rfl, ?_, h.saved⟩
    rw [Session.use, Session.use, withGenerator, withGenerator, named, named, h.generator.seed]
    exact .refl (stands_ofSeed ρ _)
  | face => exact h.drawing (steady_face ρ) _
  | int low high => exact h.drawing (steady_int ρ low high) _
  | float low high => exact h.drawing (steady_float ρ low high) _
  | chance p => exact h.drawing (steady_chance ρ p) _
  | key κ table => exact h.drawing (steady_key ρ table) _
  | save =>
    have hsame := h.generator.checkpoint_eq
    refine ⟨congrArg (fun c => [Answer.state c]) hsame, h.generator, ?_⟩
    rw [Session.use, Session.use, h.saved, hsame]
  | reload place =>
    refine ⟨rfl, ?_, h.saved⟩
    rw [Session.use, Session.use, withGenerator, withGenerator, h.saved]
    cases other.saved[place]? with
    | none => exact h.generator
    | some c => exact .refl (stands_ofCheckpoint ρ c)
  | restore c => exact ⟨rfl, .refl (stands_ofCheckpoint ρ c), h.saved⟩
  | refresh => exact ⟨rfl, h.generator.restored.symm.restored.symm, h.saved⟩

/-- A run shows the same in a twin session without the replacements, and leaves twins. -/
theorem Twins.run_filter (h : Twins s other) (uses : List Use) :
    (s.run uses).1 = (other.run (uses.filter fun next => !next.isRefresh)).1 ∧
      Twins (s.run uses).2 (other.run (uses.filter fun next => !next.isRefresh)).2 := by
  induction uses generalizing s other with
  | nil => exact ⟨rfl, h⟩
  | cons next uses ih =>
    cases hnext : next.isRefresh with
    | true =>
      -- The replaced generator is a twin of the one that is left alone.
      rw [List.filter_cons_of_neg (by simp [hnext])]
      cases next with
      | refresh => exact ih ⟨h.generator.restored, h.saved⟩
      | _ => cases hnext
    | false =>
      rw [List.filter_cons_of_pos (by simp [hnext]), run, run]
      obtain ⟨hshown, hafter⟩ := h.use next
      obtain ⟨hrest, hlast⟩ := ih hafter
      exact ⟨by rw [hshown, hrest], hlast⟩

end Session

/-- Checkpoints cannot be noticed, whatever reads the stream of words: what the uses of a generator
show, whether they succeed or are refused, and the checkpoints among it, are the same if the
generator is replaced at any places by what its own checkpoint restores. What any checkpoint restores
has the seed of the checkpoint, and its position modulo the length of a stream. With readers that
are nothing but a key and a position the generator at the end is the same too, and its checkpoint
restores that very generator. -/
theorem run_refreshed :
    (∀ (ρ : Type) [WordReader ρ] [LawfulWordReader ρ],
      (∀ (seed : UInt64) (uses : List Use),
        let refreshed := (Session.ofSeed seed : Session ρ).run uses
        let left := (Session.ofSeed seed : Session ρ).run (uses.filter fun next => !next.isRefresh)
        refreshed.1 = left.1 ∧ refreshed.2.saved = left.2.saved ∧
          refreshed.2.generator.checkpoint = left.2.generator.checkpoint) ∧
      ∀ c : Checkpoint, (ofCheckpoint c : Generator ρ).checkpoint.seed = c.seed ∧
        (ofCheckpoint c : Generator ρ).checkpoint.position.toNat =
          c.position.toNat % positions) ∧
    ∀ (seed : UInt64) (uses : List Use),
      (Session.ofSeed seed).run uses =
        (Session.ofSeed seed : Session).run (uses.filter fun next => !next.isRefresh) ∧
      ofCheckpoint ((Session.ofSeed seed).run uses).2.generator.checkpoint =
        ((Session.ofSeed seed : Session).run uses).2.generator := by
  refine ⟨fun ρ _ _ => ⟨fun seed uses => ?_, fun c => ?_⟩, fun seed uses => ?_⟩
  · obtain ⟨hshown, htwins⟩ := (Session.twins_ofSeed ρ seed).run_filter uses
    exact ⟨hshown, htwins.saved, htwins.generator.checkpoint_eq⟩
  · exact ⟨rfl, toNat_position_ofCheckpoint ρ c⟩
  · obtain ⟨hshown, htwins⟩ := (Session.twins_ofSeed Keystream.Reader seed).run_filter uses
    refine ⟨Prod.ext hshown htwins.eq, ?_⟩
    -- Both the generator and what its checkpoint restores are twins of the one left alone.
    rw [htwins.generator.restored.eq, htwins.generator.eq]

/-- Two faces are drawn and the first of them once more from where the checkpoint was written down;
to replace the generator before a face does not change it. -/
theorem run_refreshed_faces :
    LawfulWordReader Keystream.Reader ∧
      ((Session.ofSeed 1 : Session).run
        [.save, .refresh, .face, .refresh, .face, .reload 0, .refresh, .face]).1 =
          [.state ⟨1, 0⟩, .face 4, .face 3, .face 4] :=
  ⟨inferInstance, ((run_refreshed.1 Keystream.Reader).1 1 _).1⟩

end Generator

end DiceDuel
