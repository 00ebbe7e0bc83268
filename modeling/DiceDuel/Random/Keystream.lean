import DiceDuel.Random.Stream

/-!
# The keystream behind the dice

Random words come from the ChaCha stream cipher with eight rounds. A seed of 64 bits is expanded to
a key by a permuted congruential generator, and the word at a position of the stream is a function of
the key and the position alone, so a stream needs no buffer and can be entered anywhere. The block
counter has 64 bits and the nonce is zero, which makes `2 ^ 68` word positions. A reader stands at a
position of one stream, and gives words or is moved to another position.
-/

namespace DiceDuel.Keystream

/-- A word rotated to the left. -/
def rotateLeft (x n : UInt32) : UInt32 := (x <<< n) ||| (x >>> (32 - n))

/-- Four words side by side. -/
structure Row where
  /-- The first word. -/
  a : UInt32
  /-- The second word. -/
  b : UInt32
  /-- The third word. -/
  c : UInt32
  /-- The fourth word. -/
  d : UInt32
deriving DecidableEq, Repr

namespace Row

/-- Sums word by word. -/
def add (x y : Row) : Row := ⟨x.a + y.a, x.b + y.b, x.c + y.c, x.d + y.d⟩

/-- Adds the second row to the first and mixes the sum into a third, which is rotated. -/
def mix (x y : Row) (n : UInt32) : Row :=
  ⟨rotateLeft (x.a ^^^ y.a) n, rotateLeft (x.b ^^^ y.b) n, rotateLeft (x.c ^^^ y.c) n,
    rotateLeft (x.d ^^^ y.d) n⟩

/-- The row turned by one place to the left. -/
def turn (x : Row) : Row := ⟨x.b, x.c, x.d, x.a⟩

/-- The word at a place, counted modulo four. -/
def word (x : Row) (place : Nat) : UInt32 :=
  match place % 4 with
  | 0 => x.a
  | 1 => x.b
  | 2 => x.c
  | _ => x.d

end Row

/-- Sixteen words as four rows. -/
structure Block where
  /-- The constants, before mixing. -/
  top : Row
  /-- The first half of the key, before mixing. -/
  upper : Row
  /-- The second half of the key, before mixing. -/
  lower : Row
  /-- The counter and the nonce, before mixing. -/
  bottom : Row
deriving DecidableEq, Repr

namespace Block

/-- The quarter round on all four columns at once. -/
def columns (s : Block) : Block :=
  let top := s.top.add s.upper
  let bottom := s.bottom.mix top 16
  let lower := s.lower.add bottom
  let upper := s.upper.mix lower 12
  let top := top.add upper
  let bottom := bottom.mix top 8
  let lower := lower.add bottom
  let upper := upper.mix lower 7
  ⟨top, upper, lower, bottom⟩

/-- The quarter round on all four diagonals at once. -/
def diagonals (s : Block) : Block :=
  let t := columns ⟨s.top, s.upper.turn, s.lower.turn.turn, s.bottom.turn.turn.turn⟩
  ⟨t.top, t.upper.turn.turn.turn, t.lower.turn.turn, t.bottom.turn⟩

/-- A number of double rounds. -/
def rounds : Nat → Block → Block
  | 0, s => s
  | n + 1, s => rounds n s.columns.diagonals

/-- Sums word by word. -/
def add (x y : Block) : Block :=
  ⟨x.top.add y.top, x.upper.add y.upper, x.lower.add y.lower, x.bottom.add y.bottom⟩

/-- The word at a place, counted modulo sixteen. -/
def word (s : Block) (place : Nat) : UInt32 :=
  match place / 4 % 4 with
  | 0 => s.top.word place
  | 1 => s.upper.word place
  | 2 => s.lower.word place
  | _ => s.bottom.word place

end Block

/-- A key of eight words. -/
structure Key where
  /-- The first four words. -/
  upper : Row
  /-- The last four words. -/
  lower : Row
deriving DecidableEq, Repr

namespace Key

/-- The next state of the expansion. -/
def step (state : UInt64) : UInt64 := state * 6364136223846793005 + 11634580027462260723

/-- The word that a state of the expansion gives. -/
def output (state : UInt64) : UInt32 :=
  let x := (((state >>> 18) ^^^ state) >>> 27).toUInt32
  let n := (state >>> 59).toUInt32
  (x >>> n) ||| (x <<< ((32 - n) % 32))

/-- The next four words of the expansion, with the state behind them. -/
def row (state : UInt64) : Row × UInt64 :=
  let s₁ := step state
  let s₂ := step s₁
  let s₃ := step s₂
  let s₄ := step s₃
  (⟨output s₁, output s₂, output s₃, output s₄⟩, s₄)

/-- The key of a seed. -/
def ofSeed (seed : UInt64) : Key :=
  let (upper, state) := row seed
  ⟨upper, (row state).1⟩

end Key

/-- The constants of the cipher. -/
def constants : Row := ⟨0x61707865, 0x3320646e, 0x79622d32, 0x6b206574⟩

/-- The block with a number, counted modulo `2 ^ 64`. -/
def block (key : Key) (number : Nat) : Block :=
  let start : Block :=
    ⟨constants, key.upper, key.lower,
      ⟨UInt32.ofNat number, UInt32.ofNat (number / UInt32.size), 0, 0⟩⟩
  (start.rounds 4).add start

/-- The word at a position of the stream of a key. -/
def word (key : Key) (position : Nat) : UInt32 := (block key (position / 16)).word position

/-- A reader in the stream of a key. -/
structure Reader where
  /-- The key of the stream. -/
  key : Key
  /-- The position of the next word. -/
  position : BitVec 68
deriving DecidableEq, Repr

namespace Reader

/-- The reader at the start of a seed's stream. -/
def ofSeed (seed : UInt64) : Reader := ⟨.ofSeed seed, 0⟩

/-- The position of the next word, as a number of 128 bits. -/
def widePosition (r : Reader) : BitVec 128 := r.position.setWidth 128

/-- The reader moved to a position, of which only the lowest 68 bits count. -/
def seek (position : BitVec 128) (r : Reader) : Reader :=
  { r with position := position.setWidth 68 }

/-- Reads the next word. -/
def next (r : Reader) : UInt32 × Reader :=
  (word r.key r.position.toNat, { r with position := r.position + 1 })

@[default_instance] instance : WordReader Reader := ⟨ofSeed, next, widePosition, seek⟩

/-- A reader is nothing but the key and the position where it stands. -/
theorem eq_of_stands {r : Reader} {seed : UInt64} {position : BitVec 68}
    (here : WordReader.Stands r seed position) : r = ⟨.ofSeed seed, position⟩ := by
  induction here with
  | ofSeed seed => rfl
  | next _ ih =>
    rw [ih]
    rfl
  | seek _ _ ih =>
    rw [ih]
    rfl

instance : LawfulWordReader Reader where
  next_eq here there := by rw [eq_of_stands here, eq_of_stands there]
  position_eq here := by
    rw [eq_of_stands here]
    rfl

end Reader

end DiceDuel.Keystream
