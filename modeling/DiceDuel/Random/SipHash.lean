/-!
# The hash of stream names

A named stream takes its seed from the SipHash of the parent's seed and the name, with one round for
each word, three at the end, and a key of zeros. The bytes are taken eight at a time, lowest first;
the last word holds what is left and the length.
-/

namespace DiceDuel.SipHash

/-- The four words of the hash in progress. -/
structure State where
  /-- The first word. -/
  v0 : UInt64
  /-- The second word. -/
  v1 : UInt64
  /-- The third word. -/
  v2 : UInt64
  /-- The fourth word. -/
  v3 : UInt64
deriving DecidableEq, Repr

/-- A word rotated to the left. -/
def rotateLeft (x n : UInt64) : UInt64 := (x <<< n) ||| (x >>> (64 - n))

namespace State

/-- The start under a key of zeros. -/
def start : State :=
  ⟨0x736f6d6570736575, 0x646f72616e646f6d, 0x6c7967656e657261, 0x7465646279746573⟩

/-- One round. -/
def round (s : State) : State :=
  let v0 := s.v0 + s.v1
  let v1 := rotateLeft s.v1 13 ^^^ v0
  let v0 := rotateLeft v0 32
  let v2 := s.v2 + s.v3
  let v3 := rotateLeft s.v3 16 ^^^ v2
  let v0 := v0 + v3
  let v3 := rotateLeft v3 21 ^^^ v0
  let v2 := v2 + v1
  let v1 := rotateLeft v1 17 ^^^ v2
  let v2 := rotateLeft v2 32
  ⟨v0, v1, v2, v3⟩

/-- Takes in one word. -/
def absorb (s : State) (word : UInt64) : State :=
  let t := { s with v3 := s.v3 ^^^ word }.round
  { t with v0 := t.v0 ^^^ word }

/-- The hash of what was taken in. -/
def finish (s : State) : UInt64 :=
  let t := { s with v2 := s.v2 ^^^ 0xff }.round.round.round
  t.v0 ^^^ t.v1 ^^^ t.v2 ^^^ t.v3

end State

/-- The word of up to eight bytes, lowest first. -/
def wordOf : List UInt8 → UInt64
  | [] => 0
  | byte :: rest => byte.toUInt64 ||| (wordOf rest <<< 8)

/-- Takes in bytes, eight at a time; the length goes into the top byte of the last word. -/
def absorbBytes (length : UInt64) (s : State) : List UInt8 → State
  | b0 :: b1 :: b2 :: b3 :: b4 :: b5 :: b6 :: b7 :: rest =>
    absorbBytes length (s.absorb (wordOf [b0, b1, b2, b3, b4, b5, b6, b7])) rest
  | rest => s.absorb (wordOf rest ||| (length <<< 56))

/-- The hash of a list of bytes. -/
def hash (bytes : List UInt8) : UInt64 :=
  (absorbBytes (UInt64.ofNat bytes.length) .start bytes).finish

/-- The eight bytes of a word, lowest first. -/
def bytesOf (word : UInt64) : List UInt8 :=
  (List.range 8).map fun i => (word >>> (8 * UInt64.ofNat i)).toUInt8

/-- The hash of a seed and a name: the name's UTF-8 bytes stand behind the seed and are closed by
a byte that no text holds. -/
def ofSeedAndName (seed : UInt64) (name : String) : UInt64 :=
  hash (bytesOf seed ++ name.toList.flatMap String.utf8EncodeChar ++ [0xff])

end DiceDuel.SipHash
