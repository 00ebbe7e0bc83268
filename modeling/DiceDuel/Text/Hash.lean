import DiceDuel.Random.SipHash

/-!
# The hash of texts

A text is hashed by its UTF-8 bytes and a closing byte that no text holds. Each word that is taken
in is mixed into the hash by a rotation, an exclusive or and a product.
-/

namespace DiceDuel.Text

/-- A hash that has taken in one more word. -/
def mixWord (hash word : UInt64) : UInt64 :=
  (SipHash.rotateLeft hash 5 ^^^ word) * 0x517cc1b727220a95

/-- A hash that has taken in bytes, lowest first: eight at a time, and what is left by four, two and
one. -/
def mixBytes (hash : UInt64) : List UInt8 → UInt64
  | b0 :: b1 :: b2 :: b3 :: b4 :: b5 :: b6 :: b7 :: rest =>
    mixBytes (mixWord hash (SipHash.wordOf [b0, b1, b2, b3, b4, b5, b6, b7])) rest
  | b0 :: b1 :: b2 :: b3 :: rest => mixBytes (mixWord hash (SipHash.wordOf [b0, b1, b2, b3])) rest
  | b0 :: b1 :: rest => mixBytes (mixWord hash (SipHash.wordOf [b0, b1])) rest
  | b0 :: rest => mixBytes (mixWord hash b0.toUInt64) rest
  | [] => hash

/-- The hash of a text. -/
def hash (s : String) : UInt64 :=
  mixWord (mixBytes 0 (s.toList.flatMap String.utf8EncodeChar)) 0xff

end DiceDuel.Text
