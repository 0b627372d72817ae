/-!
# SHA-256

The digest of a message: thirty-two bytes. The message is padded to blocks of sixteen words, and
each block is mixed into eight words in sixty-four rounds. Only the last sixteen words of a block's
schedule are kept, as each further word depends on no older ones.
-/

namespace VisualNovel.Digest

/-- The eight words into which a message is mixed. -/
structure Mix where
  a : UInt32
  b : UInt32
  c : UInt32
  d : UInt32
  e : UInt32
  f : UInt32
  g : UInt32
  h : UInt32
  deriving DecidableEq, Repr

namespace Mix

/-- The words before the first block. -/
def initial : Mix :=
  ⟨0x6a09e667, 0xbb67ae85, 0x3c6ef372, 0xa54ff53a, 0x510e527f, 0x9b05688c, 0x1f83d9ab, 0x5be0cd19⟩

/-- Adds word by word. -/
def add (x y : Mix) : Mix :=
  ⟨x.a + y.a, x.b + y.b, x.c + y.c, x.d + y.d, x.e + y.e, x.f + y.f, x.g + y.g, x.h + y.h⟩

/-- The words in order. -/
def words (x : Mix) : List UInt32 := [x.a, x.b, x.c, x.d, x.e, x.f, x.g, x.h]

end Mix

/-- One constant for each round. -/
def roundConstants : List UInt32 := [
  0x428a2f98, 0x71374491, 0xb5c0fbcf, 0xe9b5dba5, 0x3956c25b, 0x59f111f1, 0x923f82a4, 0xab1c5ed5,
  0xd807aa98, 0x12835b01, 0x243185be, 0x550c7dc3, 0x72be5d74, 0x80deb1fe, 0x9bdc06a7, 0xc19bf174,
  0xe49b69c1, 0xefbe4786, 0x0fc19dc6, 0x240ca1cc, 0x2de92c6f, 0x4a7484aa, 0x5cb0a9dc, 0x76f988da,
  0x983e5152, 0xa831c66d, 0xb00327c8, 0xbf597fc7, 0xc6e00bf3, 0xd5a79147, 0x06ca6351, 0x14292967,
  0x27b70a85, 0x2e1b2138, 0x4d2c6dfc, 0x53380d13, 0x650a7354, 0x766a0abb, 0x81c2c92e, 0x92722c85,
  0xa2bfe8a1, 0xa81a664b, 0xc24b8b70, 0xc76c51a3, 0xd192e819, 0xd6990624, 0xf40e3585, 0x106aa070,
  0x19a4c116, 0x1e376c08, 0x2748774c, 0x34b0bcb5, 0x391c0cb3, 0x4ed8aa4a, 0x5b9cca4f, 0x682e6ff3,
  0x748f82ee, 0x78a5636f, 0x84c87814, 0x8cc70208, 0x90befffa, 0xa4506ceb, 0xbef9a3f7, 0xc67178f2
]

/-- A word turned to the right. -/
def rotate (x : UInt32) (n : UInt32) : UInt32 := (x >>> n) ||| (x <<< (32 - n))

/-- One round with its constant and its word of the schedule. -/
def mixWord (x : Mix) (k w : UInt32) : Mix :=
  let s1 := rotate x.e 6 ^^^ rotate x.e 11 ^^^ rotate x.e 25
  let choice := (x.e &&& x.f) ^^^ (~~~x.e &&& x.g)
  let t1 := x.h + s1 + choice + k + w
  let s0 := rotate x.a 2 ^^^ rotate x.a 13 ^^^ rotate x.a 22
  let majority := (x.a &&& x.b) ^^^ (x.a &&& x.c) ^^^ (x.b &&& x.c)
  ⟨t1 + s0 + majority, x.a, x.b, x.c, x.d + t1, x.e, x.f, x.g⟩

/-- The word of the schedule that follows sixteen others. -/
def nextWord (ws : List UInt32) : UInt32 :=
  let w1 := ws.getD 1 0
  let w14 := ws.getD 14 0
  let s0 := rotate w1 7 ^^^ rotate w1 18 ^^^ (w1 >>> 3)
  let s1 := rotate w14 17 ^^^ rotate w14 19 ^^^ (w14 >>> 10)
  ws.getD 0 0 + s0 + ws.getD 9 0 + s1

/-- The rounds with the given constants, from sixteen words of the schedule on. -/
def mixWords : List UInt32 → List UInt32 → Mix → Mix
  | [], _, x => x
  | k :: ks, ws, x => mixWords ks (ws.tail ++ [nextWord ws]) (mixWord x k (ws.getD 0 0))

/-- Mixes in a block of sixteen words. -/
def mixBlock (x : Mix) (block : List UInt32) : Mix := x.add (mixWords roundConstants block x)

/-- The word of four bytes, the most significant first. -/
def wordOf (a b c d : UInt8) : UInt32 :=
  (a.toUInt32 <<< 24) ||| (b.toUInt32 <<< 16) ||| (c.toUInt32 <<< 8) ||| d.toUInt32

/-- The words of a message of whole words. -/
def wordsOf : List UInt8 → List UInt32
  | a :: b :: c :: d :: rest => wordOf a b c d :: wordsOf rest
  | _ => []

/-- The bytes of a word, the most significant first. -/
def bytesOf (w : UInt32) : List UInt8 :=
  [(w >>> 24).toUInt8, (w >>> 16).toUInt8, (w >>> 8).toUInt8, w.toUInt8]

/-- The bytes of a number, the most significant first. -/
def bigEndian : Nat → Nat → List UInt8
  | 0, _ => []
  | width + 1, n => bigEndian width (n / 256) ++ [UInt8.ofNat n]

/-- What is added to a message of a length in bytes, so that whole blocks result: one bit, zeros,
and the length in bits. -/
def padding (length : Nat) : List UInt8 :=
  0x80 :: (List.replicate ((119 - length % 64) % 64) 0 ++ bigEndian 8 (8 * length))

/-- Mixes in a number of blocks of words. -/
def mixBlocks : Nat → List UInt32 → Mix → Mix
  | 0, _, x => x
  | n + 1, ws, x => mixBlocks n (ws.drop 16) (mixBlock x (ws.take 16))

/-- The digest of a message. -/
def sha256 (message : List UInt8) : List UInt8 :=
  let ws := wordsOf (message ++ padding message.length)
  (mixBlocks (ws.length / 16) ws .initial).words.flatMap bytesOf

end VisualNovel.Digest
