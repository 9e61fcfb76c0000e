import EthWire.Bytes

/-!
# SHA-256 and its keyed form

The digest that draws the signing nonces.
-/

namespace EthWire.Sha256

abbrev State := Vector UInt32 8

def roundConstants : List UInt32 :=
  [0x428a2f98, 0x71374491, 0xb5c0fbcf, 0xe9b5dba5, 0x3956c25b, 0x59f111f1, 0x923f82a4, 0xab1c5ed5,
   0xd807aa98, 0x12835b01, 0x243185be, 0x550c7dc3, 0x72be5d74, 0x80deb1fe, 0x9bdc06a7, 0xc19bf174,
   0xe49b69c1, 0xefbe4786, 0x0fc19dc6, 0x240ca1cc, 0x2de92c6f, 0x4a7484aa, 0x5cb0a9dc, 0x76f988da,
   0x983e5152, 0xa831c66d, 0xb00327c8, 0xbf597fc7, 0xc6e00bf3, 0xd5a79147, 0x06ca6351, 0x14292967,
   0x27b70a85, 0x2e1b2138, 0x4d2c6dfc, 0x53380d13, 0x650a7354, 0x766a0abb, 0x81c2c92e, 0x92722c85,
   0xa2bfe8a1, 0xa81a664b, 0xc24b8b70, 0xc76c51a3, 0xd192e819, 0xd6990624, 0xf40e3585, 0x106aa070,
   0x19a4c116, 0x1e376c08, 0x2748774c, 0x34b0bcb5, 0x391c0cb3, 0x4ed8aa4a, 0x5b9cca4f, 0x682e6ff3,
   0x748f82ee, 0x78a5636f, 0x84c87814, 0x8cc70208, 0x90befffa, 0xa4506ceb, 0xbef9a3f7, 0xc67178f2]

def initial : State :=
  #v[0x6a09e667, 0xbb67ae85, 0x3c6ef372, 0xa54ff53a, 0x510e527f, 0x9b05688c, 0x1f83d9ab, 0x5be0cd19]

def rotateRight (x n : UInt32) : UInt32 := (x >>> n) ||| (x <<< (32 - n))

/-- The next word of the message schedule, from its last sixteen words in reverse. -/
def nextWord (recent : List UInt32) : UInt32 :=
  let w2 := recent.getD 1 0
  let w7 := recent.getD 6 0
  let w15 := recent.getD 14 0
  let w16 := recent.getD 15 0
  let s0 := rotateRight w15 7 ^^^ rotateRight w15 18 ^^^ (w15 >>> 3)
  let s1 := rotateRight w2 17 ^^^ rotateRight w2 19 ^^^ (w2 >>> 10)
  w16 + s0 + w7 + s1

/-- The message schedule in reverse, extended by `count` words. -/
def schedule : (count : Nat) → List UInt32 → List UInt32
  | 0, ws => ws
  | count + 1, ws => schedule count (nextWord ws :: ws)

def round (s : State) (constant word : UInt32) : State :=
  let a := s[0]; let b := s[1]; let c := s[2]; let d := s[3]
  let e := s[4]; let f := s[5]; let g := s[6]; let h := s[7]
  let s1 := rotateRight e 6 ^^^ rotateRight e 11 ^^^ rotateRight e 25
  let ch := (e &&& f) ^^^ (~~~e &&& g)
  let t1 := h + s1 + ch + constant + word
  let s0 := rotateRight a 2 ^^^ rotateRight a 13 ^^^ rotateRight a 22
  let maj := (a &&& b) ^^^ (a &&& c) ^^^ (b &&& c)
  #v[t1 + s0 + maj, a, b, c, d + t1, e, f, g]

/-- The first `count` words of a block, the highest byte of each first. -/
def wordsOfBlock : (count : Nat) → Bytes → List UInt32
  | 0, _ => []
  | count + 1, b => (Bytes.toNat (b.take 4)).toUInt32 :: wordsOfBlock count (b.drop 4)

def compress (s : State) (block : Bytes) : State :=
  let words := (schedule 48 (wordsOfBlock 16 block).reverse).reverse
  let mixed := (roundConstants.zip words).foldl (fun t (k, w) => round t k w) s
  Vector.ofFn fun i => s[i] + mixed[i]

/-- A message with its padding and its length in bits. -/
def pad (message : Bytes) : Bytes :=
  let gap := (64 + 55 - message.length % 64) % 64
  message ++ [0x80] ++ Bytes.zero gap ++ Bytes.ofNatWidth 8 (8 * message.length)

def compressBlocks : (count : Nat) → State → Bytes → State
  | 0, s, _ => s
  | count + 1, s, b => compressBlocks count (compress s (b.take 64)) (b.drop 64)

/-- The SHA-256 digest. -/
def sha256 (message : Bytes) : Bytes :=
  let padded := pad message
  (compressBlocks (padded.length / 64) initial padded).toList.flatMap fun w =>
    Bytes.ofNatWidth 4 w.toNat

/-- The keyed digest of a message. -/
def hmac (key message : Bytes) : Bytes :=
  let key := (if 64 < key.length then sha256 key else key).rightpad 64 0
  sha256 (key.map (· ^^^ 0x5c) ++ sha256 (key.map (· ^^^ 0x36) ++ message))

end EthWire.Sha256
