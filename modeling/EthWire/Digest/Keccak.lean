import EthWire.Bytes

/-!
# Keccak-256

The sponge over 25 lanes of 64 bits at a rate of 136 bytes, with the padding that
begins with the byte one. Lane `x + 5 y` stands in column `x` and row `y`.
-/

namespace EthWire.Keccak

abbrev State := Vector UInt64 25

/-- The bytes absorbed by one permutation. -/
def rate : Nat := 136

/-- The number of bits by which each lane is turned. -/
def turns : Vector UInt64 25 :=
  #v[0, 1, 62, 28, 27, 36, 44, 6, 55, 20, 3, 10, 43, 25, 39, 41, 45, 15, 21, 8, 18, 2, 61, 56, 14]

/-- The constant mixed into the first lane in each round. -/
def roundConstants : List UInt64 :=
  [0x0000000000000001, 0x0000000000008082, 0x800000000000808a, 0x8000000080008000,
   0x000000000000808b, 0x0000000080000001, 0x8000000080008081, 0x8000000000008009,
   0x000000000000008a, 0x0000000000000088, 0x0000000080008009, 0x000000008000000a,
   0x000000008000808b, 0x800000000000008b, 0x8000000000008089, 0x8000000000008003,
   0x8000000000008002, 0x8000000000000080, 0x000000000000800a, 0x800000008000000a,
   0x8000000080008081, 0x8000000000008080, 0x0000000080000001, 0x8000000080008008]

def rotateLeft (x n : UInt64) : UInt64 :=
  if n = 0 then x else (x <<< n) ||| (x >>> (64 - n))

/-- The lane in column `x` and row `y`, both taken modulo five. -/
def lane (s : State) (x y : Nat) : UInt64 :=
  s.get ⟨x % 5 + 5 * (y % 5), by omega⟩

/-- Adds to each lane the parities of the columns beside it. -/
def theta (s : State) : State :=
  let parity : Vector UInt64 5 := Vector.ofFn fun x =>
    lane s x 0 ^^^ lane s x 1 ^^^ lane s x 2 ^^^ lane s x 3 ^^^ lane s x 4
  let effect : Vector UInt64 5 := Vector.ofFn fun x =>
    parity.get ⟨(x.val + 4) % 5, by omega⟩
      ^^^ rotateLeft (parity.get ⟨(x.val + 1) % 5, by omega⟩) 1
  Vector.ofFn fun i => s[i] ^^^ effect.get ⟨i.val % 5, by omega⟩

/-- Turns the lanes and moves each to its new place. -/
def rhoPi (s : State) : State :=
  let turned : State := Vector.ofFn fun i => rotateLeft s[i] turns[i]
  Vector.ofFn fun i => lane turned (i.val % 5 + 3 * (i.val / 5)) (i.val % 5)

/-- Combines each lane with the two lanes behind it in its row. -/
def chi (s : State) : State :=
  Vector.ofFn fun i =>
    s[i] ^^^ (~~~(lane s (i.val % 5 + 1) (i.val / 5)) &&& lane s (i.val % 5 + 2) (i.val / 5))

def round (s : State) (constant : UInt64) : State :=
  let t := chi (rhoPi (theta s))
  t.set 0 (t[0] ^^^ constant)

def permute (s : State) : State := roundConstants.foldl round s

/-- The lane of eight bytes, the lowest first. -/
def laneOfBytes (b : Bytes) : UInt64 :=
  b.foldr (fun x acc => (acc <<< 8) ||| x.toUInt64) 0

def bytesOfLane (x : UInt64) : Bytes :=
  (List.range 8).map fun i => (x >>> (8 * i).toUInt64).toUInt8

/-- Mixes a block into the state and permutes it. -/
def absorb (s : State) (block : Bytes) : State :=
  permute (Vector.ofFn fun i => s[i] ^^^ laneOfBytes ((block.drop (8 * i.val)).take 8))

/-- A message with its padding: the length becomes a multiple of the rate. -/
def pad (message : Bytes) : Bytes :=
  let gap := rate - message.length % rate
  if gap = 1 then message ++ [0x81]
  else message ++ [0x01] ++ Bytes.zero (gap - 2) ++ [0x80]

/-- Absorbs the first `count` blocks of a byte string. -/
def absorbBlocks : (count : Nat) → State → Bytes → State
  | 0, s, _ => s
  | count + 1, s, b => absorbBlocks count (absorb s (b.take rate)) (b.drop rate)

/-- The Keccak-256 digest. -/
def keccak256 (message : Bytes) : Bytes :=
  let padded := pad message
  let s := absorbBlocks (padded.length / rate) (Vector.replicate 25 0) padded
  (s.toList.take 4).flatMap bytesOfLane

end EthWire.Keccak
