import FederatedTime.Random.Stream

/-!
# The ChaCha stream with eight rounds

The stream of a seed. Each block is made from sixteen words, four of them constant, eight from the
key, and two that count the blocks, by four double rounds and a final addition. The key is drawn
from the seed by a linear congruential generator with permuted output.
-/

namespace FederatedTime.ChaCha

/-- The words of a block. -/
abbrev Block := Vector UInt32 16

def rotateLeft (x : UInt32) (n : UInt32) : UInt32 := x <<< n ||| x >>> (32 - n)

/-- A quarter round on four places of a block. -/
def quarterRound (b : Block) (i j k l : Fin 16) : Block :=
  let x := b[i] + b[j]
  let w := rotateLeft (b[l] ^^^ x) 16
  let z := b[k] + w
  let y := rotateLeft (b[j] ^^^ z) 12
  let x := x + y
  let w := rotateLeft (w ^^^ x) 8
  let z := z + w
  let y := rotateLeft (y ^^^ z) 7
  (((b.set i x).set j y).set k z).set l w

/-- A round over the columns of a block and a round over its diagonals. -/
def doubleRound (b : Block) : Block :=
  let b := quarterRound b 0 4 8 12
  let b := quarterRound b 1 5 9 13
  let b := quarterRound b 2 6 10 14
  let b := quarterRound b 3 7 11 15
  let b := quarterRound b 0 5 10 15
  let b := quarterRound b 1 6 11 12
  let b := quarterRound b 2 7 8 13
  quarterRound b 3 4 9 14

/-- A block before its rounds. -/
def initial (key : Vector UInt32 8) (counter : Nat) : Block :=
  let counter := UInt64.ofNat counter
  #v[0x61707865, 0x3320646e, 0x79622d32, 0x6b206574, key[0], key[1], key[2], key[3], key[4],
    key[5], key[6], key[7], counter.toUInt32, (counter >>> 32).toUInt32, 0, 0]

/-- The block of a key with the given number. -/
def block (key : Vector UInt32 8) (counter : Nat) : Block :=
  let start := initial key counter
  let mixed := doubleRound (doubleRound (doubleRound (doubleRound start)))
  mixed.zipWith (· + ·) start

/-! ## Seeds -/

/-- The state after the state `s` of the generator of keys. -/
def advanceSeed (s : UInt64) : UInt64 := s * 6364136223846793005 + 11634580027462260723

/-- The word that a state of the generator of keys puts out. -/
def seedWord (s : UInt64) : UInt32 :=
  let x := (((s >>> 18) ^^^ s) >>> 27).toUInt32
  let n := (s >>> 59).toUInt32
  x >>> n ||| x <<< ((32 - n) % 32)

/-- The state of the generator of keys after `n` words. -/
def seedState (seed : UInt64) : (n : Nat) → UInt64
  | 0 => seed
  | n + 1 => advanceSeed (seedState seed n)

/-- The key of a seed. -/
def key (seed : UInt64) : Vector UInt32 8 :=
  Vector.ofFn fun i => seedWord (seedState seed (i + 1))

/-- The stream of a seed. -/
def stream (seed : UInt64) : RandomStream :=
  let k := key seed
  { block := block k }

end FederatedTime.ChaCha
