import SealedTunnel.Bytes

/-!
# The seeded generator

A reproducible source of randomness: the ChaCha stream cipher with twelve
rounds, keyed from a 64-bit seed.

* `ChaCha.block` — one 16-word block of the key stream.
* `Generator` — a key and the number of words already handed out.
* `Generator.draw` — the next bytes; a request takes whole words.
-/

namespace SealedTunnel

namespace ChaCha

/-- The sixteen words a block is computed on. -/
abbrev State : Type := Vector UInt32 16

/-- Rotate a word to the left. -/
def rotl (x : UInt32) (n : UInt32) : UInt32 := (x <<< n) ||| (x >>> (32 - n))

/-- Mix four words of the state. -/
def quarterRound (s : State) (a b c d : Fin 16) : State :=
  let s := s.set a (s.get a + s.get b)
  let s := s.set d (rotl (s.get d ^^^ s.get a) 16)
  let s := s.set c (s.get c + s.get d)
  let s := s.set b (rotl (s.get b ^^^ s.get c) 12)
  let s := s.set a (s.get a + s.get b)
  let s := s.set d (rotl (s.get d ^^^ s.get a) 8)
  let s := s.set c (s.get c + s.get d)
  s.set b (rotl (s.get b ^^^ s.get c) 7)

/-- One round over the columns and one over the diagonals. -/
def doubleRound (s : State) : State :=
  let s := quarterRound s 0 4 8 12
  let s := quarterRound s 1 5 9 13
  let s := quarterRound s 2 6 10 14
  let s := quarterRound s 3 7 11 15
  let s := quarterRound s 0 5 10 15
  let s := quarterRound s 1 6 11 12
  let s := quarterRound s 2 7 8 13
  quarterRound s 3 4 9 14

/-- The state before the rounds: four constants, the key, a 64-bit block number and a zero nonce. -/
def start (key : Vector UInt32 8) (number : UInt64) : State :=
  #v[0x61707865, 0x3320646e, 0x79622d32, 0x6b206574,
    key.get 0, key.get 1, key.get 2, key.get 3, key.get 4, key.get 5, key.get 6, key.get 7,
    number.toUInt32, (number >>> 32).toUInt32, 0, 0]

/-- The key stream block with this number: twelve rounds, added to the state they started from. -/
def block (key : Vector UInt32 8) (number : UInt64) : State :=
  let s := start key number
  (Nat.repeat doubleRound 6 s).zipWith (· + ·) s

/-- Word `i` of the key stream. -/
def word (key : Vector UInt32 8) (i : Nat) : UInt32 :=
  (block key (UInt64.ofNat (i / 16))).get ⟨i % 16, Nat.mod_lt _ (by decide)⟩

/-- The four bytes of a word, least significant first. -/
def wordBytes (w : UInt32) : Bytes :=
  [w.toUInt8, (w >>> 8).toUInt8, (w >>> 16).toUInt8, (w >>> 24).toUInt8]

end ChaCha

/-- A position in the key stream of one key. -/
structure Generator where
  /-- the stream's key -/
  key : Vector UInt32 8
  /-- how many words have been handed out -/
  taken : Nat

namespace Generator

/-- One step of the linear congruential sequence that stretches a seed into a key. -/
def stretch (s : UInt64) : UInt64 := s * 6364136223846793005 + 11634580027462260723

/-- The key word of a state of that sequence: its high bits folded, then rotated by its top five. -/
def keyWord (s : UInt64) : UInt32 :=
  let folded := (((s >>> 18) ^^^ s) >>> 27).toUInt32
  let turn := (s >>> 59).toUInt32
  (folded >>> turn) ||| (folded <<< ((32 - turn) % 32))

/-- The generator of a seed, at the start of its stream. -/
def ofSeed (seed : UInt64) : Generator where
  key := Vector.ofFn fun i : Fin 8 => keyWord (Nat.repeat stretch (i + 1) seed)
  taken := 0

/-- The number of words that cover `n` bytes. -/
def wordsFor (n : Nat) : Nat := (n + 3) / 4

/-- The bytes of the next words of the stream. -/
def stream (g : Generator) (words : Nat) : Bytes :=
  (List.range words).flatMap fun i => ChaCha.wordBytes (ChaCha.word g.key (g.taken + i))

theorem length_stream (g : Generator) (words : Nat) : (g.stream words).length = 4 * words := by
  simp [stream, ChaCha.wordBytes, List.length_flatMap, List.map_const', Nat.mul_comm]

/-- The next `n` bytes. Whole words are used up: what is left of the last one is dropped. -/
def draw (n : Nat) (g : Generator) : Vector UInt8 n × Generator :=
  let bytes := (g.stream (wordsFor n)).take n
  (⟨bytes.toArray, by
      simp only [bytes, List.size_toArray, List.length_take, length_stream, wordsFor]
      omega⟩,
    { g with taken := g.taken + wordsFor n })

end Generator

end SealedTunnel
