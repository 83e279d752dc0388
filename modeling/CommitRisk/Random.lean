/-!
# Seeded Random Words

The source of every random choice in this library. A 64-bit seed is stretched
into a key by a permuted congruential generator, and the key drives a stream
cipher of twelve rounds whose blocks, numbered from zero, are read off word by
word. Equal seeds give equal words, so every shuffle and every forest with a
seed can be built again.

An index below a bound is the upper half of the product of a word and the
bound. Words whose lower half lies past the last full multiple of the bound
would favour some indices and are drawn again. At least every second word is
accepted, so the number of draws is limited to one that is never reached.

## Main definitions

* `Words`: A stream of words, as a key and a position.
* `Words.ofSeed`: The stream of a seed.
* `Chance`: The streams of what has no seed.
* `Words.next32`, `Words.next64`: The next word.
* `Words.index32`, `Words.index64`: A uniform index below a bound.
* `shuffle`: The numbers below a bound in random order.
-/

namespace CommitRisk

/-- Four words of a cipher state that are worked on side by side. -/
structure Lanes where
  a : UInt32
  b : UInt32
  c : UInt32
  d : UInt32

namespace Lanes

/-- Combines two rows of lanes. -/
def zipWith (f : UInt32 → UInt32 → UInt32) (x y : Lanes) : Lanes :=
  ⟨f x.a y.a, f x.b y.b, f x.c y.c, f x.d y.d⟩

/-- Rotates every word to the left by fewer than thirty-two bits. -/
def rotate (x : Lanes) (bits : UInt32) : Lanes :=
  let turn (w : UInt32) : UInt32 := (w <<< bits) ||| (w >>> (32 - bits))
  ⟨turn x.a, turn x.b, turn x.c, turn x.d⟩

/-- Moves every word one lane down, the first to the end. -/
def shift (x : Lanes) : Lanes :=
  ⟨x.b, x.c, x.d, x.a⟩

/-- The words in order. -/
def toList (x : Lanes) : List UInt32 :=
  [x.a, x.b, x.c, x.d]

end Lanes

/-- The sixteen words of a cipher state as four rows. -/
structure CipherState where
  top : Lanes
  upper : Lanes
  lower : Lanes
  bottom : Lanes

namespace CipherState

/-- One quarter round on each of the four columns. -/
def columnRound (s : CipherState) : CipherState :=
  let top := s.top.zipWith (· + ·) s.upper
  let bottom := (s.bottom.zipWith (· ^^^ ·) top).rotate 16
  let lower := s.lower.zipWith (· + ·) bottom
  let upper := (s.upper.zipWith (· ^^^ ·) lower).rotate 12
  let top := top.zipWith (· + ·) upper
  let bottom := (bottom.zipWith (· ^^^ ·) top).rotate 8
  let lower := lower.zipWith (· + ·) bottom
  let upper := (upper.zipWith (· ^^^ ·) lower).rotate 7
  ⟨top, upper, lower, bottom⟩

/-- One quarter round on each of the four diagonals. -/
def diagonalRound (s : CipherState) : CipherState :=
  let t := columnRound ⟨s.top, s.upper.shift, s.lower.shift.shift, s.bottom.shift.shift.shift⟩
  ⟨t.top, t.upper.shift.shift.shift, t.lower.shift.shift, t.bottom.shift⟩

/-- The given number of pairs of rounds. -/
def doubleRounds : Nat → CipherState → CipherState
  | 0, s => s
  | n + 1, s => doubleRounds n s.columnRound.diagonalRound

/-- Adds two states word by word. -/
def add (s t : CipherState) : CipherState :=
  ⟨s.top.zipWith (· + ·) t.top, s.upper.zipWith (· + ·) t.upper,
    s.lower.zipWith (· + ·) t.lower, s.bottom.zipWith (· + ·) t.bottom⟩

/-- The state of a numbered block: the cipher's constants, the key, and the
    block number with two words of zero. -/
def ofKey (first second : Lanes) (block : UInt64) : CipherState where
  top := ⟨0x61707865, 0x3320646e, 0x79622d32, 0x6b206574⟩
  upper := first
  lower := second
  bottom := ⟨block.toUInt32, (block >>> 32).toUInt32, 0, 0⟩

/-- The words of a block after twelve rounds. -/
def words (s : CipherState) : List UInt32 :=
  let t := (s.doubleRounds 6).add s
  t.top.toList ++ t.upper.toList ++ t.lower.toList ++ t.bottom.toList

end CipherState

/-- A stream of words: the key, the number of the next block and the words of
    the current block that are left. -/
structure Words where
  first : Lanes
  second : Lanes
  block : UInt64
  pending : List UInt32

namespace Words

/-- One step of the generator that stretches a seed, with the word it puts out. -/
def stretch (state : UInt64) : UInt32 × UInt64 :=
  let state := state * 6364136223846793005 + 11634580027462260723
  let x := (((state >>> 18) ^^^ state) >>> 27).toUInt32
  let turn := (state >>> 59).toUInt32
  ((x >>> turn) ||| (x <<< ((32 - turn) % 32)), state)

/-- Four words of key and the state after them. -/
def stretchLanes (state : UInt64) : Lanes × UInt64 :=
  let a := stretch state
  let b := stretch a.2
  let c := stretch b.2
  let d := stretch c.2
  (⟨a.1, b.1, c.1, d.1⟩, d.2)

/-- The stream of a seed. -/
def ofSeed (seed : UInt64) : Words :=
  let first := stretchLanes seed
  let second := stretchLanes first.2
  ⟨first.1, second.1, 0, []⟩

/-- The next word. -/
def next32 (s : Words) : UInt32 × Words :=
  match s.pending with
  | w :: rest => (w, { s with pending := rest })
  | [] =>
      let words := (CipherState.ofKey s.first s.second s.block).words
      (words.headD 0, { s with block := s.block + 1, pending := words.tail })

/-- The next double word, lower half first. -/
def next64 (s : Words) : UInt64 × Words :=
  let low := s.next32
  let high := low.2.next32
  (low.1.toUInt64 ||| (high.1.toUInt64 <<< 32), high.2)

/-- How often a word is drawn again at most. -/
def redraws : Nat := 128

/-- Draws words until the lower half of the product with the bound is at most
    the limit, and takes the upper half. -/
def draw (next : Words → Nat × Words) (size bound limit : Nat) : Nat → Words → Nat × Words
  | 0, s => let word := next s; (word.1 * bound / size, word.2)
  | fuel + 1, s =>
      let word := next s
      let product := word.1 * bound
      if product % size ≤ limit then (product / size, word.2)
      else draw next size bound limit fuel word.2

/-- A uniform index below a positive bound of at most thirty-two bits. The
    limit is the bound moved to the top of the word, which leaves a whole
    number of words for every index. -/
def index32 (s : Words) (bound : Nat) : Nat × Words :=
  let limit := (bound * Nat.pow 2 (31 - Nat.log2 bound) + Nat.pow 2 32 - 1) % Nat.pow 2 32
  draw (fun s => let w := s.next32; (w.1.toNat, w.2)) (Nat.pow 2 32) bound limit redraws s

/-- A uniform index below a positive bound of at most sixty-four bits. The
    limit is the largest that leaves a whole number of words for every index. -/
def index64 (s : Words) (bound : Nat) : Nat × Words :=
  let limit := Nat.pow 2 64 - 1 - (Nat.pow 2 64 - bound) % bound
  draw (fun s => let w := s.next64; (w.1.toNat, w.2)) (Nat.pow 2 64) bound limit redraws s

end Words

/-- The words that come by chance where no seed is given, a stream for every
    purpose that is numbered. -/
abbrev Chance := Nat → Words

/-- Swaps every position from the given one down to the first with a random
    position that is not after it. -/
def shuffleFrom : Nat → Array Nat → Words → Array Nat
  | 0, order, _ => order
  | i + 1, order, s =>
      let target := s.index32 (i + 2)
      shuffleFrom i (order.swapIfInBounds (i + 1) target.1) target.2

/-- The numbers below `n` in the random order of a seed. -/
def shuffle (n : Nat) (seed : UInt64) : List Nat :=
  (shuffleFrom (n - 1) (Array.range n) (Words.ofSeed seed)).toList

end CommitRisk
