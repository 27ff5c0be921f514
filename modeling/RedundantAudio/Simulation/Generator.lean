/-!
# Reproducible Draws

A generator of 64-bit numbers that look random and are a function of a key
and a position. It is the ChaCha stream cipher with twelve rounds: block
number `n` of the stream is a fixed scrambling of the key and `n`, and draws
read the stream front to back. Nothing has to be carried from one draw to the
next but the position, so a run is the same whoever asks for it and however
often.

A block is sixteen words in four rows. The quarter round, which the cipher
applies to four columns and then to four diagonals, works on all of them at
once when it is written for rows: turning three of the rows moves the
diagonals into the columns.

## Main definitions

* `Row`, `Grid`: The words of a block.
* `Grid.block`: One block of the stream of a key.
* `Key.ofSeed`: The key that a short seed stands for.
* `Generator.draw`: The next number.
-/

namespace RedundantAudio

namespace Simulation

/-- Four words of a block. -/
structure Row where
  w0 : UInt32
  w1 : UInt32
  w2 : UInt32
  w3 : UInt32
  deriving DecidableEq, Repr

/-- A word turned to the left. -/
def turnLeft (word : UInt32) (bits : UInt32) : UInt32 :=
  (word <<< bits) ||| (word >>> (32 - bits))

namespace Row

/-- Applies an operation to each word. -/
def map (f : UInt32 → UInt32) (r : Row) : Row :=
  ⟨f r.w0, f r.w1, f r.w2, f r.w3⟩

/-- Applies an operation to the words of two rows, place by place. -/
def zip (f : UInt32 → UInt32 → UInt32) (r s : Row) : Row :=
  ⟨f r.w0 s.w0, f r.w1 s.w1, f r.w2 s.w2, f r.w3 s.w3⟩

/-- Moves every word one place to the front, the first one to the end. -/
def turn (r : Row) : Row :=
  ⟨r.w1, r.w2, r.w3, r.w0⟩

/-- The words of a row. -/
def toList (r : Row) : List UInt32 :=
  [r.w0, r.w1, r.w2, r.w3]

end Row

/-- The sixteen words of a block. -/
structure Grid where
  a : Row
  b : Row
  c : Row
  d : Row
  deriving DecidableEq, Repr

/-- The secret half of a block. -/
structure Key where
  first : Row
  second : Row
  deriving DecidableEq, Repr

namespace Grid

/-- The first row of every block before it is scrambled. -/
def constants : Row :=
  ⟨0x61707865, 0x3320646E, 0x79622D32, 0x6B206574⟩

/-- The quarter round on all four columns. -/
def columnRound (g : Grid) : Grid :=
  let a := g.a.zip (· + ·) g.b
  let d := (g.d.zip (· ^^^ ·) a).map (turnLeft · 16)
  let c := g.c.zip (· + ·) d
  let b := (g.b.zip (· ^^^ ·) c).map (turnLeft · 12)
  let a := a.zip (· + ·) b
  let d := (d.zip (· ^^^ ·) a).map (turnLeft · 8)
  let c := c.zip (· + ·) d
  let b := (b.zip (· ^^^ ·) c).map (turnLeft · 7)
  { a, b, c, d }

/-- Moves the diagonals into the columns. -/
def toDiagonals (g : Grid) : Grid :=
  { g with b := g.b.turn, c := g.c.turn.turn, d := g.d.turn.turn.turn }

/-- Moves the diagonals back. -/
def ofDiagonals (g : Grid) : Grid :=
  { g with b := g.b.turn.turn.turn, c := g.c.turn.turn, d := g.d.turn }

/-- One round on the columns and one on the diagonals. -/
def doubleRound (g : Grid) : Grid :=
  g.columnRound.toDiagonals.columnRound.ofDiagonals

/-- Several double rounds. -/
def rounds : Nat → Grid → Grid
  | 0, g => g
  | n + 1, g => rounds n g.doubleRound

/-- A block before it is scrambled. -/
def start (key : Key) (number : Nat) : Grid where
  a := constants
  b := key.first
  c := key.second
  d := ⟨.ofNat number, .ofNat (number / UInt32.size), 0, 0⟩

/-- One block of the stream of a key. -/
def block (key : Key) (number : Nat) : List UInt32 :=
  let before := start key number
  let after := rounds 6 before
  (after.a.zip (· + ·) before.a).toList ++ (after.b.zip (· + ·) before.b).toList
    ++ (after.c.zip (· + ·) before.c).toList ++ (after.d.zip (· + ·) before.d).toList

end Grid

namespace Key

/-- One step of the linear recurrence that spreads a seed over a key. -/
def spread (state : UInt64) : UInt64 :=
  state * 6364136223846793005 + 11634580027462260723

/-- The word that a state of the recurrence gives: its upper bits, mixed and
    turned to the right by its topmost ones. -/
def wordOf (state : UInt64) : UInt32 :=
  let mixed := (((state >>> 18) ^^^ state) >>> 27).toUInt32
  let bits := (state >>> 59).toUInt32
  (mixed >>> bits) ||| (mixed <<< ((32 - bits) % 32))

/-- So many words of the recurrence. -/
def words : Nat → UInt64 → List UInt32
  | 0, _ => []
  | n + 1, state => wordOf (spread state) :: words n (spread state)

/-- The key with the given words; words that are missing are zero. -/
def ofWords (ws : List UInt32) : Key :=
  let word (i : Nat) : UInt32 := ws.getD i 0
  ⟨⟨word 0, word 1, word 2, word 3⟩, ⟨word 4, word 5, word 6, word 7⟩⟩

/-- The key that a short seed stands for. -/
def ofSeed (seed : UInt64) : Key :=
  ofWords (words 8 seed)

end Key

/-- A position in the stream of a key. -/
structure Generator where
  /-- The key. -/
  key : Key
  /-- How many numbers were drawn. -/
  drawn : Nat := 0
  deriving DecidableEq, Repr

namespace Generator

/-- A generator at the start of the stream of a seed. -/
def ofSeed (seed : UInt64) : Generator where
  key := .ofSeed seed

/-- The number at the current position. A number takes two words, the lower
    half first, and eight numbers fill a block. -/
def current (g : Generator) : UInt64 :=
  let words := Grid.block g.key (g.drawn / 8)
  let low := words.getD (2 * (g.drawn % 8)) 0
  let high := words.getD (2 * (g.drawn % 8) + 1) 0
  low.toUInt64 ||| (high.toUInt64 <<< 32)

/-- Draws a number. -/
def draw (g : Generator) : Generator × UInt64 :=
  ({ g with drawn := g.drawn + 1 }, g.current)

/-- Draws whether something of the given probability happens. What is certain
    takes no draw. -/
def happens (g : Generator) (probability : Float) : Generator × Bool :=
  if probability == 1 then (g, true)
  else
    let (g, number) := g.draw
    (g, number < (probability * 18446744073709551616).toUInt64)

end Generator

end Simulation

end RedundantAudio
