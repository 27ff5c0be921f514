/-!
# Byte Strings and Their Fields

A packet is a list of bytes, and every field wider than a byte is written
high byte first. Lists rather than arrays, because every reader in this
library eats its input from the front: a header reader is then a recursion on
the bytes that are left, and the bytes that a reader did not look at are a
suffix of its input by construction.

Audio files, unlike packets, keep their fields low byte first, so both orders
live here.

## Main definitions

* `Bytes`: A byte string.
* `be16`, `be32`: A word as bytes, high byte first.
* `ofBe16`, `ofBe32`: The word that such bytes stand for.
* `ofLe16`, `ofLe32`: The word that bytes in the opposite order stand for.
* `total`: What the sizes of consecutive pieces add up to.
-/

namespace RedundantAudio

/-- A byte string, first byte first. -/
abbrev Bytes := List UInt8

namespace Wire

/-- A 16-bit word as two bytes, high byte first. -/
def be16 (w : UInt16) : Bytes :=
  [(w >>> 8).toUInt8, w.toUInt8]

/-- A 32-bit word as four bytes, high byte first. -/
def be32 (w : UInt32) : Bytes :=
  [(w >>> 24).toUInt8, (w >>> 16).toUInt8, (w >>> 8).toUInt8, w.toUInt8]

/-- The word written as these two bytes, high byte first. -/
def ofBe16 (a b : UInt8) : UInt16 :=
  (a.toUInt16 <<< 8) ||| b.toUInt16

/-- The word written as these four bytes, high byte first. -/
def ofBe32 (a b c d : UInt8) : UInt32 :=
  (a.toUInt32 <<< 24) ||| (b.toUInt32 <<< 16) ||| (c.toUInt32 <<< 8) ||| d.toUInt32

/-- The word written as these two bytes, low byte first. -/
def ofLe16 (a b : UInt8) : UInt16 :=
  ofBe16 b a

/-- The word written as these four bytes, low byte first. -/
def ofLe32 (a b c d : UInt8) : UInt32 :=
  ofBe32 d c b a

/-- What sizes add up to. -/
def total : List Nat → Nat
  | [] => 0
  | size :: sizes => size + total sizes

end Wire

end RedundantAudio
