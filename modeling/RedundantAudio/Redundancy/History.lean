import RedundantAudio.Log
import RedundantAudio.Red.Block

/-!
# The Encoding History

The primaries that a sender has sent lately and may send again, oldest first.
An entry leaves when it grows too old, and an encoding that is not worth
repeating never enters.

Ages are differences of media times that wrap, and eviction looks at the
oldest entries only. As long as media time runs forward that is the same as
dropping everything that is too old; when it does not, the history could grow
without end, so there is a cap, and reaching it starts the history afresh.

## Main definitions

* `Entry`: A primary that was sent.
* `History`: The recent primaries.
* `History.find`: The entry of a media time.
* `History.update`: Records the primary just sent.
-/

namespace RedundantAudio

namespace Redundancy

/-- A primary that was sent. -/
structure Entry where
  /-- Its media time. -/
  timestamp : UInt32
  /-- The encoding. -/
  payload : Bytes
  deriving DecidableEq, Repr

/-- The recent primaries of a stream. -/
structure History where
  /-- The most entries to hold. -/
  maxSize : Nat := 10
  /-- The age at which an entry leaves. -/
  maxAge : UInt32 := Red.reach * Red.packetInterval
  /-- The entries, oldest first. -/
  entries : List Entry := []
  deriving DecidableEq, Repr

namespace History

/-- The oldest entry of a media time. -/
def find (h : History) (timestamp : UInt32) : Option Entry :=
  h.entries.find? fun e => e.timestamp = timestamp

/-- The entries that are young enough at a media time. Only the oldest ones
    are looked at, up to the first that stays. -/
def youngEnough (h : History) (timestamp : UInt32) : List Entry :=
  h.entries.dropWhile fun e => timestamp - e.timestamp ≥ h.maxAge

/-- Whether there is no room for one more entry at a media time. -/
def isFull (h : History) (timestamp : UInt32) : Bool :=
  (h.youngEnough timestamp).length + 1 > h.maxSize

/-- Records the primary just sent, if it is worth repeating. A full history
    is cleared first. -/
def update (h : History) (timestamp : UInt32) (payload : Bytes) (important : Bool) : History :=
  { h with
    entries :=
      if !important then h.youngEnough timestamp
      else if h.isFull timestamp then [⟨timestamp, payload⟩]
      else h.youngEnough timestamp ++ [⟨timestamp, payload⟩] }

/-- What a history tells about an update. -/
def updateLog (h : History) (timestamp : UInt32) (important : Bool) : List Log.Line :=
  if important && h.isFull timestamp then
    let held := (h.youngEnough timestamp).length
    [⟨.debug, .senderHistory, s!"encoding history full ({held} entries), clearing"⟩]
  else []

end History

end Redundancy

end RedundantAudio
