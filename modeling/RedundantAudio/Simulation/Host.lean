import RedundantAudio.Cli.HostName
import RedundantAudio.Simulation.FileTree
import RedundantAudio.Transmission.Transmitter

/-!
# A Simulated Host

A host that is cut off from every network, for programs that are run without
an operating system. It has the usual directories and devices. It knows its
own name and nobody else's, and there is nobody to ask. Any of its sockets can
be bound, but no packet finds a way, not even back to the host: the only
address that takes packets is the one that stands for no host at all.

## Main definitions

* `Host.find`: The address of a destination.
* `Host.send`: What becomes of a packet.
* `Host.bind`: Binds a socket.
* `Host.files`: The files of the host.
-/

namespace RedundantAudio

namespace Simulation

namespace Host

/-! ### Network -/

/-- What is said about a name that could not be looked up. -/
def lookupFault (reason : String) : String :=
  s!"failed to lookup address information: {reason}"

/-- The address of a destination, or why there is none. A name that makes sense
    may be known to somebody, but nobody answers. -/
def find (place : String) : Except String Cli.Address := do
  match ← Cli.Destination.ofText place with
  | .address a => return a
  | .host name port =>
    match Cli.HostName.ofText name with
    | .v4 octets => return .v4 octets port
    | .v6 groups => return .v6 groups port
    | .itself => return .v4 [127, 0, 0, 1] port
    | .domain => throw (lookupFault "Temporary failure in name resolution")
    | .senseless => throw (lookupFault "Name or service not known")

/-- Why a packet to an address cannot be sent, if it cannot. -/
def sendingFault : Cli.Address → Option Cli.SystemError
  | .v6 _ _ => some .otherFamily
  | .v4 octets port =>
    if port = 0 then some .invalidArgument
    else if octets.all (· = 0) then none
    else some .networkUnreachable

/-- What becomes of a packet to a destination. -/
def send (place : String) (frame : Rtp.Frame) : Transmission.Sent := do
  match sendingFault (← find place) with
  | some e => throw e.message
  | none => return frame.toBytes.length

/-- Why no socket can be bound to an address, if none can. Of version 6 the
    host has no address but the one that stands for all of them, those that
    stand for addresses of version 4, and those of groups beyond the link. -/
def bindingFault : Cli.Address → Option Cli.SystemError
  | .v4 _ _ => none
  | .v6 groups _ =>
    if groups.all (· = 0) || groups.take 6 = [0, 0, 0, 0, 0, 65535] then none
    else if Cli.HostName.isOfLink groups then some .invalidArgument
    else if groups.headD 0 / 256 = 255 then none
    else some .addressUnavailable

/-- The port that is free. -/
def freePort : Nat := 50000

/-- The address of a socket that is bound to an address. A port of zero stands
    for one that is free. -/
def boundAddress : Cli.Address → Cli.Address
  | .v4 octets port => .v4 octets (if port = 0 then freePort else port)
  | .v6 groups port => .v6 groups (if port = 0 then freePort else port)

/-- Binds a socket, and says what address it has. -/
def bind (place : String) : Except String String := do
  let address ← find place
  match bindingFault address with
  | some e => throw e.message
  | none => return (boundAddress address).toText

/-! ### Files -/

/-- The directory for files that do not last. -/
def temporary : Path := ["tmp"]

/-- Where programs are run. -/
def workplace : Path := ["work"]

/-- The directories of the host. -/
def directories : List Path := [
  temporary, workplace, ["bin"], ["boot"], ["dev"], ["dev", "shm"], ["etc"], ["home"], ["lib"],
  ["media"], ["mnt"], ["opt"], ["root"], ["run"], ["sbin"], ["srv"], ["usr"], ["usr", "bin"],
  ["usr", "lib"], ["usr", "local"], ["usr", "sbin"], ["usr", "share"], ["usr", "src"], ["var"],
  ["var", "lib"], ["var", "log"], ["var", "tmp"]]

/-- The devices of the host. -/
def devices : List (Path × Node) := [
  (["dev", "null"], .empty),
  (["dev", "zero"], .endless),
  (["dev", "random"], .endless),
  (["dev", "urandom"], .endless),
  (["dev", "full"], .full)]

/-- The files that tell about the host. -/
def notes : List (Path × Node) := [
  (["etc", "hostname"], .file "host".toUTF8.toList),
  (["etc", "hosts"], .file "127.0.0.1 localhost".toUTF8.toList),
  (["etc", "passwd"], .file "root:x:0:0:root:/root:/bin/sh".toUTF8.toList)]

/-- The files of the host. -/
def files : FileTree where
  nodes := directories.map (·, .directory) ++ devices ++ notes
  home := workplace

/-- The name of the file that a program is given. -/
def givenName : String := "audio.wav"

/-- The path of the file that a program is given. -/
def givenPath : String := "/tmp/audio.wav"

/-- The files of the host, with one that a program is given. -/
def filesWith (given : Option Bytes) : FileTree :=
  match given with
  | none => files
  | some content =>
    { files with nodes := (temporary ++ [givenName], .file content) :: files.nodes }

/-- What a program learns that cannot use a path. A path ends at its first NUL,
    so it may have none. -/
def withPath {α : Type} (path : String) (use : String → Except Cli.SystemError α) :
    Except String α :=
  if Cli.hasNul path then .error Cli.nulFault else (use path).mapError (·.message)

end Host

end Simulation

end RedundantAudio
