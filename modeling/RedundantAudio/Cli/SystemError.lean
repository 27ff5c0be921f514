/-!
# Errors of the Operating System

A file or a socket that the operating system refuses is refused with a number,
which messages give after the words for it.

## Main definitions

* `SystemError`: The errors that a program meets.
* `SystemError.number`: The number of an error.
* `SystemError.message`: What messages say of an error.
* `SystemError.ofNumber`: The error with a number.
-/

namespace RedundantAudio

namespace Cli

/-- Why the operating system refuses something. -/
inductive SystemError
  /-- The program may not do it. -/
  | notPermitted
  /-- There is no such file. -/
  | noSuchFile
  /-- The file is not for the program. -/
  | permissionDenied
  /-- A part of the path is no directory. -/
  | notDirectory
  /-- The file is a directory. -/
  | isDirectory
  /-- An argument makes no sense. -/
  | invalidArgument
  /-- The device is full. -/
  | noSpace
  /-- A path or a name in it is too long. -/
  | nameTooLong
  /-- The datagram is too long. -/
  | messageTooLong
  /-- The socket is for addresses of another kind. -/
  | otherFamily
  /-- Another socket has the address. -/
  | addressInUse
  /-- The address belongs to another host. -/
  | addressUnavailable
  /-- No way leads to the address. -/
  | networkUnreachable
  /-- Nobody takes datagrams at the address. -/
  | connectionRefused
  deriving DecidableEq, Repr

namespace SystemError

/-- All errors. -/
def all : List SystemError :=
  [notPermitted, noSuchFile, permissionDenied, notDirectory, isDirectory, invalidArgument, noSpace,
    nameTooLong, messageTooLong, otherFamily, addressInUse, addressUnavailable,
    networkUnreachable, connectionRefused]

/-- The number of an error. -/
def number : SystemError → Nat
  | notPermitted => 1
  | noSuchFile => 2
  | permissionDenied => 13
  | notDirectory => 20
  | isDirectory => 21
  | invalidArgument => 22
  | noSpace => 28
  | nameTooLong => 36
  | messageTooLong => 90
  | otherFamily => 97
  | addressInUse => 98
  | addressUnavailable => 99
  | networkUnreachable => 101
  | connectionRefused => 111

/-- The words for an error. -/
def words : SystemError → String
  | notPermitted => "Operation not permitted"
  | noSuchFile => "No such file or directory"
  | permissionDenied => "Permission denied"
  | notDirectory => "Not a directory"
  | isDirectory => "Is a directory"
  | invalidArgument => "Invalid argument"
  | noSpace => "No space left on device"
  | nameTooLong => "File name too long"
  | messageTooLong => "Message too long"
  | otherFamily => "Address family not supported by protocol"
  | addressInUse => "Address already in use"
  | addressUnavailable => "Cannot assign requested address"
  | networkUnreachable => "Network is unreachable"
  | connectionRefused => "Connection refused"

/-- What messages say of an error. -/
def message (e : SystemError) : String :=
  let words := e.words
  let number := e.number
  s!"{words} (os error {number})"

/-- The error with a number. -/
def ofNumber (n : Nat) : Option SystemError :=
  all.find? (·.number = n)

end SystemError

end Cli

end RedundantAudio
