/-!
# How a Program Fails

A program that fails says what it could not do and, below that, what was
behind it, the nearest cause first. Several causes are numbered.

## Main definitions

* `Failure`: Why a program fails.
* `Failure.lines`: What it says.
-/

namespace RedundantAudio

namespace Cli

/-- Why a program fails. -/
structure Failure where
  /-- What it could not do. -/
  message : String
  /-- What was behind it, the nearest cause first. -/
  causes : List String := []
  deriving DecidableEq, Repr

namespace Failure

/-- Numbers causes from a number on. -/
def numbered : Nat → List String → List String
  | _, [] => []
  | n, cause :: causes => s!"    {n}: {cause}" :: numbered (n + 1) causes

/-- The causes, line by line. -/
def causeLines : List String → List String
  | [] => []
  | [cause] => ["", "Caused by:", s!"    {cause}"]
  | causes => "" :: "Caused by:" :: numbered 0 causes

/-- What a failing program says, line by line. -/
def lines (f : Failure) : List String :=
  s!"Error: {f.message}" :: causeLines f.causes

end Failure

end Cli

end RedundantAudio
