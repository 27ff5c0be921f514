import RedundantAudio.Cli.Failure
import RedundantAudio.Cli.Filter
import RedundantAudio.Cli.ReceiverProgram
import RedundantAudio.Cli.SystemError

/-!
# What a Program Shows

What a program writes while it runs, and how it ends. A program that is
misused says so and ends with status two. Otherwise it writes the log lines
that the environment asks for and ends with status zero, or says why it failed
and ends with status one. A program that is still running has no status.

A log line is colored if the command line or the environment asks for it. A
complaint about the command line is colored only if the environment insists,
and if it is not, commands to the terminal are left away from the words that
it repeats.

## Main definitions

* `Environment`: The variables of a program.
* `Outcome`: What a program shows.
* `Outcome.ofLog`: What a program that was started shows.
* `sendingOutcome`, `receivingOutcome`: What the two programs show.
-/

namespace RedundantAudio

namespace Cli

/-- The variables of a program, with their values. -/
abbrev Environment := List (String × String)

/-- What a program shows. -/
structure Outcome where
  /-- How it ended, if it has. -/
  status : Option Nat
  /-- What it wrote, line by line. -/
  lines : List String
  /-- Whether any of that is colored. -/
  isColored : Bool
  deriving DecidableEq, Repr

namespace Outcome

/-- What a program shows whose command line gives no settings. Help and
    version are not written where errors are. -/
def ofEnding (env : Environment) : Ending → Outcome
  | .help | .version => ⟨some 0, [], false⟩
  | .misuse what =>
    if insistsOnColor (fun name => env.lookup name) then ⟨some 2, what.lines, true⟩
    else ⟨some 2, (what.mapWords Text.dropCommands).lines, false⟩

/-- What a program shows that was started and told so much, if its output is
    no terminal. -/
def ofLog (env : Environment) (color : ColorChoice) (told : List Log.Line) (status : Option Nat)
    (failure : Option Failure) : Outcome :=
  let shown := told.filter (Filter.ofEnvironment (env.lookup "RUST_LOG")).allows
  let said := match failure with
    | some f => f.lines
    | none => []
  { status
    lines := shown.map Log.Line.render ++ said
    isColored := color.allows (env.map (·.1)) false && !shown.isEmpty }

end Outcome

/-- What the sending program shows from start to end. -/
def sendingOutcome (words : List String) (env : Environment) (world : SenderWorld)
    (network : String → Rtp.Frame → Transmission.Sent) : Outcome :=
  match SenderSettings.ofWords words with
  | .error ending => .ofEnding env ending
  | .ok s =>
    match s.prepare world with
    | .error (told, failure) => .ofLog env s.color told (some 1) (some failure)
    | .ok prepared =>
      .ofLog env s.color (prepared.lines ++ prepared.run (network s.remote)) (some 0) none

/-- What the receiving program shows in so many milliseconds if no packet
    comes. It ends if that is longer than it waits for packets. -/
def receivingOutcome (words : List String) (env : Environment)
    (world : ReceiverSettings.World) (watched : Nat) : Outcome :=
  match ReceiverSettings.ofWords words with
  | .error ending => .ofEnding env ending
  | .ok s =>
    match s.prepare world with
    | .error (told, failure) => .ofLog env s.color told (some 1) (some failure)
    | .ok (told, session) =>
      match session.config.idleTimeout.filter (· < watched) with
      | none => .ofLog env s.color told none none
      | some idle =>
        let elapsed := idle * Reception.nanosPerMilli
        let (last, failure) := ReceiverSettings.finish session elapsed SystemError.noSpace.message
        .ofLog env s.color (told ++ session.stop elapsed ++ last)
          (some (if failure.isSome then 1 else 0)) failure

end Cli

end RedundantAudio
