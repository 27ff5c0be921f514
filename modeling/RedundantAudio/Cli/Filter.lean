import RedundantAudio.Cli.Directive

/-!
# Which Log Lines to Show

A filter is a list of directives with commas between them. The name in a
directive covers every component whose name starts with it, and where several
directives cover a component the longest name decides, then whether a
directive asks for a field, and of equals the last. What no directive covers
is not shown.

## Main definitions

* `Filter`: The directives of a filter.
* `Filter.ofText`: Reads a filter.
* `Filter.allows`: Whether a line is shown.
-/

namespace RedundantAudio

namespace Cli

/-- The directives of a filter. -/
abbrev Filter := List Directive

namespace Filter

/-- The filter of a program that was not told otherwise. -/
def standard : Filter := [{ verbosity := 3 }]

/-- Reads a filter. One without directives shows errors, and one with a bad
    directive is none at all. -/
def ofText (text : String) : Option Filter :=
  match ((text.splitOn ",").filter (!·.isEmpty)).mapM Directive.ofText with
  | some [] => some [{ verbosity := 1 }]
  | directives => directives

/-- The filter that the environment asks for, or else the standard one. -/
def ofEnvironment (setting : Option String) : Filter :=
  (setting.bind ofText).getD standard

/-- The directive that decides about a component. -/
def decisive (f : Filter) (component : String) : Option Directive :=
  (f.filter (·.covers component)).foldl (fun best d =>
    match best with
    | none => some d
    | some b => if b.isBroaderOrEqual d then some d else some b) none

/-- Whether a line is shown. -/
def allows (f : Filter) (line : Log.Line) : Bool :=
  match f.decisive line.source.name with
  | none => false
  | some d => line.level.verbosity ≤ d.verbosity

end Filter

end Cli

end RedundantAudio
