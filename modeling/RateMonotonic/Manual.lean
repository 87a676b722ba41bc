/-
**The manual page** of the command line.

The short help has one line per option with its explanation in a column; the long help explains the
commands first and has every explanation on a line of its own.  Both show the values of environment
variables; the lines of a value stand below each other.

Both helps are laid out for a terminal, with words to be typed in bold, and then freed of all
control sequences, those of the values included.  A sequence that a value leaves open takes what
follows with it, up to the next word in bold.

Main definitions:
* `Manual.version` — name and number of the program;
* `Manual.shortHelp`, `Manual.longHelp` — the two helps.
-/

import RateMonotonic.Invocation
import RateMonotonic.Text.ControlSequence

set_option relaxedAutoImplicit false
set_option autoImplicit false

namespace RateMonotonic.Manual

/-- Name and number of the program. -/
def version : String := "rmsctl 0.1.0\n"

/-- What the program does, in one line. -/
def about : String := "Drive a rate-monotonic scheduler with R/Y/D/S commands\n"

/-- What the program does, at length. -/
def description : String :=
  "rmsctl runs a rate-monotonic scheduler in-process and applies one command per\n" ++
  "input line:\n" ++
  "\n" ++
  "  R, <pid>, <period ms>, <budget ms>.   register a process\n" ++
  "  Y, <pid>.                             end the process's current job\n" ++
  "  D, <pid>.                             deregister a process\n" ++
  "  S                                     print the status report\n" ++
  "\n" ++
  "Dispatched processes are moved into a real-time scheduling class, which needs\n" ++
  "CAP_SYS_NICE. Use --no-priority to only track scheduling state.\n" ++
  "\n"

/-- A word that is typed as it stands, in bold. -/
def literal (word : String) : String := "\x1b[1m" ++ word ++ "\x1b[0m"

/-- The heading of a part, in bold and underlined. -/
def heading (title : String) : String := "\x1b[1m\x1b[4m" ++ title ++ "\x1b[0m"

/-- The line on the use of the program. -/
def usage : String :=
  "\n" ++ heading "Usage:" ++ " " ++ literal "rmsctl" ++ " [OPTIONS]\n\n" ++
  heading "Options:" ++ "\n"

/-- How an option is given. -/
def form (o : CommandOption) : String :=
  let letter := match o.letter? with
    | some c => literal ("-" ++ c.toString) ++ ", "
    | none => "    "
  let suffix := match o with
    | .path .input => " <INPUT>"
    | .path .config => " <CONFIG>"
    | .flag .verbose => "..."
    | .flag _ => ""
  letter ++ literal ("--" ++ o.word) ++ suffix

/-- The explanation of an option. -/
def explanation (long : Bool) : CommandOption → String
  | .path .input => "Read commands from a file instead of stdin"
  | .path .config => "Scheduler configuration (JSON)"
  | .flag .noPriority => "Do not change OS scheduling priorities"
  | .flag .json => "Print a JSON session summary on exit"
  | .flag .verbose => "Verbose logging"
  | .flag .help =>
      if long then "Print help (see a summary with '-h')" else "Print help (see more with '--help')"
  | .flag .version => "Print version"

/-- The name of the variable from which an option takes its path. -/
def variableName : PathOption → String
  | .input => "RMSCTL_INPUT"
  | .config => "RMSCTL_CONFIG"

/-- What the environment says about an option. -/
def environmentNote (environment : PathOption → Option String) : CommandOption → Option String
  | .path o => some ("[env: " ++ variableName o ++ "=" ++ (environment o).getD "" ++ "]")
  | .flag _ => none

/-- The width of a text on the page. -/
def width (text : String) : Nat := (ControlSequence.removed text).length

/-- A text made up to a width with spaces. -/
def padded (column : Nat) (text : String) : String :=
  text ++ String.ofList (List.replicate (column - width text) ' ')

/-- The width of the column of forms. -/
def formWidth : Nat := (CommandOption.all.map fun o => width (form o)).foldl max 0

/-- A text whose lines, all but the first, stand behind this many spaces. -/
def indented (column : Nat) (text : String) : String :=
  String.ofList (text.toList.flatMap fun c =>
    if c = '\n' then '\n' :: List.replicate column ' ' else [c])

/-- The line of an option in the short help. -/
def shortLine (environment : PathOption → Option String) (o : CommandOption) : String :=
  let note := match environmentNote environment o with
    | some text => " " ++ text
    | none => ""
  let column := formWidth + 4
  padded column ("  " ++ form o) ++ indented column (explanation false o ++ note) ++ "\n"

/-- The column of explanations in the long help. -/
def longColumn : Nat := 10

/-- The lines of an option in the long help. -/
def longLines (environment : PathOption → Option String) (o : CommandOption) : String :=
  let note := match environmentNote environment o with
    | some text => "\n\n" ++ text
    | none => ""
  "  " ++ form o ++ indented longColumn ("\n" ++ explanation true o ++ note) ++ "\n"

/-- The short help. -/
def shortHelp (environment : PathOption → Option String) : String :=
  ControlSequence.removed <|
    about ++ usage ++ String.join (CommandOption.all.map (shortLine environment))

/-- The long help. -/
def longHelp (environment : PathOption → Option String) : String :=
  ControlSequence.removed <|
    description ++ usage ++ "\n".intercalate (CommandOption.all.map (longLines environment))

end RateMonotonic.Manual
