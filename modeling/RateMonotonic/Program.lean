/-
**The program**: from arguments and files to an exit code and the text on standard output.

Main definitions:
* `Surroundings` — files, standard input, processes and the present instant;
* `Ending` — exit code and output;
* `Program.run` — the whole program.
-/

import RateMonotonic.Json.Config
import RateMonotonic.Manual
import RateMonotonic.Session

set_option relaxedAutoImplicit false
set_option autoImplicit false

namespace RateMonotonic

/-- What the program finds around it. -/
structure Surroundings where
  /-- The variables that hold paths. -/
  environment : PathOption → Option String
  /-- The bytes of a file, if it can be read. -/
  file : String → Option ByteArray
  standardInput : ByteArray
  /-- The live processes. -/
  resolver : Resolver
  now : Instant

/-- How the program ends. -/
structure Ending where
  code : Nat
  output : String
deriving DecidableEq, Repr

namespace Program

/-- The configuration of an invocation. -/
def configuration (w : Surroundings) (i : Invocation) : Except Failure Config :=
  match i.config with
  | none => .ok Config.default
  | some path => Config.load (w.file path)

/-- The commands of an invocation, if they can be read. -/
def commands (w : Surroundings) (i : Invocation) : Option ByteArray :=
  match i.input with
  | none => some w.standardInput
  | some path => w.file path

/-- The scheduler of an invocation, with its dispatcher loop started. -/
def scheduler (w : Surroundings) (i : Invocation) : Except Failure Scheduler := do
  let c ← configuration w i
  match Scheduler.new c with
  | .error e => throw (.scheduler e)
  | .ok s =>
      match s.start with
      | (.error e, _) => throw (.scheduler e)
      | (.ok _, started) => return started

/-- A program that fails. -/
def failing : Ending := ⟨1, ""⟩

/-- A program that breaks down. -/
def breakdown : Ending := ⟨101, ""⟩

/-- The session over some commands, and the summary if it is asked for. -/
def sessionOver (w : Surroundings) (i : Invocation) (s : Scheduler) (bytes : ByteArray) : Ending :=
  let done := Session.run w.resolver w.now none s bytes.toList
  match done.result with
  | .error _ => ⟨1, done.out⟩
  | .ok summary => ⟨0, done.out ++ if i.json then summary.text ++ "\n" else ""⟩

/-- The session of an invocation.  The scheduler is set up before the commands are looked for. -/
def session (w : Surroundings) (i : Invocation) : Ending :=
  match scheduler w i with
  | .error _ => failing
  | .ok s =>
      if s.config.isRealizable then
        match commands w i with
        | none => failing
        | some bytes => sessionOver w i s bytes
      else breakdown

/-- The paths that the arguments name. -/
def paths (environment : PathOption → Option String) (arguments : List String) : List String :=
  match Invocation.ofArguments environment arguments with
  | .error _ => []
  | .ok i => [i.input, i.config].filterMap id

/-- Whether commands come from standard input. -/
def readsStandardInput (environment : PathOption → Option String) (arguments : List String) : Bool :=
  match Invocation.ofArguments environment arguments with
  | .error _ => false
  | .ok i => i.input.isNone

/-- The whole program. -/
def run (w : Surroundings) (arguments : List String) : Ending :=
  match Invocation.ofArguments w.environment arguments with
  | .error (.help true) => ⟨0, Manual.longHelp w.environment⟩
  | .error (.help false) => ⟨0, Manual.shortHelp w.environment⟩
  | .error .version => ⟨0, Manual.version⟩
  | .error .misuse => ⟨2, ""⟩
  | .ok i => session w i

end Program

end RateMonotonic
