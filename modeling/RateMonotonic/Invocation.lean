/-
**Invocations**: the arguments of the command line and what they ask for.

An option with a path takes it from the next argument, or behind an equals sign; a letter takes it
also from the rest of its own argument.  Letters of flags may share one argument.  No option may
come twice, except that verbosity adds up.  Help and version are given as soon as they are asked
for; an argument that is none of these is a misuse.  A path that is not given is taken from the
environment.

Main definitions:
* `PathOption`, `Flag` — the options, with their words and letters;
* `Invocation` — what a command line asks for;
* `Invocation.Stop` — why there is nothing to run;
* `Invocation.ofArguments` — the invocation of a row of arguments.
-/

set_option relaxedAutoImplicit false
set_option autoImplicit false

namespace RateMonotonic

/-- An option that takes a path. -/
inductive PathOption where
  | input
  | config
deriving DecidableEq, Repr

/-- An option that takes nothing. -/
inductive Flag where
  /-- Priorities are left alone. -/
  | noPriority
  /-- A summary follows the session. -/
  | json
  /-- More is logged. -/
  | verbose
  /-- Help is asked for; the word asks for more than the letter. -/
  | help
  | version
deriving DecidableEq, Repr

/-- An option. -/
inductive CommandOption where
  | path (o : PathOption)
  | flag (f : Flag)
deriving DecidableEq, Repr

/-- The word of an option. -/
def CommandOption.word : CommandOption → String
  | .path .input => "input"
  | .path .config => "config"
  | .flag .noPriority => "no-priority"
  | .flag .json => "json"
  | .flag .verbose => "verbose"
  | .flag .help => "help"
  | .flag .version => "version"

/-- The letter of an option. -/
def CommandOption.letter? : CommandOption → Option Char
  | .path .input => some 'i'
  | .path .config => some 'c'
  | .flag .noPriority => none
  | .flag .json => none
  | .flag .verbose => some 'v'
  | .flag .help => some 'h'
  | .flag .version => some 'V'

/-- All options, in the order of the help. -/
def CommandOption.all : List CommandOption :=
  [.path .input, .path .config, .flag .noPriority, .flag .json, .flag .verbose, .flag .help,
    .flag .version]

/-- The option of a word. -/
def CommandOption.ofWord? (word : String) : Option CommandOption := all.find? (·.word = word)

/-- The option of a letter. -/
def CommandOption.ofLetter? (letter : Char) : Option CommandOption :=
  all.find? (·.letter? = some letter)

/-- What a command line asks for. -/
structure Invocation where
  input : Option String
  config : Option String
  /-- Whether priorities are left alone. -/
  noPriority : Bool
  /-- Whether a summary follows the session. -/
  json : Bool
  /-- How much more is logged. -/
  verbosity : Nat
deriving DecidableEq, Repr, Inhabited

namespace Invocation

/-- Nothing special is asked for. -/
def usual : Invocation := ⟨none, none, false, false, 0⟩

/-- Why there is nothing to run. -/
inductive Stop where
  /-- Help is asked for, a short one or a long one. -/
  | help (long : Bool)
  | version
  /-- The arguments make no sense. -/
  | misuse
deriving DecidableEq, Repr

/-- The path given for an option. -/
def path? (i : Invocation) : PathOption → Option String
  | .input => i.input
  | .config => i.config

/-- Give a path for an option: it must not be empty, and none must have been given. -/
def give (i : Invocation) (o : PathOption) (value : List Char) : Except Stop Invocation :=
  if value.isEmpty ∨ (i.path? o).isSome then .error .misuse
  else
    match o with
    | .input => .ok { i with input := some (String.ofList value) }
    | .config => .ok { i with config := some (String.ofList value) }

/-- Raise a flag, given by its word or by its letter. -/
def raise (i : Invocation) (byWord : Bool) : Flag → Except Stop Invocation
  | .noPriority => if i.noPriority then .error .misuse else .ok { i with noPriority := true }
  | .json => if i.json then .error .misuse else .ok { i with json := true }
  | .verbose => .ok { i with verbosity := i.verbosity + 1 }
  | .help => .error (.help byWord)
  | .version => .error .version

/-! ### Arguments -/

/-- How far the arguments have been read. -/
structure Progress where
  /-- What they ask for so far. -/
  given : Invocation
  /-- The option whose path comes next. -/
  pending : Option PathOption
  /-- Whether no more options may come. -/
  closed : Bool

/-- An argument that starts with two dashes, without them. -/
def readWord (p : Progress) (cs : List Char) : Except Stop Progress :=
  let name := String.ofList (cs.takeWhile (· ≠ '='))
  let rest := cs.dropWhile (· ≠ '=')
  match CommandOption.ofWord? name, rest with
  | none, _ => .error .misuse
  | some (.path o), [] => .ok { p with pending := some o }
  | some (.path o), _ :: value => (fun i => { p with given := i }) <$> p.given.give o value
  | some (.flag f), [] => (fun i => { p with given := i }) <$> p.given.raise true f
  | some (.flag _), _ :: _ => .error .misuse

/-- A value behind a letter, without an equals sign before it. -/
def dropEquals : List Char → List Char
  | [] => []
  | c :: rest => if c = '=' then rest else c :: rest

/-- The letters behind one dash. -/
def readLetters (p : Progress) : List Char → Except Stop Progress
  | [] => .ok p
  | c :: rest =>
      match CommandOption.ofLetter? c with
      | none => .error .misuse
      | some (.path o) =>
          if rest.isEmpty then .ok { p with pending := some o }
          else (fun i => { p with given := i }) <$> p.given.give o (dropEquals rest)
      | some (.flag f) =>
          match p.given.raise false f with
          | .error stop => .error stop
          | .ok i => readLetters { p with given := i } rest

/-- One argument.  A path that is awaited does not start with a dash, unless it is one. -/
def readArgument (p : Progress) (cs : List Char) : Except Stop Progress :=
  if p.closed then .error .misuse
  else
    match p.pending, cs with
    | some o, cs =>
        -- The path is missing, even if what comes instead asks for help.
        if cs.head? = some '-' ∧ cs ≠ ['-'] then .error .misuse
        else (fun i => { p with given := i, pending := none }) <$> p.given.give o cs
    | none, '-' :: '-' :: word => if word = [] then .ok { p with closed := true } else readWord p word
    | none, '-' :: letters => if letters = [] then .error .misuse else readLetters p letters
    | none, _ => .error .misuse

/-- Arguments in order. -/
def readArguments : Progress → List String → Except Stop Progress
  | p, [] => .ok p
  | p, a :: rest =>
      match readArgument p a.toList with
      | .error stop => .error stop
      | .ok next => readArguments next rest

/-- Take a path from the environment, if it was not given. -/
def fill (environment : PathOption → Option String) (i : Invocation) (o : PathOption) :
    Except Stop Invocation :=
  match i.path? o, environment o with
  | none, some value => i.give o value.toList
  | _, _ => .ok i

/-- The invocation of a row of arguments in an environment. -/
def ofArguments (environment : PathOption → Option String) (arguments : List String) :
    Except Stop Invocation := do
  let p ← readArguments ⟨usual, none, false⟩ arguments
  if p.pending.isSome then throw .misuse
  let i ← fill environment p.given .input
  fill environment i .config

end Invocation

end RateMonotonic
