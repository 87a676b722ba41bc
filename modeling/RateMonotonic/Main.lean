/-
**The command line**: files, environment and processes are read, the program runs on them, and its
output is printed.

Main definitions:
* `main` — the entry point.
-/

import RateMonotonic.Program

set_option relaxedAutoImplicit false
set_option autoImplicit false

namespace RateMonotonic.CommandLine

/-- The bytes of a file, if it can be read. -/
def readFile? (path : String) : IO (Option ByteArray) := do
  try
    return some (← IO.FS.readBinFile path)
  catch _ =>
    return none

/-- All bytes of a stream. -/
partial def readAll (stream : IO.FS.Stream) (bytes : ByteArray) : IO ByteArray := do
  let more ← stream.read 65536
  if more.isEmpty then return bytes else readAll stream (bytes ++ more)

/-- Whether a process is alive. -/
def isAlive (id : TaskId) : IO Bool := do
  if id.number = 0 then return false
  return (← readFile? ("/proc/" ++ id.text ++ "/stat")).isSome

/-- The present instant. -/
def present : IO Instant := do
  return (Instant.ofNanos? (Int.ofNat (← IO.monoNanosNow))).getD Instant.start

/-- What the program finds around it. -/
def surroundings (arguments : List String) : IO Surroundings := do
  let input ← IO.getEnv (Manual.variableName .input)
  let config ← IO.getEnv (Manual.variableName .config)
  let environment (o : PathOption) : Option String :=
    match o with
    | .input => input
    | .config => config
  let files ← (Program.paths environment arguments).filterMapM fun path => do
    return (← readFile? path).map fun bytes => (path, bytes)
  let standardInput ←
    if Program.readsStandardInput environment arguments then readAll (← IO.getStdin) ByteArray.empty
    else pure ByteArray.empty
  let candidates := (standardInput :: files.map (·.2)).flatMap fun bytes =>
    Session.candidates bytes.toList
  let alive ← candidates.filterM isAlive
  return {
    environment := environment
    file := fun path => (files.find? (·.1 = path)).map (·.2)
    standardInput := standardInput
    resolver := (HandleTable.ofIds alive).resolver
    now := ← present }

end RateMonotonic.CommandLine

/-- Run the program on the arguments of the command line. -/
def main (arguments : List String) : IO UInt32 := do
  let w ← RateMonotonic.CommandLine.surroundings arguments
  let ending := RateMonotonic.Program.run w arguments
  let out ← IO.getStdout
  out.putStr ending.output
  out.flush
  return ending.code.toUInt32
