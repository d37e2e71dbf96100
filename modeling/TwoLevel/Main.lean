import TwoLevel.CommandLine.Report

/-
  This file connects the command line to the outside: the file
  that is named is read, the lines of the outcome are printed
  with the records among them, and what made the run fail goes
  to the error stream.

  The texts of the argument reader are not defined here: it is
  silent about help, the version, and arguments that it does
  not understand, and only the exit code tells. A record is
  printed without the time and the place it comes from. The
  chart that is drawn for printing leaves no record of its
  own.
-/

section Main

open TwoLevel

/- The contents of a file that can be read. -/
def readContents
    (path : String) : IO (Option String) := do
  try
    return some (← IO.FS.readFile path)
  catch _ =>
    return none

/- The contents of the file that is named, if one is. -/
def readInput
    (options? : Option CommandLine.Options) :
    IO (Option String) :=
  match options?.bind CommandLine.Options.input? with
  | some path => readContents path
  | none => pure none

def main
    (arguments : List String) : IO UInt32 := do
  let start ← IO.monoMsNow
  let request? := CommandLine.parse arguments
  let options? :=
    request?.bind CommandLine.Request.options?
  let contents? ← readInput options?
  let outcome :=
    CommandLine.respond (fun _ => contents?) request?
  let records :=
    match options? with
    | some options =>
        CommandLine.records (fun _ => contents?) options
    | none => []
  for line in outcome.transcript records do
    IO.println line
  match outcome with
  | .answered => pure ()
  | .printed _ =>
      let finish ← IO.monoMsNow
      IO.println (CommandLine.doneLine (finish - start))
  | .failed _ message =>
      IO.eprintln ("Error: " ++ message)
  | .refused => pure ()
  return outcome.exitCode

end Main
