import TwoLevel.Config

/-
  This file defines the options of the command line and how
  they are read from its arguments. Options and rows may be
  mixed. After the separator every argument is a row.

  Arguments that cannot be understood are refused. What is
  told about them, and what is answered to a request for help
  or for the version, are texts of the reader's own and not
  defined here.

  Key definitions include:
    * `Options`
    * `Options.text?`
    * `Request`
    * `readOption`
    * `parse`
-/

namespace TwoLevel

namespace CommandLine

------------------------------------------------------------
-- Options
------------------------------------------------------------

/- The rows and settings that the arguments add up to. -/
structure Options where
  rows : List String := []
  input? : Option String := none
  names : List String := []
  threshold? : Option Nat := none
  sequential : Bool := false
  chart : Bool := false
  verbose : Bool := false
  deriving DecidableEq, Repr

/- How the minimization is to run. -/
def Options.config
    (options : Options) : Config where
  parallel := !options.sequential
  threshold := options.threshold?.getD 64

/-
  The text that is read as a table, unless it is in a file
  that is not there. A file that is named takes the place of
  the rows.
-/
def Options.text?
    (contents? : String → Option String)
    (options : Options) : Option String :=
  match options.input? with
  | some path => contents? path
  | none => some (" ".intercalate options.rows)

/- What the arguments ask for. -/
inductive Request where
  | minimize (options : Options)
  | help
  | version
  deriving DecidableEq, Repr

/- The options of a request to minimize. -/
def Request.options? : Request → Option Options
  | minimize options => some options
  | help => none
  | version => none

------------------------------------------------------------
-- Names of Options
------------------------------------------------------------

/- An option that is on when it is named. -/
inductive Switch where
  | sequential
  | chart
  | verbose
  deriving DecidableEq, Repr

/- An option that takes a value. -/
inductive Setting where
  | input
  | names
  | threshold
  deriving DecidableEq, Repr

/- What an option name stands for. -/
inductive Flag where
  | switch (switch : Switch)
  | setting (setting : Setting)
  | help
  | version
  deriving DecidableEq, Repr

/- The long name of a switch. -/
def Switch.name : Switch → String
  | sequential => "sequential"
  | chart => "chart"
  | verbose => "verbose"

/- The long name of a setting. -/
def Setting.name : Setting → String
  | input => "input"
  | names => "names"
  | threshold => "threshold"

/- The long name of an option. -/
def Flag.name : Flag → String
  | switch s => s.name
  | setting s => s.name
  | help => "help"
  | version => "version"

/- All options. -/
def Flag.all : List Flag :=
  [.switch .sequential, .switch .chart, .switch .verbose,
    .setting .input, .setting .names, .setting .threshold,
    .help, .version]

/- The option of a long name, which must be spelt out. -/
def Flag.ofLong?
    (name : String) : Option Flag :=
  Flag.all.find? (fun flag => flag.name == name)

/- The option of a letter. -/
def Flag.ofLetter? : Char → Option Flag
  | 'i' => some (.setting .input)
  | 'v' => some (.switch .verbose)
  | 'h' => some .help
  | 'V' => some .version
  | _ => none

------------------------------------------------------------
-- Values of Options
------------------------------------------------------------

/- The largest number that a setting may have. -/
def maxNumber : Nat :=
  0xffffffffffffffff

/- The number that a list of decimal digits denotes. -/
def readDigits
    (digits : List Char) : Option Nat :=
  if digits.isEmpty || !digits.all Char.isDigit then
    none
  else
    let number :=
      digits.foldl
        (fun n c => 10 * n + (c.toNat - '0'.toNat)) 0
    if number ≤ maxNumber then some number else none

/- A number, which may have a plus sign. -/
def readNumber
    (value : List Char) : Option Nat :=
  match value with
  | '+' :: digits => readDigits digits
  | digits => readDigits digits

/- The names between the commas of a value. -/
def readNames
    (value : List Char) : List String :=
  (value.splitOn ',').map String.ofList

namespace Options

/- Turn a switch on, which may be done once. -/
def turnOn
    (options : Options) : Switch → Option Options
  | .sequential =>
      if options.sequential then none
      else some { options with sequential := true }
  | .chart =>
      if options.chart then none
      else some { options with chart := true }
  | .verbose =>
      if options.verbose then none
      else some { options with verbose := true }

/-
  Give a setting its value. A file must have a name. Names add
  to those given before; the others may be given once.
-/
def assign
    (options : Options)
    (value : List Char) : Setting → Option Options
  | .input =>
      if value.isEmpty || options.input?.isSome then none
      else
        some { options with
          input? := some (String.ofList value) }
  | .names =>
      some { options with
        names := options.names ++ readNames value }
  | .threshold =>
      match readNumber value with
      | none => none
      | some number =>
          if options.threshold?.isSome then none
          else some { options with threshold? := some number }

end Options

------------------------------------------------------------
-- One Argument
------------------------------------------------------------

/- Whether an argument can only be an option. -/
def isOption : List Char → Bool
  | '-' :: _ :: _ => true
  | _ => false

/- How far one argument has been understood. -/
inductive Reading where
  | done (options : Options)
  | awaiting (setting : Setting) (options : Options)
  | answered (request : Request)
  deriving DecidableEq, Repr

/- Read an option with its long name and attached value. -/
def readLong
    (options : Options)
    (argument : List Char) : Option Reading :=
  let name := String.ofList (argument.takeWhile (· != '='))
  let value? := (argument.dropWhile (· != '=')).tail?
  match Flag.ofLong? name, value? with
  | none, _ => none
  | some (.setting setting), none =>
      some (.awaiting setting options)
  | some (.setting setting), some value =>
      (options.assign value setting).map .done
  | some _, some _ => none
  | some (.switch switch), none =>
      (options.turnOn switch).map .done
  | some .help, none => some (.answered .help)
  | some .version, none => some (.answered .version)

/- What follows the letter of a setting is its value. -/
def attachedValue : List Char → List Char
  | '=' :: value => value
  | value => value

/- Read the letters of a group of options one by one. -/
def readLetters
    (options : Options) : List Char → Option Reading
  | [] => some (.done options)
  | letter :: rest =>
      match Flag.ofLetter? letter with
      | none => none
      | some .help => some (.answered .help)
      | some .version => some (.answered .version)
      | some (.switch switch) =>
          match options.turnOn switch with
          | none => none
          | some options => readLetters options rest
      | some (.setting setting) =>
          if rest.isEmpty then
            some (.awaiting setting options)
          else
            (options.assign (attachedValue rest)
              setting).map .done

/- Read an argument that can only be an option. -/
def readOption
    (options : Options) : List Char → Option Reading
  | '-' :: '-' :: argument => readLong options argument
  | '-' :: letters => readLetters options letters
  | _ => none

------------------------------------------------------------
-- All Arguments
------------------------------------------------------------

/- Read the arguments that follow what was read already. -/
def parseFrom
    (options : Options) : List String → Option Request
  | [] => some (.minimize options)
  | argument :: rest =>
      if argument == "--" then
        some (.minimize
          { options with rows := options.rows ++ rest })
      else if !isOption argument.toList then
        parseFrom
          { options with rows := options.rows ++ [argument] }
          rest
      else
        match readOption options argument.toList with
        | none => none
        | some (.answered request) => some request
        | some (.done options) => parseFrom options rest
        | some (.awaiting setting options) =>
            match rest with
            | [] => none
            | value :: rest =>
                if isOption value.toList then none
                else
                  match options.assign value.toList
                      setting with
                  | none => none
                  | some options => parseFrom options rest

/- Read all arguments, if they can be understood. -/
def parse
    (arguments : List String) : Option Request :=
  parseFrom {} arguments

end CommandLine

end TwoLevel
