import RingOverlay.CommandLine.Usage
import RingOverlay.Settings.File

/-!
# `RingOverlay.CommandLine.Invocation` — what a command line asks for

Arguments are read from left to right. An option takes the argument behind it as its value, unless that
looks like an option itself; the value is looked at only when the next option is met or the line
ends, so that an unknown argument is reported first.

## Contents
- **Reading.** `Progress`, `readLong`, `readLetters`, `readArguments`.
- **Result.** `Invocation`, `Invocation.ofArguments`, `Invocation.settings`.
-/

namespace RingOverlay.CommandLine

/-! ## Reading -/

/-- How far a level of the line has been read. -/
structure Progress where
  given : Given := {}
  /-- The last option and its value so far. -/
  pending : Option (Opt × Option String) := none
  /-- Whether the last argument is an option that waits for its value. -/
  waiting : Bool := false
  /-- Whether a double dash has been met, behind which nothing is an option. -/
  plain : Bool := false
  deriving Inhabited, Repr

namespace Progress

/-- Gives the last option its value. -/
def settle (p : Progress) : Except UsageFault Progress :=
  match p.pending with
  | none => .ok p
  | some (o, value) => do
    return { p with given := ← p.given.assign o value, pending := none, waiting := false }

/-- Meets an option, with a value attached or not. -/
def meet (p : Progress) (o : Opt) (attached : Option String) : Except UsageFault Progress := do
  let p ← p.settle
  match attached with
  | some text => return { p with given := ← p.given.assign o (some text) }
  | none => return { p with pending := some (o, none), waiting := true }

/-- Meets a flag. Nothing behind it is looked at. -/
def meetFlag (p : Progress) (f : Flag) : UsageFault :=
  match p.settle with
  | .error fault => fault
  | .ok _ =>
    match f with
    | .help => .helpShown
    | .version => .versionShown

/-- Takes an argument as the value of the option that waits for one. -/
def takeValue (p : Progress) (text : String) : Progress :=
  { p with pending := p.pending.map fun (o, _) => (o, some text), waiting := false }

end Progress

/-- Splits a text at the first equals sign. -/
def splitValue (text : List Char) : String × Option String :=
  let name := text.takeWhile (· ≠ '=')
  let rest := text.drop name.length
  (String.ofList name, if rest.isEmpty then none else some (String.ofList (rest.drop 1)))

/-- Reads a long option, given without its dashes. -/
def readLong (l : Level) (p : Progress) (text : List Char) : Except UsageFault Progress :=
  let (name, attached) := splitValue text
  match l.long? name with
  | none => .error .unknownArgument
  | some (.inl o) => p.meet o attached
  | some (.inr f) => .error (if attached.isSome then .needlessValue else p.meetFlag f)

/-- Reads an option by its letter, given without its dash. What follows the letter of an option is its
    value. -/
def readLetter (l : Level) (p : Progress) (letter : Char) (rest : List Char) :
    Except UsageFault Progress :=
  match l.letter? letter with
  | none => .error .unknownArgument
  | some (.inl o) =>
    let value := match rest with
      | '=' :: value => value
      | value => value
    p.meet o (if rest.isEmpty then none else some (String.ofList value))
  | some (.inr f) => .error (p.meetFlag f)

/-- What stands at a level: what options were given, and the subcommand with the arguments behind it. -/
structure LevelReading where
  progress : Progress
  command : Option (Command × List String)
  deriving Inhabited, Repr

/-- The subcommands that a level knows; `none` stands for `help`. -/
def Level.command? (l : Level) (word : String) : Option (Option Command) :=
  match l with
  | .root =>
    if word = "help" then some none
    else (([Command.startBootstrap, .join]).find? (·.name = word)).map some
  | .behind _ => none

/-- Carries out `help`: its arguments may name one subcommand, and `help` itself is one. -/
def helpFault : List String → UsageFault
  | [] => .helpShown
  | [word] => if (Level.root.command? word).isSome then .helpShown else .unknownCommand
  | _ => .unknownCommand

/-- A word that is neither an option nor a value. -/
def strayFault (l : Level) (p : Progress) (word : String) : UsageFault :=
  match l with
  | .behind _ => .unknownArgument
  | .root =>
    if p.plain && (Level.root.command? word).isSome then .unknownArgument else .unknownCommand

/-- Reads the arguments of a level, up to a subcommand. -/
def readArguments (l : Level) : List String → Progress → Except UsageFault LevelReading
  | [], p => .ok ⟨p, none⟩
  | word :: rest, p =>
    if p.plain then .error (strayFault l p word)
    else
      match if p.waiting then none else l.command? word with
      | some none => .error (helpFault rest)
      | some (some c) => .ok ⟨p, some (c, rest)⟩
      | none =>
        match word.toList with
        | ['-', '-'] => readArguments l rest { p with plain := true }
        | '-' :: '-' :: text => do readArguments l rest (← readLong l p text)
        | '-' :: letter :: text => do readArguments l rest (← readLetter l p letter text)
        | _ =>
          if p.waiting then readArguments l rest (p.takeValue word)
          else .error (strayFault l p word)

/-! ## Result -/

/-- What a command line asks for. -/
structure Invocation where
  config : Option String
  logLevel : Option String
  id : Option RingId
  port : Option UInt16
  /-- The endpoint to join through; none for the first member of a ring. -/
  join : Option String
  deriving DecidableEq, Inhabited, Repr

/-- The host of the member to join through where none is given. -/
def defaultHost : String := "127.0.0.1"

/-- Reads the part of the line behind a subcommand. -/
def readCommand (c : Command) (arguments : List String) : Except UsageFault (Given × Option String) := do
  let reading ← readArguments (.behind c) arguments {}
  let given := (← reading.progress.settle).given
  match c with
  | .startBootstrap => return (given, none)
  | .join =>
    match given.bootstrapPort with
    | none => throw .missingOption
    | some port =>
      return (given, some (given.host.getD defaultHost ++ ":" ++ toString port.toNat))

/-- Reads a command line. An option behind the subcommand wins over the same one in front of it. -/
def Invocation.ofArguments (arguments : List String) : Except UsageFault Invocation := do
  let reading ← readArguments .root arguments {}
  match reading.command with
  | none =>
    let given := (← reading.progress.settle).given
    throw (if given.isEmpty then .helpForMissingCommand else .missingCommand)
  | some (c, rest) =>
    let (behind, join) ← readCommand c rest
    let front := (← reading.progress.settle).given
    return {
      config := behind.config.or front.config
      logLevel := behind.logLevel.or front.logLevel
      id := behind.id.or front.id
      port := behind.port
      join }

/-- The settings that a command line asks for. What the line says wins over the file, which `load`
    reads; where the ring is joined is up to the line alone. -/
def Invocation.settings (i : Invocation) (load : String → Except Settings.LoadFault Settings) :
    Except SettingsFault Settings := do
  let file ← match i.config with
    | none => pure {}
    | some path => (load path).mapError (·.settings)
  let s : Settings := { file with
    logLevel := i.logLevel.getD file.logLevel
    nodeId := i.id.or file.nodeId
    port := i.port.or file.port
    join := i.join }
  s.validate
  return s

end RingOverlay.CommandLine
