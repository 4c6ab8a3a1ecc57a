import RingOverlay.RingId.Text
import RingOverlay.Text.Numeral

/-!
# `RingOverlay.CommandLine.Usage` — options and subcommands

The command line has options of its own and a subcommand with further ones. An option that belongs to
the whole line may stand in front of the subcommand or behind it.

## Contents
- **Vocabulary.** `Opt`, `Flag`, `Command`, `Level`, and what is known at a level.
- **Faults.** `UsageFault`.
- **Values.** `Given`, `Given.assign`, `port?`.
-/

namespace RingOverlay.CommandLine

/-! ## Vocabulary -/

/-- An option with a value. -/
inductive Opt where
  | config | logLevel | id | port | bootstrapPort | host
  deriving DecidableEq, Inhabited, Repr

/-- An option without a value. -/
inductive Flag where
  | help | version
  deriving DecidableEq, Inhabited, Repr

/-- What the program can be asked to do. -/
inductive Command where
  | startBootstrap | join
  deriving DecidableEq, Inhabited, Repr

/-- The name of a command. -/
def Command.name : Command → String
  | startBootstrap => "start-bootstrap"
  | join => "join"

/-- Where on the line an argument stands: in front of the subcommand or behind it. -/
inductive Level where
  | root
  | behind (c : Command)
  deriving DecidableEq, Inhabited, Repr

/-- A word that is known at a level, by a letter and a long name. -/
structure Known where
  meaning : Opt ⊕ Flag
  letter : Option Char
  long : String

/-- What is known at every level. -/
def everywhere : List Known := [
  ⟨.inl .config, 'c', "config"⟩,
  ⟨.inl .logLevel, 'l', "log-level"⟩,
  ⟨.inl .id, none, "id"⟩,
  ⟨.inr .help, 'h', "help"⟩]

/-- What is known at a level. -/
def Level.known : Level → List Known
  | root => everywhere ++ [⟨.inr .version, 'V', "version"⟩]
  | behind .startBootstrap => everywhere ++ [⟨.inl .port, 'p', "port"⟩]
  | behind .join => everywhere ++ [
      ⟨.inl .port, 'p', "port"⟩,
      ⟨.inl .bootstrapPort, 'b', "bootstrap-port"⟩,
      ⟨.inl .host, 'n', "host"⟩]

/-- The meaning of a letter at a level. -/
def Level.letter? (l : Level) (c : Char) : Option (Opt ⊕ Flag) :=
  (l.known.find? (·.letter = some c)).map (·.meaning)

/-- The meaning of a long name at a level. -/
def Level.long? (l : Level) (name : String) : Option (Opt ⊕ Flag) :=
  (l.known.find? (·.long = name)).map (·.meaning)

/-! ## Faults -/

/-- Why a command line is not carried out. Being asked for help is one of the reasons. -/
inductive UsageFault where
  | helpShown
  | versionShown
  | helpForMissingCommand
  | missingCommand
  | unknownCommand
  | unknownArgument
  | missingValue
  | badValue
  | missingOption
  | repeatedOption
  | needlessValue
  deriving DecidableEq, Inhabited, Repr

/-! ## Values -/

/-- The values that options have been given at one level. -/
structure Given where
  config : Option String := none
  logLevel : Option String := none
  id : Option RingId := none
  port : Option UInt16 := none
  bootstrapPort : Option UInt16 := none
  host : Option String := none
  deriving DecidableEq, Inhabited, Repr

namespace Given

/-- Whether an option has been given a value. -/
def has (g : Given) : Opt → Bool
  | .config => g.config.isSome
  | .logLevel => g.logLevel.isSome
  | .id => g.id.isSome
  | .port => g.port.isSome
  | .bootstrapPort => g.bootstrapPort.isSome
  | .host => g.host.isSome

/-- Whether no option has been given a value. -/
def isEmpty (g : Given) : Bool := g = {}

end Given

/-- A port: a decimal numeral with a sign or without one, whose value has 16 bits. A minus sign may stand
    in front of zero only. -/
def port? (text : String) : Option UInt16 :=
  let (greatest, digits) := match text.toList with
    | '+' :: rest => (0xffff, rest)
    | '-' :: rest => (0, rest)
    | cs => (0xffff, cs)
  if digits.isEmpty then none
  else
    match digits.foldlM (fun n c => (Text.digitValue? c).map fun d => n * 10 + d) 0 with
    | some n => if n ≤ greatest then some (.ofNat n) else none
    | none => none

/-- Puts a value that has been read into its place, or reports that it cannot be read. -/
def orBad {α : Type} (value : Option α) (put : α → Given) : Except UsageFault Given :=
  match value with
  | some a => .ok (put a)
  | none => .error .badValue

/-- Gives an option its value. Of several faults, a missing value comes first, then a repetition, then a
    value that does not fit. -/
def Given.assign (g : Given) (o : Opt) (value : Option String) : Except UsageFault Given :=
  match value with
  | none => .error .missingValue
  | some text =>
    if g.has o then .error .repeatedOption
    else
      match o with
      | .config =>
        if text.isEmpty then .error .missingValue else .ok { g with config := some text }
      | .logLevel => .ok { g with logLevel := some text }
      | .host => .ok { g with host := some text }
      | .id => orBad (RingId.ofDecimal text).toOption fun id => { g with id := some id }
      | .port => orBad (port? text) fun n => { g with port := some n }
      | .bootstrapPort => orBad (port? text) fun n => { g with bootstrapPort := some n }

end RingOverlay.CommandLine
