import RingOverlay.CommandLine.Invocation

/-!
# `RingOverlay.CommandLine.Report` — what the program tells its user

## Contents
- `UsageFault.message`, `usage`.
- `Settings.summary`.
-/

namespace RingOverlay

namespace CommandLine

/-- The wording of a usage fault. -/
def UsageFault.message : UsageFault → String
  | helpShown | helpForMissingCommand => "help was asked for"
  | versionShown => "the version was asked for"
  | missingCommand => "a command is required"
  | unknownCommand => "there is no such command"
  | unknownArgument => "there is no such argument"
  | missingValue => "an option has no value"
  | badValue => "the value of an option cannot be read"
  | missingOption => "a required option is missing"
  | repeatedOption => "an option is given twice"
  | needlessValue => "an option is given a value that it does not take"

/-- The ways to use the program. -/
def usage : String :=
  "usage: ringoverlay [-c FILE] [-l LEVEL] [--id NUMBER] COMMAND\n"
    ++ "  start-bootstrap [-p PORT]\n"
    ++ "  join -b PORT [-p PORT] [-n HOST]"

end CommandLine

/-- What settings say about the peer that is made of them. -/
def Settings.summary (s : Settings) : String :=
  let id := match s.nodeId with
    | some id => id.short
    | none => "a random point"
  let place := s.endpoint (s.port.getD 0)
  match s.join with
  | none => "bootstrap node at " ++ id ++ " on " ++ place
  | some through => "node at " ++ id ++ " on " ++ place ++ ", joining through " ++ through

end RingOverlay
