import RingOverlay.Journal
import RingOverlay.RingId.Text

/-!
# `RingOverlay.Settings.Basic` — how a peer is set up

Every setting has a default. Settings are checked before a peer is made of them.

## Contents
- `Settings`, `SettingsFault`.
- **Checks.** `validate`.
- **Readings.** `isBootstrap`, `endpoint`.
- **Logging.** `LogFile`, `initLogging`.
-/

namespace RingOverlay

/-- How a peer is set up. Intervals are in milliseconds. -/
structure Settings where
  /-- The point of the peer; a random one is drawn if none is given. -/
  nodeId : Option RingId := none
  host : String := "127.0.0.1"
  /-- The port to bind; the system chooses one if none is given. -/
  port : Option UInt16 := none
  /-- The endpoint that others use, where it is not host and port. -/
  advertise : Option String := none
  /-- The endpoint through which to join a ring. Without one the peer makes a ring of its own. -/
  join : Option String := none
  stabilizeInterval : UInt64 := 2000
  checkInterval : UInt64 := 2000
  fingersInterval : UInt64 := 2000
  fingersPerTick : UInt64 := 8
  maxLookupHops : UInt32 := 64
  rpcTimeout : UInt64 := 3000
  workers : UInt64 := 4
  logLevel : String := "info"
  logConfig : Option String := none
  deriving DecidableEq, Inhabited, Repr

/-- What is wrong with settings. -/
inductive SettingsFault where
  | io (reason : String)
  | parse
  | invalid (reason : String)
  | logging (reason : String)
  deriving DecidableEq, Inhabited, Repr

namespace SettingsFault

/-- The wording of a fault. -/
def message : SettingsFault → String
  | io reason => "Failed to read config file: " ++ reason
  | parse => "Failed to parse config file"
  | invalid reason => "Invalid configuration: " ++ reason
  | logging reason => "Failed to initialize logging: " ++ reason

end SettingsFault

namespace Settings

/-! ## Checks -/

/-- What the settings have to satisfy, each with the report for those that do not, in the order in
    which they are looked at. -/
def checks (s : Settings) : List (Bool × String) := [
  (s.stabilizeInterval ≠ 0, "stabilize_interval_ms must be positive"),
  (s.checkInterval ≠ 0, "check_interval_ms must be positive"),
  (s.fingersInterval ≠ 0, "fix_fingers_interval_ms must be positive"),
  (s.rpcTimeout ≠ 0, "rpc_timeout_ms must be positive"),
  (0 < s.fingersPerTick ∧ s.fingersPerTick < 256,
    s!"fingers_per_tick must be in 1..{RingId.bits}"),
  (s.maxLookupHops ≠ 0, "max_lookup_hops must be positive"),
  (s.workers ≠ 0, "workers must be positive"),
  (!s.host.isEmpty, "host must not be empty")]

/-- Checks settings; the first check that they do not pass is reported. -/
def validate (s : Settings) : Except SettingsFault Unit :=
  match s.checks.find? (!·.1) with
  | some (_, reason) => .error (.invalid reason)
  | none => .ok ()

/-! ## Readings -/

/-- Whether the peer makes a ring of its own. -/
def isBootstrap (s : Settings) : Bool := s.join.isNone

/-- The endpoint that others use, given the port that was bound. -/
def endpoint (s : Settings) (port : UInt16) : String :=
  s.advertise.getD (s.host ++ ":" ++ toString port.toNat)

end Settings

/-! ## Logging -/

/-- A file that says how to log. The logging system reads it by itself; what comes of that is the level of
    the file, or the reason why there is none. -/
structure LogFile where
  path : String
  content : Except String Threshold

/-- The logger of a process is set up at a level. A process has one logger: where there is one already
    (`occupied`), it stays, for this reason. -/
def setLogger (occupied : Bool) (threshold : Threshold) : Except String Threshold :=
  if occupied then
    .error "attempted to set a logger after the logging system was already initialized"
  else .ok threshold

/-- Sets up logging as a file says, if one is given, else at the level of a name. -/
def initLogging (occupied : Bool) (level : String) (file : Option LogFile) :
    Except SettingsFault Threshold :=
  match file with
  | some file =>
    (file.content.bind (setLogger occupied)).mapError fun reason =>
      .logging (file.path ++ ": " ++ reason)
  | none =>
    match Threshold.ofName? level with
    | none => .error (.invalid ("unknown log level '" ++ level ++ "'"))
    | some threshold => (setLogger occupied threshold).mapError .logging

end RingOverlay
