import Mathlib.Data.List.Sigma
import RingOverlay.Settings.Basic

/-!
# `Settings.Amend` — settings field by field

Settings are what they have in their fields. Some fields can be given values of their own, each by its key; the
others keep what they have.

## Contents
- **Fields.** `Key` with its names and values, `Key.get`, `Key.eq_of_get`.
- **Amending.** `amend` and what it has in each field, `get_amend`; `amend_amend`, `amend_perm`.
-/

namespace RingOverlay.Settings

/-! ## Fields -/

/-- The fields of settings. -/
inductive Key where
  | nodeId | host | port | advertise | join
  | stabilizeInterval | checkInterval | fingersInterval | fingersPerTick | maxLookupHops | rpcTimeout
  | workers | logLevel | logConfig
  deriving DecidableEq

namespace Key

/-- The name of a field in a file. -/
def name : Key → String
  | nodeId => "node_id"
  | host => "host"
  | port => "port"
  | advertise => "advertise"
  | join => "join"
  | stabilizeInterval => "stabilize_interval_ms"
  | checkInterval => "check_interval_ms"
  | fingersInterval => "fix_fingers_interval_ms"
  | fingersPerTick => "fingers_per_tick"
  | maxLookupHops => "max_lookup_hops"
  | rpcTimeout => "rpc_timeout_ms"
  | workers => "workers"
  | logLevel => "log_level"
  | logConfig => "log_config"

/-- The values of a field. -/
def Value : Key → Type
  | nodeId => Option RingId
  | host | logLevel => String
  | port => Option UInt16
  | advertise | join | logConfig => Option String
  | maxLookupHops => UInt32
  | stabilizeInterval | checkInterval | fingersInterval | fingersPerTick | rpcTimeout | workers => UInt64

/-- The value that settings have in a field. -/
def get (s : Settings) : (k : Key) → k.Value
  | nodeId => s.nodeId
  | host => s.host
  | port => s.port
  | advertise => s.advertise
  | join => s.join
  | stabilizeInterval => s.stabilizeInterval
  | checkInterval => s.checkInterval
  | fingersInterval => s.fingersInterval
  | fingersPerTick => s.fingersPerTick
  | maxLookupHops => s.maxLookupHops
  | rpcTimeout => s.rpcTimeout
  | workers => s.workers
  | logLevel => s.logLevel
  | logConfig => s.logConfig

/-- Settings are their fields. -/
theorem eq_of_get {s s' : Settings} (h : ∀ k : Key, k.get s = k.get s') : s = s' := by
  cases s
  cases s'
  congr
  · exact h nodeId
  · exact h host
  · exact h port
  · exact h advertise
  · exact h join
  · exact h stabilizeInterval
  · exact h checkInterval
  · exact h fingersInterval
  · exact h fingersPerTick
  · exact h maxLookupHops
  · exact h rpcTimeout
  · exact h workers
  · exact h logLevel
  · exact h logConfig

/-- The value that is given for a field, or `x` if none is. -/
def valueIn (k : Key) (given : List (Sigma Key.Value)) (x : k.Value) : k.Value := (given.dlookup k).getD x

end Key

/-! ## Amending -/

/-- The settings with the given fields in place of their own. -/
def amend (s : Settings) (given : List (Sigma Key.Value)) : Settings where
  nodeId := Key.nodeId.valueIn given s.nodeId
  host := Key.host.valueIn given s.host
  port := Key.port.valueIn given s.port
  advertise := Key.advertise.valueIn given s.advertise
  join := Key.join.valueIn given s.join
  stabilizeInterval := Key.stabilizeInterval.valueIn given s.stabilizeInterval
  checkInterval := Key.checkInterval.valueIn given s.checkInterval
  fingersInterval := Key.fingersInterval.valueIn given s.fingersInterval
  fingersPerTick := Key.fingersPerTick.valueIn given s.fingersPerTick
  maxLookupHops := Key.maxLookupHops.valueIn given s.maxLookupHops
  rpcTimeout := Key.rpcTimeout.valueIn given s.rpcTimeout
  workers := Key.workers.valueIn given s.workers
  logLevel := Key.logLevel.valueIn given s.logLevel
  logConfig := Key.logConfig.valueIn given s.logConfig

variable {given given' : List (Sigma Key.Value)}

theorem get_amend (k : Key) (s : Settings) (given : List (Sigma Key.Value)) :
    k.get (s.amend given) = k.valueIn given (k.get s) := by
  cases k <;> rfl

/-- Fields with distinct names are put in one after another. -/
theorem amend_amend {k : Key} (hk : k ∉ given.keys) (value : k.Value) (s : Settings) :
    (s.amend [⟨k, value⟩]).amend given = s.amend (⟨k, value⟩ :: given) := by
  apply Key.eq_of_get
  intro j
  simp only [get_amend, Key.valueIn]
  by_cases hj : j = k
  · subst hj
    rw [List.dlookup_cons_eq, List.dlookup_cons_eq, List.dlookup_eq_none.2 hk]
    rfl
  · rw [List.dlookup_cons_ne _ ⟨k, value⟩ hj, List.dlookup_cons_ne _ ⟨k, value⟩ hj]
    rfl

theorem amend_nil (s : Settings) : s.amend [] = s := by
  apply Key.eq_of_get
  intro k
  rw [get_amend]
  rfl

/-- The order in which fields are given makes no difference. -/
theorem amend_perm (hgiven : given.NodupKeys) (h : given.Perm given') (s : Settings) :
    s.amend given = s.amend given' := by
  apply Key.eq_of_get
  intro k
  rw [get_amend, get_amend, Key.valueIn, Key.valueIn, List.perm_dlookup k hgiven h]

end RingOverlay.Settings
