import RingOverlay.Json.Node
import RingOverlay.Settings.Basic
import RingOverlay.Settings.Path

/-!
# `RingOverlay.Settings.File` — settings in a file

A file holds a JSON record of the settings that differ from the defaults.

## Contents
- `Settings.shape`, the fields in order.
- `Settings.load`, with the faults of reading, parsing and checking.
-/

namespace RingOverlay.Settings

open Json

/-- Reads a number of 64 bits. -/
def long : Reader UInt64 := return .ofNat (← natural "u64" 0xffffffffffffffff)

/-- Reads a count that the machine can address. -/
def size : Reader UInt64 := return .ofNat (← natural "usize" 0xffffffffffffffff)

/-- The shape of a record of settings. A field that is not given keeps its default. -/
def shape : Shape Settings Settings where
  title := "struct PeerConfig"
  fields := [
    ⟨"node_id", fun s => return { s with nodeId := ← nullable ringId }⟩,
    ⟨"host", fun s => return { s with host := ← string "a string" }⟩,
    ⟨"port", fun s =>
      return { s with port := (← nullable (natural "u16" 0xffff)).map .ofNat }⟩,
    ⟨"advertise", fun s => return { s with advertise := ← nullable (string "a string") }⟩,
    ⟨"join", fun s => return { s with join := ← nullable (string "a string") }⟩,
    ⟨"stabilize_interval_ms", fun s => return { s with stabilizeInterval := ← long }⟩,
    ⟨"check_interval_ms", fun s => return { s with checkInterval := ← long }⟩,
    ⟨"fix_fingers_interval_ms", fun s => return { s with fingersInterval := ← long }⟩,
    ⟨"fingers_per_tick", fun s => return { s with fingersPerTick := ← size }⟩,
    ⟨"max_lookup_hops", fun s =>
      return { s with maxLookupHops := .ofNat (← natural "u32" 0xffffffff) }⟩,
    ⟨"rpc_timeout_ms", fun s => return { s with rpcTimeout := ← long }⟩,
    ⟨"workers", fun s => return { s with workers := ← size }⟩,
    ⟨"log_level", fun s => return { s with logLevel := ← string "a string" }⟩,
    ⟨"log_config", fun s => return { s with logConfig := ← nullable (string "path string") }⟩]
  lenient := false
  start := {}
  complete := .ok
  completeShort s _ := .ok s

/-- Why settings cannot be had from a file. -/
inductive LoadFault where
  | unread (fault : ReadFault)
  | refused (fault : SettingsFault)
  deriving DecidableEq, Inhabited, Repr

/-- The fault as one of settings. -/
def LoadFault.settings : LoadFault → SettingsFault
  | unread _ => .parse
  | refused fault => fault

/-- Reads settings from the text of a file and checks them. -/
def ofText (text : String) : Except LoadFault Settings := do
  let s ← (readAll (record shape) text).mapError LoadFault.unread
  (s.validate).mapError LoadFault.refused
  return s

/-- Reads settings from the bytes of a file, if it can be read. -/
def load : Except FileFault (List UInt8) → Except LoadFault Settings
  | .error fault => .error (.refused (.io fault.message))
  | .ok bytes =>
    match String.fromUTF8? ⟨bytes.toArray⟩ with
    | none => .error (.refused (.io "stream did not contain valid UTF-8"))
    | some text => ofText text

end RingOverlay.Settings
