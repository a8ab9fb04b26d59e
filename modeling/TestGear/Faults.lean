import Mathlib

/-!
# TestGear.Faults

The fault knobs of `faults.rs` and the message that sets them.  Nullable
knobs are 64-bit words with a sentinel for unset.  The delays only pass time;
they are kept because `snapshot` reports them.
-/

namespace TestGear

/-- The sentinel for unset. -/
def unset : UInt64 := 0xFFFFFFFFFFFFFFFF

structure Faults where
  readDelayMs : UInt32 := 0
  writeDelayMs : UInt32 := 0
  /-- Fail the next write outright, as a bus error would. -/
  failNextWrite : Bool := false
  /-- Report this status byte from every serial poll. -/
  forcedStb : UInt64 := 0
  dropAfterBytes : UInt64 := 0
  stallAfterBytes : UInt64 := 0
  dribble : Bool := false
  latencyMs : UInt32 := 0
deriving DecidableEq, Repr

/-- The wire form of the knobs: what it does not mention it leaves alone. -/
structure FaultConfig where
  readDelayMs : Option UInt32 := none
  writeDelayMs : Option UInt32 := none
  failNextWrite : Option Bool := none
  forcedStb : Option (Option UInt8) := none
  dropAfterBytes : Option (Option UInt64) := none
  stallAfterBytes : Option (Option UInt64) := none
  dribble : Option Bool := none
  latencyMs : Option UInt32 := none
deriving DecidableEq, Repr

namespace Faults

def new : Faults := { forcedStb := unset, dropAfterBytes := unset, stallAfterBytes := unset }

/-- Put every knob back to "behave normally". -/
def reset (_ : Faults) : Faults where
  readDelayMs := 0
  writeDelayMs := 0
  failNextWrite := false
  forcedStb := unset
  dropAfterBytes := unset
  stallAfterBytes := unset
  dribble := false
  latencyMs := 0

def apply (f : Faults) (config : FaultConfig) : Faults where
  readDelayMs := config.readDelayMs.getD f.readDelayMs
  writeDelayMs := config.writeDelayMs.getD f.writeDelayMs
  failNextWrite := config.failNextWrite.getD f.failNextWrite
  forcedStb := (config.forcedStb.map fun v => (v.map UInt8.toUInt64).getD unset).getD f.forcedStb
  dropAfterBytes := (config.dropAfterBytes.map (·.getD unset)).getD f.dropAfterBytes
  stallAfterBytes := (config.stallAfterBytes.map (·.getD unset)).getD f.stallAfterBytes
  dribble := config.dribble.getD f.dribble
  latencyMs := config.latencyMs.getD f.latencyMs

/-- A nullable knob, as it is reported. -/
def opt (word : UInt64) : Option UInt64 := if word = unset then none else some word

def snapshot (f : Faults) : FaultConfig where
  readDelayMs := some f.readDelayMs
  writeDelayMs := some f.writeDelayMs
  failNextWrite := some f.failNextWrite
  forcedStb := some ((opt f.forcedStb).map UInt64.toUInt8)
  dropAfterBytes := some (opt f.dropAfterBytes)
  stallAfterBytes := some (opt f.stallAfterBytes)
  dribble := some f.dribble
  latencyMs := some f.latencyMs

/-- `forced_stb`: the status byte every serial poll reports, if one is set. -/
def forced (f : Faults) : Option UInt8 := (opt f.forcedStb).map UInt64.toUInt8

/-- `drop_after`: the byte count behind which the proxy drops a connection. -/
def dropAfter (f : Faults) : Option UInt64 := opt f.dropAfterBytes

/-- `stall_after`: the byte count behind which it stops forwarding. -/
def stallAfter (f : Faults) : Option UInt64 := opt f.stallAfterBytes

theorem reset_eq_new (f : Faults) : f.reset = new := rfl

end Faults

end TestGear
