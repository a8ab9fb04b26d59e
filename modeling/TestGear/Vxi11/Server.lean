import TestGear.Bytes
import TestGear.Instrument.Cuts
import TestGear.Vxi11.Messages

/-!
# TestGear.Vxi11.Server

`device_write` of the VXI-11 server, over the virtual bus.  The server cuts a
write into chunks.  The first goes out addressed, the others unaddressed,
since on a real bus addressing is sticky — but the virtual bus only logs an
unaddressed write.

What the call finds outside the bus is its `Environment`: the lock, aborts of
this link, and the time left.

* `deviceWrite_one_message` — a write is one instrument message if it fits into
  one chunk, or its first chunk already completes a message that has all the
  units of the whole one;
* `deviceWrite_truncates` — one byte more than a chunk.
-/

namespace TestGear.Vxi11.Server

open Instrument

/-- What a create_link device name resolves to. -/
inductive DeviceAddr where
  | pad (pad : UInt8)
  | interface
deriving DecidableEq, Repr

/-- A link: what it was opened for, and the address its bus handle carries. -/
structure Link where
  kind : DeviceAddr
  pad : UInt8

def Link.isInterface (link : Link) : Bool := link.kind = .interface

structure DeviceWriteParms where
  lid : Int
  flags : UInt32
  data : List UInt8

structure DeviceWriteResp where
  error : UInt32
  size : UInt32
deriving DecidableEq, Repr

/-- device_write: assert EOI with the last byte. -/
def opFlagEnd : UInt32 := 8

/-- Largest device_write data accepted, reported in create_link. -/
def maxRecvSize : Nat := 65536

/-- The daemon's bus timeout, restored after every operation. -/
def defaultIoTimeoutMs : UInt32 := 3000

def writeChunk : Nat := 4096

/-- What a call finds outside the bus. -/
structure Environment where
  linkFor : Int → Option Link
  /-- The answer of `acquire_access`. -/
  access : Except ErrorCode Unit
  /-- Has an abort arrived when round `n` of the loop begins? -/
  aborted : Nat → Bool
  /-- Has one arrived by the end? -/
  abortedAtEnd : Bool
  /-- Nanoseconds left of the io_timeout when round `n` begins. -/
  remaining : Nat → Nat

/-- The largest exact adapter-timeout step at or below `remaining_ms`. -/
def adapterFloorMs (remainingMs : Nat) : UInt32 :=
  (([300000, 100000, 30000, 10000, 3000, 1000, 300, 100, 30, 10, 3, 1] : List UInt32).find?
    fun step => step.toNat ≤ remainingMs).getD 1

/-- How a bus failure is reported: a timeout is told by its message. -/
def failureCode (message : Text) : ErrorCode :=
  if "timeout".toList <:+: message.map Char.toLower then .ioTimeout else .ioError

/-- The chunk loop of `device_write`, with `written` bytes sent.  Every round
that goes on moves on, so `rounds` is never the reason to stop. -/
def writeLoop (env : Environment) (link : Link) (data : List UInt8) (sendEoi : Bool) :
    (rounds round written : Nat) → VirtualInstrument → VirtualInstrument × Nat × ErrorCode
  | 0, _, written, bus => (bus, written, .noError)
  | rounds + 1, round, written, bus =>
      if env.aborted round then
        (bus, written, .abort)
      else if env.remaining round = 0 then
        (bus, written, .ioTimeout)
      else
        let bus := bus.setTimeout (adapterFloorMs (env.remaining round / 1000000))
        let stop := min (written + writeChunk) data.length
        let chunk := slice data written (stop - written)
        let last := stop = data.length
        let sent :=
          if link.isInterface then
            bus.sendDataUnaddressed chunk (sendEoi && last)
          else if written = 0 then
            bus.write link.pad chunk (sendEoi && last)
          else
            -- addressing happened with the first chunk and is sticky
            bus.sendDataUnaddressed chunk (sendEoi && last)
        match sent.result with
        | .ok () =>
            if last then (sent.bus, stop, .noError)
            else writeLoop env link data sendEoi rounds (round + 1) stop sent.bus
        | .error e => (sent.bus, written, failureCode e)

def deviceWrite (env : Environment) (bus : VirtualInstrument) (parms : DeviceWriteParms) :
    VirtualInstrument × DeviceWriteResp :=
  match env.linkFor parms.lid with
  | none => (bus, ⟨ErrorCode.invalidLinkIdentifier.asU32, 0⟩)
  | some link =>
      match env.access with
      | .error e => (bus, ⟨e.asU32, 0⟩)
      | .ok () =>
          let sendEoi := parms.flags &&& opFlagEnd != 0
          let (bus, written, outcome) :=
            writeLoop env link parms.data sendEoi (parms.data.length + 1) 0 0 bus
          let bus := bus.setTimeout defaultIoTimeoutMs
          let outcome := if outcome = .noError && env.abortedAtEnd then .abort else outcome
          (bus, ⟨outcome.asU32, UInt32.ofNat written⟩)

/-! ## An undisturbed call -/

/-- No lock conflict, no abort, and time left. -/
structure Environment.Quiet (env : Environment) : Prop where
  access : env.access = .ok ()
  aborted : ∀ n, env.aborted n = false
  abortedAtEnd : env.abortedAtEnd = false
  remaining : ∀ n, env.remaining n ≠ 0

/-- One round, in which nothing disturbs. -/
theorem writeLoop_round {env : Environment} (h : env.Quiet) {link : Link}
    (hl : link.isInterface = false) (data : List UInt8) (sendEoi : Bool)
    (rounds round written : Nat) (bus : VirtualInstrument) :
    ∃ bus' : VirtualInstrument, bus'.devices = bus.devices ∧ bus'.faults = bus.faults ∧
      writeLoop env link data sendEoi (rounds + 1) round written bus =
        let stop := min (written + writeChunk) data.length
        let chunk := slice data written (stop - written)
        let last : Bool := stop = data.length
        let sent := if written = 0 then bus'.write link.pad chunk (sendEoi && last)
          else bus'.sendDataUnaddressed chunk (sendEoi && last)
        match sent.result with
        | .ok () =>
            if last then (sent.bus, stop, .noError)
            else writeLoop env link data sendEoi rounds (round + 1) stop sent.bus
        | .error e => (sent.bus, written, failureCode e) := by
  refine ⟨bus.setTimeout (adapterFloorMs (env.remaining round / 1000000)), rfl, rfl, ?_⟩
  rw [writeLoop]
  simp only [h.aborted, h.remaining, hl, Bool.false_eq_true, if_false, decide_eq_true_eq]

/-- The rounds behind the first reach no device. -/
theorem writeLoop_rest {env : Environment} (h : env.Quiet) {link : Link}
    (hl : link.isInterface = false) (data : List UInt8) (sendEoi : Bool)
    {rounds round written : Nat} {bus : VirtualInstrument} (hw : 0 < written)
    (hle : written ≤ data.length) (hr : data.length - written < rounds) :
    (writeLoop env link data sendEoi rounds round written bus).1.devices = bus.devices ∧
      (writeLoop env link data sendEoi rounds round written bus).2 = (data.length, .noError) := by
  induction rounds generalizing round written bus with
  | zero => omega
  | succ rounds ih =>
      obtain ⟨bus', hdev, -, hround⟩ := writeLoop_round h hl data sendEoi rounds round written bus
      rw [hround]
      simp only [if_neg (Nat.ne_of_gt hw), VirtualInstrument.sendDataUnaddressed,
        decide_eq_true_eq]
      split
      · next hlast => exact ⟨hdev, by rw [hlast]⟩
      · next hlast =>
          have hstop : written < min (written + writeChunk) data.length ∧
              min (written + writeChunk) data.length ≤ data.length := by
            simp only [writeChunk] at hlast ⊢
            omega
          obtain ⟨hdev', hres⟩ := @ih (round + 1) (min (written + writeChunk) data.length)
            (bus'.push (.unaddressedWrite _ _)) (by omega) hstop.2 (by omega)
          exact ⟨hdev'.trans hdev, hres⟩

/-- **An undisturbed `device_write`**: the device receives the first chunk, with
the END flag if that is all, and the reply counts every byte. -/
theorem deviceWrite_devices {env : Environment} (h : env.Quiet) {pad : UInt8}
    {parms : DeviceWriteParms} (hl : env.linkFor parms.lid = some ⟨.pad pad, pad⟩)
    (hend : parms.flags &&& opFlagEnd ≠ 0) {bus : VirtualInstrument} {dev : Device}
    (hf : bus.faults.failNextWrite = false) (hd : bus.devices pad = some dev) :
    (deviceWrite env bus parms).1.devices = Function.update bus.devices pad
        (some (dev.receive (parms.data.take writeChunk)
          (decide (parms.data.length ≤ writeChunk)))) ∧
      (deviceWrite env bus parms).2 = ⟨0, UInt32.ofNat parms.data.length⟩ := by
  have heoi : (parms.flags &&& opFlagEnd != 0) = true := by simpa using hend
  have hloop : (writeLoop env ⟨.pad pad, pad⟩ parms.data true (parms.data.length + 1) 0 0 bus).1.devices =
        Function.update bus.devices pad (some (dev.receive (parms.data.take writeChunk)
          (decide (parms.data.length ≤ writeChunk)))) ∧
      (writeLoop env ⟨.pad pad, pad⟩ parms.data true (parms.data.length + 1) 0 0 bus).2 =
        (parms.data.length, .noError) := by
    generalize parms.data = data
    obtain ⟨bus', hdev, hfaults, hround⟩ :=
      @writeLoop_round env h ⟨.pad pad, pad⟩ rfl data true data.length 0 0 bus
    have hstop : min (0 + writeChunk) data.length = min writeChunk data.length := by simp
    have hchunk : slice data 0 (min writeChunk data.length - 0) = data.take writeChunk := by
      rw [slice, List.drop_zero, Nat.sub_zero, ← List.take_eq_take_min]
    have hlast : decide (min writeChunk data.length = data.length) =
        decide (data.length ≤ writeChunk) := by simp
    rw [hround]
    simp only [hstop, hchunk, hlast, Bool.true_and, if_true]
    obtain ⟨hok, hwdev, -⟩ := VirtualInstrument.write_present (hfaults ▸ hf) (hdev ▸ hd)
      (data.take writeChunk) (decide (data.length ≤ writeChunk))
    rw [hok]
    simp only
    split
    · next hle =>
        have hle' : data.length ≤ writeChunk := by simpa using hle
        exact ⟨by rw [hwdev, hdev], by rw [Nat.min_eq_right hle']⟩
    · next hgt =>
        have hgt' : writeChunk < data.length := by simpa using hgt
        obtain ⟨hdev', hres⟩ := @writeLoop_rest env h ⟨.pad pad, pad⟩ rfl data true data.length 1
          (min writeChunk data.length) (bus'.write pad (data.take writeChunk)
            (decide (data.length ≤ writeChunk))).bus (by simp [writeChunk] at hgt' ⊢; omega)
          (Nat.min_le_right _ _) (by simp [writeChunk] at hgt' ⊢; omega)
        exact ⟨by rw [hdev', hwdev, hdev], hres⟩
  rw [deviceWrite, hl, h.access]
  simp only [heoi, h.abortedAtEnd, Bool.and_false, Bool.false_eq_true, if_false, hloop.2]
  exact ⟨hloop.1, rfl⟩

/-! ## One write, one message -/

/-- The call leaves the devices as the single backend write of all its data,
and replies that all of it went out. -/
def OneMessage (env : Environment) (bus : VirtualInstrument) (parms : DeviceWriteParms)
    (pad : UInt8) : Prop :=
  (deviceWrite env bus parms).1.devices = (bus.write pad parms.data true).bus.devices ∧
    (deviceWrite env bus parms).2.error = ErrorCode.noError.asU32 ∧
    (deviceWrite env bus parms).2.size.toNat = parms.data.length

/-- Messages that leave different devices do so whatever MSS is noted. -/
theorem complete_noteMss_inj {dev : Device} {m n : List UInt8}
    (h : (dev.complete m).noteMss = (dev.complete n).noteMss) : dev.complete m = dev.complete n := by
  have hnote (message : List UInt8) :
      (dev.complete message).noteMss.note dev.lastMss = dev.complete message := by
    have hlast : (dev.complete message).lastMss = dev.lastMss := foldl_execute_lastMss _ _
    rw [← hlast]
    rfl
  rw [← hnote m, ← hnote n, h]

/-- A first chunk that is not all of the data leaves what all of it would if it
completes a message that does as much. -/
theorem receive_take_eq_iff (dev : Device) (data : List UInt8) :
    dev.receive (data.take writeChunk) (decide (data.length ≤ writeChunk)) = dev.receive data true ↔
      data.length ≤ writeChunk ∨ 0x0A ∈ data.take writeChunk ∧
        dev.complete (dev.input ++ data.take writeChunk) = dev.complete (dev.input ++ data) := by
  have hwhole : dev.receive data true = (dev.complete (dev.input ++ data)).noteMss := by
    simp [Device.receive]
  rw [hwhole]
  by_cases hlen : data.length ≤ writeChunk
  · simp [hlen, List.take_of_length_le hlen, Device.receive]
  by_cases hnl : 0x0A ∈ data.take writeChunk
  · have hfirst : dev.receive (data.take writeChunk) (decide (data.length ≤ writeChunk)) =
        (dev.complete (dev.input ++ data.take writeChunk)).noteMss := by
      simp [Device.receive, hlen, hnl]
    rw [hfirst]
    simp only [hlen, hnl, true_and, false_or]
    exact ⟨complete_noteMss_inj, fun h => by rw [h]⟩
  · have hfirst : dev.receive (data.take writeChunk) (decide (data.length ≤ writeChunk)) =
        { dev with input := dev.input ++ data.take writeChunk } := by
      simp [Device.receive, hlen, hnl]
    rw [hfirst]
    simp only [hlen, hnl, false_and, or_false, iff_false]
    -- an incomplete message stays in the input buffer, a complete one leaves it empty
    intro heq
    have hinput : (dev.complete (dev.input ++ data)).input = [] := by
      rw [Device.complete, foldl_execute]
      exact foldl_executeUnit_input _ rfl
    have hkept : dev.input ++ data.take writeChunk = [] := (congrArg Device.input heq).trans hinput
    have hnone : data.take writeChunk = [] := (List.append_eq_nil_iff.mp hkept).2
    have : (data.take writeChunk).length = 0 := by rw [hnone]; rfl
    rw [List.length_take] at this
    simp only [writeChunk] at this hlen
    omega

/-- The call is one message if its first chunk leaves the device as all of the
data would. -/
theorem oneMessage_iff_receive {env : Environment} (h : env.Quiet) {pad : UInt8}
    {parms : DeviceWriteParms} (hl : env.linkFor parms.lid = some ⟨.pad pad, pad⟩)
    (hend : parms.flags &&& opFlagEnd ≠ 0) (hlen : parms.data.length ≤ maxRecvSize)
    {bus : VirtualInstrument} {dev : Device} (hf : bus.faults.failNextWrite = false)
    (hd : bus.devices pad = some dev) :
    OneMessage env bus parms pad ↔
      dev.receive (parms.data.take writeChunk) (decide (parms.data.length ≤ writeChunk)) =
        dev.receive parms.data true := by
  obtain ⟨hdevices, hresp⟩ := deviceWrite_devices h hl hend hf hd
  have hsize : (UInt32.ofNat parms.data.length).toNat = parms.data.length := by
    simp only [maxRecvSize] at hlen
    rw [UInt32.toNat_ofNat']
    omega
  rw [OneMessage, hdevices, hresp, (VirtualInstrument.write_present hf hd parms.data true).2.1]
  constructor
  · rintro ⟨heq, -, -⟩
    have hat := congrFun heq pad
    simpa using hat
  · intro heq
    exact ⟨by rw [heq], rfl, hsize⟩

/-- Nothing is lost behind the first chunk: it is all of the data, or it ends a
message that has the program message units of all of the data, so that what
follows it is blank. -/
def NothingLost (dev : Device) (data : List UInt8) : Prop :=
  data.length ≤ writeChunk ∨ 0x0A ∈ data.take writeChunk ∧
    unitsOf (dev.input ++ data.take writeChunk) = unitsOf (dev.input ++ data)

/-- A message does what its units do. -/
theorem complete_eq_of_unitsOf {dev : Device} {m n : List UInt8} (h : unitsOf m = unitsOf n) :
    dev.complete m = dev.complete n := by
  have hunits (message : List UInt8) : units (messageUnits message) = unitsOf message :=
    units_messageUnits message
  rw [Device.complete, Device.complete, foldl_execute, foldl_execute, hunits, hunits, h]

/-- **One write, one message**: an undisturbed `device_write` with END is one
instrument message if nothing is lost behind its first chunk.  It is not one if
it is longer than the first chunk and that ends no message. -/
theorem deviceWrite_one_message {env : Environment} (h : env.Quiet) {pad : UInt8}
    {parms : DeviceWriteParms} (hl : env.linkFor parms.lid = some ⟨.pad pad, pad⟩)
    (hend : parms.flags &&& opFlagEnd ≠ 0) (hlen : parms.data.length ≤ maxRecvSize)
    {bus : VirtualInstrument} {dev : Device} (hf : bus.faults.failNextWrite = false)
    (hd : bus.devices pad = some dev) :
    (NothingLost dev parms.data → OneMessage env bus parms pad) ∧
      (OneMessage env bus parms pad →
        parms.data.length ≤ writeChunk ∨ 0x0A ∈ parms.data.take writeChunk) := by
  rw [oneMessage_iff_receive h hl hend hlen hf hd, receive_take_eq_iff dev parms.data]
  constructor
  · rintro (hfits | ⟨hnl, hunits⟩)
    · exact .inl hfits
    · exact .inr ⟨hnl, complete_eq_of_unitsOf hunits⟩
  · rintro (hfits | ⟨hnl, -⟩)
    · exact .inl hfits
    · exact .inr hnl

/-- A server with one link, to address 22, that nothing disturbs. -/
def oneLink : Environment where
  linkFor lid := if lid = 1 then some ⟨.pad 22, 22⟩ else none
  access := .ok ()
  aborted _ := false
  abortedAtEnd := false
  remaining _ := 3000000000

theorem oneLink_quiet : oneLink.Quiet :=
  ⟨rfl, fun _ => rfl, rfl, fun _ => by simp [oneLink]⟩

/-- A write of one query. -/
def idnWrite : DeviceWriteParms := ⟨1, opFlagEnd, asBytes "*IDN?".toList⟩

theorem deviceWrite_one_message_idn : OneMessage oneLink (.new [22]) idnWrite 22 :=
  (deviceWrite_one_message oneLink_quiet rfl (by decide) (by decide) rfl rfl).1 (.inl (by decide))

/-- A write of one byte more than a chunk holds. -/
def longWrite : DeviceWriteParms := ⟨1, opFlagEnd, List.replicate (writeChunk + 1) 0x20⟩

/-- The end of the message is lost with the last byte, so the device still waits
for it. -/
theorem deviceWrite_truncates : ¬ OneMessage oneLink (.new [22]) longWrite 22 := by
  have hlen : longWrite.data.length = writeChunk + 1 := List.length_replicate
  rw [oneMessage_iff_receive oneLink_quiet rfl (by decide)
    (by rw [hlen]; decide) rfl rfl, receive_take_eq_iff, hlen]
  rintro (hshort | ⟨hnl, -⟩)
  · omega
  · have hspace := List.eq_of_mem_replicate (List.mem_of_mem_take hnl)
    exact absurd hspace (by decide)

end TestGear.Vxi11.Server
