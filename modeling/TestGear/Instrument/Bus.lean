import TestGear.Faults
import TestGear.Instrument.Device

/-!
# TestGear.Instrument.Bus

The virtual bus of `virtual_instrument.rs`: a device for each primary
address, and the operations of the backend trait on it.  An operation gives
back the bus, what it returned, and whether it sent a notification on the SRQ
broadcast (`Outcome`).

Only `write`, `read`, `deviceClear`, `trigger` and the control channel reach a
device's status; `updateSrq` is where the broadcast is decided.
-/

namespace TestGear.Instrument

/-- One thing the instrument was asked to do. -/
inductive Event where
  | write (pad : UInt8) (data : List UInt8) (eoi : Bool)
  | read (pad : UInt8) (data : List UInt8) (eoi : Bool)
  | readTimeout (pad : UInt8)
  | serialPoll (pad : UInt8) (stb : UInt8)
  | trigger (pad : UInt8)
  | clear (pad : UInt8)
  | ren (enabled : Bool)
  | goToRemote (pad : UInt8)
  | goToLocal (pad : UInt8)
  | localLockout
  | ifc
  | unaddressedWrite (data : List UInt8) (eoi : Bool)
  | unaddressedRead
deriving DecidableEq, Repr

/-- The bus: a set of simulated instruments, one per primary address, with the
fault knobs and the event log it shares with the control channel. -/
structure VirtualInstrument where
  devices : UInt8 → Option Device
  controllerPad : UInt8 := 0
  eos : UInt8 × Bool := (0x0A, false)
  timeoutMs : UInt32 := 5000
  ren : Bool := false
  listenOnly : Bool := false
  deviceAddress : Option UInt8 := none
  srqLine : Bool := false
  faults : Faults := .new
  observed : List Event := []

/-- What an operation gives back. -/
structure Outcome (α : Type) where
  bus : VirtualInstrument
  result : Except Text α
  notified : Bool := false

/-- The error of an operation on an address nobody is at. -/
def noInstrument (pad : UInt8) : Text :=
  "no instrument at primary address ".toList ++ natText pad.toNat

namespace VirtualInstrument

def new (pads : List UInt8) : VirtualInstrument where
  devices := fun pad => if pad ∈ pads then some {} else none

def setDevice (vi : VirtualInstrument) (pad : UInt8) (dev : Device) : VirtualInstrument :=
  { vi with devices := Function.update vi.devices pad (some dev) }

/-- Change every device. -/
def mapDevices (vi : VirtualInstrument) (f : Device → Device) : VirtualInstrument :=
  { vi with devices := fun pad => (vi.devices pad).map f }

def push (vi : VirtualInstrument) (event : Event) : VirtualInstrument :=
  { vi with observed := vi.observed ++ [event] }

/-- Is the device at `pad` requesting service? -/
def mss (vi : VirtualInstrument) (pad : UInt8) : Bool := ((vi.devices pad).map Device.mss).getD false

/-- Is any device requesting service? -/
def anyMss (vi : VirtualInstrument) : Bool := (List.range 256).any fun n => vi.mss (UInt8.ofNat n)

/-- Put every simulated device back to its power-on state. -/
def resetDevices (vi : VirtualInstrument) : VirtualInstrument :=
  { vi.mapDevices Device.reset with srqLine := false }

/-- Recompute SRQ and fire the broadcast on a rising MSS edge. -/
def updateSrq (vi : VirtualInstrument) (pad : UInt8) : VirtualInstrument × Bool :=
  match vi.devices pad with
  | none => ({ vi with srqLine := vi.anyMss }, false)
  | some dev =>
      let rising := dev.mss && !dev.lastMss
      let vi := vi.setDevice pad { dev with lastMss := dev.mss }
      ({ vi with srqLine := vi.anyMss }, rising)

/-- An operation that ends with `update_srq`. -/
def thenUpdateSrq (vi : VirtualInstrument) (pad : UInt8) (value : α) : Outcome α where
  bus := (vi.updateSrq pad).1
  result := .ok value
  notified := (vi.updateSrq pad).2

/-- Execute one parsed program message unit against the addressed device. -/
def execute (vi : VirtualInstrument) (pad : UInt8) (unit : Text) : Except Text VirtualInstrument :=
  match vi.devices pad with
  | none => if trim unit = [] then .ok vi else .error (noInstrument pad)
  | some dev => .ok (vi.setDevice pad (dev.execute unit))

/-! ## Backend operations -/

def init (vi : VirtualInstrument) (myPad : UInt8) : Outcome Unit where
  bus := { vi with controllerPad := myPad }
  result := .ok ()

def write (vi : VirtualInstrument) (pad : UInt8) (data : List UInt8) (sendEoi : Bool) :
    Outcome Unit :=
  let vi := vi.push (.write pad data sendEoi)
  if vi.faults.failNextWrite then
    { bus := { vi with faults := { vi.faults with failNextWrite := false } }
      result := .error "injected bus write failure".toList }
  else
    match vi.devices pad with
    | none => { bus := vi, result := .error (noInstrument pad) }
    | some dev =>
        -- EOI ends the message; so does a newline anywhere in this write
        let complete := sendEoi || data.contains 0x0A
        let message := dev.input ++ data
        if !complete then
          { bus := vi.setDevice pad { dev with input := message }, result := .ok () }
        else
          let vi := vi.setDevice pad { dev with input := [] }
          match (messageUnits message).foldlM (fun vi unit => vi.execute pad unit) vi with
          | .error e => { bus := vi, result := .error e }
          | .ok vi => vi.thenUpdateSrq pad ()

def read (vi : VirtualInstrument) (pad : UInt8) (maxLen : Nat) : Outcome (List UInt8 × Bool) :=
  match vi.devices pad with
  | none => { bus := vi, result := .error (noInstrument pad) }
  | some dev =>
      if dev.output = [] then
        { bus := vi.push (.readTimeout pad)
          result := .ok ([], dev.silence = .emptyMessage) }
      else
        -- stop at the EOS character when one is armed
        let take := min maxLen dev.output.length
        let take := if vi.eos.2 then
            ((dev.output.take take).findIdx? (· == vi.eos.1)).elim take (· + 1)
          else take
        let out := dev.output.take take
        let eoi := (dev.output.drop take).isEmpty
        let vi := vi.setDevice pad { dev with output := dev.output.drop take }
        let o := vi.thenUpdateSrq pad (out, eoi)
        { o with bus := o.bus.push (.read pad out eoi) }

def deviceClear (vi : VirtualInstrument) (pad : UInt8) : Outcome Unit :=
  let vi := vi.push (.clear pad)
  match vi.devices pad with
  | none => { bus := vi, result := .error (noInstrument pad) }
  | some dev => (vi.setDevice pad { dev with clears := dev.clears + 1 }.clearIo).thenUpdateSrq pad ()

def trigger (vi : VirtualInstrument) (pad : UInt8) : Outcome Unit :=
  let vi := vi.push (.trigger pad)
  match vi.devices pad with
  | none => { bus := vi, result := .error (noInstrument pad) }
  | some dev =>
      (vi.setDevice pad ({ dev with triggers := dev.triggers + 1 }.error (-211)
        "Trigger ignored".toList)).thenUpdateSrq pad ()

def ifc (vi : VirtualInstrument) : Outcome Unit where
  bus := (vi.push .ifc).mapDevices fun dev => { dev with remote := false }
  result := .ok ()

def setRen (vi : VirtualInstrument) (enable : Bool) : Outcome Unit where
  bus := { (vi.push (.ren enable)).mapDevices fun dev =>
    { dev with remote := enable, lockout := enable && dev.lockout } with ren := enable }
  result := .ok ()

def goToRemote (vi : VirtualInstrument) (pad : UInt8) : Outcome Unit :=
  let vi := { vi.push (.goToRemote pad) with ren := true }
  match vi.devices pad with
  | none => { bus := vi, result := .error (noInstrument pad) }
  | some dev => { bus := vi.setDevice pad { dev with remote := true }, result := .ok () }

def goToLocal (vi : VirtualInstrument) (pad : UInt8) : Outcome Unit :=
  let vi := vi.push (.goToLocal pad)
  match vi.devices pad with
  | none => { bus := vi, result := .error (noInstrument pad) }
  | some dev => { bus := vi.setDevice pad { dev with remote := false }, result := .ok () }

def localLockout (vi : VirtualInstrument) : Outcome Unit where
  bus := (vi.push .localLockout).mapDevices fun dev => { dev with lockout := true }
  result := .ok ()

def serialPoll (vi : VirtualInstrument) (pad : UInt8) : Outcome UInt8 :=
  match vi.faults.forced with
  | some forced => { bus := vi.push (.serialPoll pad forced), result := .ok forced }
  | none =>
      match vi.devices pad with
      | none => { bus := vi, result := .error (noInstrument pad) }
      | some dev =>
          let vi := vi.setDevice pad { dev with lastMss := dev.mss }
          { bus := { vi with srqLine := vi.anyMss }.push (.serialPoll pad dev.stb)
            result := .ok dev.stb }

/-- The line, as it was last computed. -/
def srqAsserted (vi : VirtualInstrument) : Bool := vi.srqLine

def setListenOnly (vi : VirtualInstrument) (enable : Bool) : VirtualInstrument :=
  { vi with listenOnly := enable }

def setDeviceMode (vi : VirtualInstrument) (address : Option UInt8) : VirtualInstrument :=
  { vi with deviceAddress := address }

def setControllerPad (vi : VirtualInstrument) (pad : UInt8) : VirtualInstrument :=
  { vi with controllerPad := pad }

def setEos (vi : VirtualInstrument) (eosChar : UInt8) (enabled : Bool) : VirtualInstrument :=
  { vi with eos := (eosChar, enabled) }

def setTimeout (vi : VirtualInstrument) (timeoutMs : UInt32) : VirtualInstrument :=
  { vi with timeoutMs }

def sendDataUnaddressed (vi : VirtualInstrument) (data : List UInt8) (sendEoi : Bool) :
    Outcome Unit where
  bus := vi.push (.unaddressedWrite data sendEoi)
  result := .ok ()

def readUnaddressed (vi : VirtualInstrument) : Outcome (List UInt8 × Bool) where
  bus := vi.push .unaddressedRead
  result := .ok ([], false)

end VirtualInstrument

/-! ## What a write does -/

/-- The device after a complete message. -/
def Device.complete (dev : Device) (message : List UInt8) : Device :=
  (messageUnits message).foldl Device.execute { dev with input := [] }

/-- A write, as the device it is addressed to sees it. -/
def Device.receive (dev : Device) (data : List UInt8) (eoi : Bool) : Device :=
  if eoi || data.contains 0x0A then (dev.complete (dev.input ++ data)).noteMss
  else { dev with input := dev.input ++ data }

namespace VirtualInstrument

@[simp] theorem setDevice_devices (vi : VirtualInstrument) (pad : UInt8) (dev : Device) :
    (vi.setDevice pad dev).devices = Function.update vi.devices pad (some dev) := rfl

@[simp] theorem setDevice_setDevice (vi : VirtualInstrument) (pad : UInt8) (d e : Device) :
    (vi.setDevice pad d).setDevice pad e = vi.setDevice pad e := by
  simp [setDevice]

/-- What `f` tells of each device. -/
def view {α : Type*} (f : Device → α) (vi : VirtualInstrument) : UInt8 → Option α :=
  fun pad => (vi.devices pad).map f

section

variable {α : Type*} {f : Device → α}

theorem view_eq_some {vi : VirtualInstrument} {pad : UInt8} {dev : Device}
    (h : vi.devices pad = some dev) : vi.view f pad = some (f dev) := by
  rw [view, h]
  rfl

theorem view_setDevice (vi : VirtualInstrument) (pad : UInt8) (dev : Device) :
    (vi.setDevice pad dev).view f = Function.update (vi.view f) pad (some (f dev)) := by
  funext p
  by_cases hp : p = pad
  · subst hp
    simp [view]
  · simp [view, hp]

/-- A change to one device that `f` does not tell. -/
theorem view_setDevice_still {vi : VirtualInstrument} {pad : UInt8} {dev dev' : Device}
    (h : vi.devices pad = some dev) (hf : f dev' = f dev) :
    (vi.setDevice pad dev').view f = vi.view f := by
  rw [view_setDevice, hf, ← view_eq_some h, Function.update_eq_self]

/-- A change to every device that `f` does not tell. -/
theorem view_mapDevices (vi : VirtualInstrument) {g : Device → Device}
    (hf : ∀ dev, f (g dev) = f dev) : (vi.mapDevices g).view f = vi.view f := by
  funext pad
  simp only [view, mapDevices, Option.map_map]
  exact congrArg (fun h => (vi.devices pad).map h) (funext hf)

section

variable {vi vi' : VirtualInstrument} {pad : UInt8} {dev dev' : Device} {g : Device → Device}

/-- The view depends on the devices only. -/
theorem view_congr (h : vi'.devices = vi.devices) : vi'.view f = vi.view f := by
  unfold view
  rw [h]

theorem view_of_update (h : vi'.devices = Function.update vi.devices pad (some dev')) :
    vi'.view f = Function.update (vi.view f) pad (some (f dev')) := by
  rw [← view_setDevice]
  exact view_congr h

theorem view_of_update_still (h : vi'.devices = Function.update vi.devices pad (some dev'))
    (hd : vi.devices pad = some dev) (hf : f dev' = f dev) : vi'.view f = vi.view f := by
  rw [← view_setDevice_still hd hf]
  exact view_congr h

theorem view_of_map (h : vi'.devices = fun p => (vi.devices p).map g)
    (hf : ∀ dev, f (g dev) = f dev) : vi'.view f = vi.view f := by
  rw [← view_mapDevices vi hf]
  exact view_congr h

end

end

theorem foldlM_execute (vi : VirtualInstrument) (pad : UInt8) (dev : Device) (parts : List Text) :
    parts.foldlM (fun vi unit => vi.execute pad unit) (vi.setDevice pad dev) =
      .ok (vi.setDevice pad (parts.foldl Device.execute dev)) := by
  induction parts generalizing dev with
  | nil => rfl
  | cons p ps ih =>
      have hone : (vi.setDevice pad dev).execute pad p = .ok (vi.setDevice pad (dev.execute p)) := by
        simp [execute]
      rw [List.foldlM_cons, hone]
      exact ih (dev.execute p)

/-- `update_srq`, behind a change to one device. -/
theorem updateSrq_setDevice (vi : VirtualInstrument) (pad : UInt8) (dev : Device) :
    (vi.setDevice pad dev).updateSrq pad =
      ({ vi.setDevice pad dev.noteMss with srqLine := (vi.setDevice pad dev.noteMss).anyMss },
        dev.mss && !dev.lastMss) := by
  have hd : (vi.setDevice pad dev).devices pad = some dev := by simp
  simp only [updateSrq, hd, setDevice_setDevice]
  rfl

/-- **A complete write** to a device that is there, with no failure armed. -/
theorem write_complete {vi : VirtualInstrument} {pad : UInt8} {dev : Device} {data : List UInt8}
    {eoi : Bool} (hf : vi.faults.failNextWrite = false) (hd : vi.devices pad = some dev)
    (hc : (eoi || data.contains 0x0A) = true) :
    vi.write pad data eoi =
      ((vi.push (.write pad data eoi)).setDevice pad
        (dev.complete (dev.input ++ data))).thenUpdateSrq pad () := by
  have hf' : (vi.push (.write pad data eoi)).faults.failNextWrite = false := hf
  have hd' : (vi.push (.write pad data eoi)).devices pad = some dev := hd
  simp only [write, hf', hd', hc, foldlM_execute, Bool.not_true, Bool.false_eq_true, if_false]
  rfl

/-- **A write** to a device that is there, with no failure armed. -/
theorem write_present {vi : VirtualInstrument} {pad : UInt8} {dev : Device}
    (hf : vi.faults.failNextWrite = false) (hd : vi.devices pad = some dev) (data : List UInt8)
    (eoi : Bool) :
    (vi.write pad data eoi).result = .ok () ∧
      (vi.write pad data eoi).bus.devices =
        Function.update vi.devices pad (some (dev.receive data eoi)) ∧
      (vi.write pad data eoi).bus.faults = vi.faults := by
  cases hc : (eoi || data.contains 0x0A) with
  | false =>
      have hf' : (vi.push (.write pad data eoi)).faults.failNextWrite = false := hf
      have hd' : (vi.push (.write pad data eoi)).devices pad = some dev := hd
      simp only [write, hf', hd', hc, Device.receive]
      exact ⟨rfl, rfl, rfl⟩
  | true =>
      rw [write_complete hf hd hc, thenUpdateSrq, updateSrq_setDevice]
      simp only [Device.receive, hc, if_true]
      exact ⟨trivial, rfl, rfl⟩

end VirtualInstrument

end TestGear.Instrument
