import TestGear.Hislip.Tracker
import TestGear.Instrument.Bus
import TestGear.Runs
import TestGear.Vxi11.Tracker

/-!
# TestGear.Control

The control channel of `control.rs`, and with it the whole mock: the bus, the
two trackers, and everything that can be asked of them.  The bus carries the
fault knobs and the event log, which the source shares between the bus and
the control channel.

An `Action` is one call from outside — a backend operation, a control
request, or a chunk given to a tracker.  `Control.step` takes it, and gives
back what the caller sees.
-/

namespace TestGear

open Instrument

/-! ## Backend operations -/

/-- The operations of the backend trait. -/
inductive Op where
  | init (myPad : UInt8)
  | write (pad : UInt8) (data : List UInt8) (sendEoi : Bool)
  | read (pad : UInt8) (maxLen : Nat)
  | deviceClear (pad : UInt8)
  | trigger (pad : UInt8)
  | ifc
  | ren (enable : Bool)
  | goToRemote (pad : UInt8)
  | goToLocal (pad : UInt8)
  | localLockout
  | serialPoll (pad : UInt8)
  | srqAsserted
  | busLines
  | setListenOnly (enable : Bool)
  | listenOnly
  | setDeviceMode (address : Option UInt8)
  | deviceAddress
  | controllerPad
  | setControllerPad (pad : UInt8)
  | sendDataUnaddressed (data : List UInt8) (sendEoi : Bool)
  | readUnaddressed (maxLen : Nat)
  | sendBusCommand (cmds : List UInt8)
  | setAtn (assert : Bool)
  | setEos (eosChar : UInt8) (enabled : Bool)
  | eos
  | setTimeout (timeoutMs : UInt32)
deriving DecidableEq, Repr

/-- What an operation returns. -/
inductive Value where
  | done
  | data (bytes : List UInt8) (ended : Bool)
  | byte (value : UInt8)
  | flag (on : Bool)
  | address (pad : Option UInt8)
  | eos (eosChar : UInt8) (enabled : Bool)
deriving DecidableEq, Repr

/-- An operation that returns nothing. -/
def Instrument.Outcome.done (o : Outcome Unit) : Outcome Value :=
  { o with result := o.result.map fun _ => .done }

/-- An operation that returns data, and whether it ended there. -/
def Instrument.Outcome.data (o : Outcome (List UInt8 × Bool)) : Outcome Value :=
  { o with result := o.result.map fun r => .data r.1 r.2 }

/-- An operation the trait refuses by default: the virtual bus has no lines. -/
def Instrument.VirtualInstrument.refuse (vi : VirtualInstrument) (what : Text) : Outcome Value :=
  { bus := vi, result := .error ("virtual ".toList ++ what) }

def Instrument.VirtualInstrument.perform (vi : VirtualInstrument) : Op → Outcome Value
  | .init myPad => (vi.init myPad).done
  | .write pad data sendEoi => (vi.write pad data sendEoi).done
  | .read pad maxLen => (vi.read pad maxLen).data
  | .deviceClear pad => (vi.deviceClear pad).done
  | .trigger pad => (vi.trigger pad).done
  | .ifc => vi.ifc.done
  | .ren enable => (vi.setRen enable).done
  | .goToRemote pad => (vi.goToRemote pad).done
  | .goToLocal pad => (vi.goToLocal pad).done
  | .localLockout => vi.localLockout.done
  | .serialPoll pad => let o := vi.serialPoll pad; { o with result := o.result.map .byte }
  | .srqAsserted => { bus := vi, result := .ok (.flag vi.srqAsserted) }
  | .busLines => vi.refuse "cannot read the GPIB control lines".toList
  | .setListenOnly enable => { bus := vi.setListenOnly enable, result := .ok .done }
  | .listenOnly => { bus := vi, result := .ok (.flag vi.listenOnly) }
  | .setDeviceMode address => { bus := vi.setDeviceMode address, result := .ok .done }
  | .deviceAddress => { bus := vi, result := .ok (.address vi.deviceAddress) }
  | .controllerPad => { bus := vi, result := .ok (.byte vi.controllerPad) }
  | .setControllerPad pad => { bus := vi.setControllerPad pad, result := .ok .done }
  | .sendDataUnaddressed data sendEoi => (vi.sendDataUnaddressed data sendEoi).done
  | .readUnaddressed _ => vi.readUnaddressed.data
  | .sendBusCommand _ => vi.refuse "cannot send raw bus commands".toList
  | .setAtn _ => vi.refuse "cannot drive ATN directly".toList
  | .setEos eosChar enabled => { bus := vi.setEos eosChar enabled, result := .ok .done }
  | .eos => { bus := vi, result := .ok (.eos vi.eos.1 vi.eos.2) }
  | .setTimeout timeoutMs => { bus := vi.setTimeout timeoutMs, result := .ok .done }

/-! ## Control requests -/

/-- What the harness can ask for. -/
inductive Request where
  | ports
  | faults (config : FaultConfig)
  | reset
  | observed
  | clearObserved
  | respond (pad : UInt8) (query : Text) (response : Option Text)
  | bigReply (pad : UInt8) (bytes : Nat)
  | setStb (pad : UInt8) (bits : UInt8)
  | vxi11Faults (config : Vxi11.Vxi11Faults)
  | hislipFaults (config : Hislip.HislipFaults)
  | hislipMessages
  | vxi11Calls
  | ping
deriving DecidableEq, Repr

structure PortInfo where
  vxi11Port : UInt16
  hislipPort : UInt16
  controlPort : UInt16
  vxi11Resource : Text
  hislipResource : Text
deriving DecidableEq, Repr

/-- A server somewhere. -/
def somePorts : PortInfo := ⟨1024, 4880, 5025, "TCPIP0::mock::inst0::INSTR".toList,
  "TCPIP0::mock::hislip0,4880::INSTR".toList⟩

inductive Response where
  | ports (info : PortInfo)
  | faults (config : FaultConfig)
  | events (events : List Event)
  | hislip (messages : List Hislip.Seen)
  | vxi11 (calls : List Vxi11.Call)
  | ok
  | error (error : Text)
deriving DecidableEq, Repr

structure Control where
  ports : PortInfo
  instrument : VirtualInstrument
  vxi11 : Vxi11.Tracker := .new
  hislip : Hislip.Tracker := .new

/-- What a call shows outside: what it returned, and whether it sent a
notification on the SRQ broadcast. -/
inductive Reply where
  | value (result : Except Text Value)
  | response (response : Response)
  | rewritten (buf : Option (List UInt8))
  | nothing
deriving DecidableEq, Repr

structure Output where
  reply : Reply
  notified : Bool := false
deriving DecidableEq, Repr

namespace Control

/-- A server that has just been started. -/
def new (ports : PortInfo) (pads : List UInt8) : Control where
  ports := ports
  instrument := .new pads

def setInstrument (ctl : Control) (vi : VirtualInstrument) : Control := { ctl with instrument := vi }

/-- An answer that changes nothing. -/
def answer (ctl : Control) (response : Response) : Control × Output := (ctl, ⟨.response response, false⟩)

/-- Run `f` against one simulated device, reporting a missing address as an
error. -/
def withDevice (ctl : Control) (pad : UInt8) (f : Device → Device) : Control × Output :=
  match ctl.instrument.devices pad with
  | some dev => (ctl.setInstrument (ctl.instrument.setDevice pad (f dev))).answer .ok
  | none => ctl.answer (.error (noInstrument pad))

/-- Everything a reset clears. -/
def reset (ctl : Control) : Control where
  ports := ctl.ports
  instrument :=
    { ctl.instrument with faults := ctl.instrument.faults.reset, observed := [] }.resetDevices
  vxi11 := ctl.vxi11.clear
  hislip := ctl.hislip.clear

def handle (ctl : Control) : Request → Control × Output
  | .ping => ctl.answer .ok
  | .ports => ctl.answer (.ports ctl.ports)
  | .faults config =>
      let faults := ctl.instrument.faults.apply config
      (ctl.setInstrument { ctl.instrument with faults }).answer (.faults faults.snapshot)
  | .reset => ctl.reset.answer .ok
  | .vxi11Faults config => { ctl with vxi11 := ctl.vxi11.set config }.answer .ok
  | .hislipFaults config => { ctl with hislip := ctl.hislip.set config }.answer .ok
  | .hislipMessages => ctl.answer (.hislip ctl.hislip.snapshot)
  | .vxi11Calls => ctl.answer (.vxi11 ctl.vxi11.snapshot)
  | .observed => ctl.answer (.events ctl.instrument.observed)
  | .clearObserved => (ctl.setInstrument { ctl.instrument with observed := [] }).answer .ok
  | .respond pad query response => ctl.withDevice pad fun dev => dev.setResponse query response
  | .bigReply pad bytes => ctl.withDevice pad fun dev => dev.setBigReplyLen bytes
  | .setStb pad bits =>
      -- raising the bits is not enough: the service request has to follow
      match ctl.instrument.devices pad with
      | some dev =>
          let (vi, notified) := (ctl.instrument.setDevice pad (dev.setUserStb bits)).updateSrq pad
          (ctl.setInstrument vi, ⟨.response .ok, notified⟩)
      | none => ctl.answer (.error (noInstrument pad))

end Control

/-! ## Actions -/

/-- One call from outside. -/
inductive Action where
  | op (op : Op)
  | request (request : Request)
  /-- A chunk of VXI-11 calls, or of replies. -/
  | observeCalls (buf : List UInt8)
  | rewriteReplies (buf : List UInt8)
  /-- A HiSLIP chunk. -/
  | observe (buf : List UInt8) (side : Hislip.Side)
  | rewrite (buf : List UInt8)
deriving DecidableEq, Repr

/-- The address an operation is on. -/
def Op.pad : Op → Option UInt8
  | .write pad _ _ | .read pad _ | .deviceClear pad | .trigger pad | .goToRemote pad
  | .goToLocal pad | .serialPoll pad => some pad
  | _ => none

def Request.pad : Request → Option UInt8
  | .respond pad _ _ | .bigReply pad _ | .setStb pad _ => some pad
  | _ => none

def Action.pad : Action → Option UInt8
  | .op o => o.pad
  | .request r => r.pad
  | _ => none

/-- One call.  `none` stands for one that does not return. -/
def Control.step (ctl : Control) : Action → Option (Control × Output)
  | .op op =>
      let o := ctl.instrument.perform op
      some (ctl.setInstrument o.bus, ⟨.value o.result, o.notified⟩)
  | .request request => some (ctl.handle request)
  | .observeCalls buf => some ({ ctl with vxi11 := ctl.vxi11.observeCalls buf }, ⟨.nothing, false⟩)
  | .rewriteReplies buf =>
      let (buf, vxi11) := ctl.vxi11.rewriteReplies buf
      some ({ ctl with vxi11 }, ⟨.rewritten buf, false⟩)
  | .observe buf side =>
      (ctl.hislip.observe buf side).map fun hislip => ({ ctl with hislip }, ⟨.nothing, false⟩)
  | .rewrite buf =>
      (ctl.hislip.rewrite buf).map fun (buf, hislip) => ({ ctl with hislip }, ⟨.rewritten buf, false⟩)

/-- The states a server started with `pads` can get into. -/
def Control.Reachable (ports : PortInfo) (pads : List UInt8) (ctl : Control) : Prop :=
  ∃ acts, Runs.exec step (new ports pads) acts = some ctl

end TestGear
