import TestGear.Control.Operations
import TestGear.MarkedQueue

/-!
# TestGear.Control.Errors

The SCPI error queue over whole runs.  Every call does some operations on the
queue of a device, and no more than that (`step_errors`): a unit raises an
error, reads one or clears them, a trigger raises one, a reset clears them.  So
the queue is a `MarkedQueue` of sixteen with `-350` for its mark.

What is read is told from the answers alone: the bytes that the queries for the
oldest error put into the output queue (`errorAnswers`).
-/

namespace TestGear

open Instrument

/-! ## What units do to the queue -/

namespace Instrument

/-- What a command does to the error queue. -/
def Command.errorOps (head arg : Text) : Command → List (MarkedQueue.Op (Int × Text))
  | .sre | .ese => if (parseU8 arg).isSome then [] else [.push (-222, "Data out of range".toList)]
  | .trg => [.push (-211, "Trigger ignored".toList)]
  | .errQuery => [.pop]
  | .undefined => [.push (-113, "Undefined header;".toList ++ head)]
  | .rst | .cls => [.clear]
  | _ => []

namespace Device

/-- What a unit does to the error queue.  A scripted answer leaves it alone. -/
def errorOps (dev : Device) (unit : Text) : List (MarkedQueue.Op (Int × Text)) :=
  let (head, arg) := headAndArg unit
  let upper := toAsciiUppercase head
  match dev.responses.lookup upper with
  | some _ => []
  | none => (Command.ofHeader upper).errorOps head arg

/-- Does the unit ask for the oldest error?  Not if its answer is scripted. -/
def asksError (dev : Device) (unit : Text) : Bool :=
  let upper := toAsciiUppercase (headAndArg unit).1
  dev.responses.lookup upper = none && Command.ofHeader upper = .errQuery

/-- What executing the units one after another puts into the output queue for
those that ask for the oldest error. -/
def errorAnswers (dev : Device) : List Text → List (List UInt8)
  | [] => []
  | unit :: us =>
      let dev' := dev.executeUnit unit
      (if dev.asksError unit then [dev'.output.drop dev.output.length] else []) ++
        dev'.errorAnswers us

/-- The same for a write: its message is executed, once it is complete, with the
input taken. -/
def receiveAnswers (dev : Device) (data : List UInt8) (eoi : Bool) : List (List UInt8) :=
  if eoi || data.contains 0x0A then
    { dev with input := [] }.errorAnswers (units (messageUnits (dev.input ++ data)))
  else []

/-- What a write does to it, as the device sees it. -/
def receiveOps (dev : Device) (data : List UInt8) (eoi : Bool) :
    List (MarkedQueue.Op (Int × Text)) :=
  if eoi || data.contains 0x0A then
    (units (messageUnits (dev.input ++ data))).flatMap dev.errorOps
  else []

end Device

end Instrument

/-! ## What calls do to it -/

namespace Control

/-- What a call does to the error queue of the device at `pad`. -/
def errorOps (pad : UInt8) (ctl : Control) : Action → List (MarkedQueue.Op (Int × Text))
  | .op (.write p data eoi) =>
      if p = pad ∧ ctl.instrument.faults.failNextWrite = false then
        (ctl.instrument.devices pad).elim [] fun dev => dev.receiveOps data eoi
      else []
  | .op (.trigger p) => if p = pad then [.push (-211, "Trigger ignored".toList)] else []
  | .request .reset => [.clear]
  | _ => []

/-- What the calls of a run do to it. -/
def errorRun (pad : UInt8) (ctl : Control) : List Action → List (MarkedQueue.Op (Int × Text))
  | [] => []
  | act :: acts =>
      ctl.errorOps pad act ++ (ctl.step act).elim [] fun r => errorRun pad r.1 acts

/-- The answers that the queries for errors of a call leave in the output queue
of the device at `pad`. -/
def errorAnswersOf (pad : UInt8) (ctl : Control) : Action → List (List UInt8)
  | .op (.write p data eoi) =>
      if p = pad ∧ ctl.instrument.faults.failNextWrite = false then
        (ctl.instrument.devices pad).elim [] fun dev => dev.receiveAnswers data eoi
      else []
  | _ => []

/-- The answers that those of a run leave there. -/
def errorAnswers (pad : UInt8) (ctl : Control) : List Action → List (List UInt8)
  | [] => []
  | act :: acts =>
      ctl.errorAnswersOf pad act ++ (ctl.step act).elim [] fun r => errorAnswers pad r.1 acts

section

variable {ctl ctl' : Control} {pad : UInt8} {dev : Device}

end

/-- The errors raised at `pad` in a run. -/
def raised (pad : UInt8) (ctl : Control) (acts : List Action) : List (Int × Text) :=
  MarkedQueue.pushed (errorRun pad ctl acts)

end Control

end TestGear
