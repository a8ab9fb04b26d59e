import TestGear.Control

/-!
# TestGear.Control.Touches

What a call does to the bus, said once for every operation and request.  Apart
from the reset, a call touches no device, or works on one or on all of them
without a service request coming of it, or ends with `update_srq`, or is a
serial poll; and none changes what a device is (`Device.kind`).

* `Control.step_effect` — everything a call can do to the bus;
* `Control.step_touches` — the same, as far as the devices go.
-/

namespace TestGear

open Instrument

namespace Instrument

/-- What a device is from the start. -/
def Device.kind (dev : Device) : Text × Silence := (dev.idn, dev.silence)

/-- What edge detection knows of a device: its MSS, and the MSS last noted. -/
structure Level where
  mss : Bool
  noted : Bool
deriving DecidableEq, Repr

def Device.level (dev : Device) : Level := ⟨dev.mss, dev.lastMss⟩

theorem executeUnit_kind (dev : Device) (unit : Text) : (dev.executeUnit unit).kind = dev.kind := by
  rcases hu : Device.headAndArg unit with ⟨head, arg⟩
  simp only [Device.executeUnit, hu]
  cases dev.responses.lookup (toAsciiUppercase head) with
  | some canned => rfl
  | none =>
      cases Command.ofHeader (toAsciiUppercase head) with
      | sre | ese =>
          simp only [Device.perform]
          cases parseU8 arg <;> rfl
      | errQuery =>
          simp only [Device.perform]
          cases dev.errors <;> rfl
      | _ => rfl

theorem foldl_execute_kind (parts : List Text) (dev : Device) :
    (parts.foldl Device.execute dev).kind = dev.kind := by
  rw [foldl_execute]
  generalize units parts = us
  induction us generalizing dev with
  | nil => rfl
  | cons u us ih => rw [List.foldl_cons, ih, executeUnit_kind]

/-- What a call can do to one device, apart from noting its MSS.  `forced` is
what a `SetStb` puts into the status byte. -/
inductive Device.Work (forced : Option UInt8) (dev : Device) : Device → Prop where
  | input (bytes : List UInt8) : Work forced dev { dev with input := bytes }
  | message (bytes : List UInt8) : Work forced dev (dev.complete bytes)
  | drain (n : Nat) : Work forced dev { dev with output := dev.output.drop n }
  | clear : Work forced dev { dev with clears := dev.clears + 1 }.clearIo
  | trigger : Work forced dev
      ({ dev with triggers := dev.triggers + 1 }.error (-211) "Trigger ignored".toList)
  | remote (on : Bool) : Work forced dev { dev with remote := on }
  | respond (query : Text) (response : Option Text) : Work forced dev (dev.setResponse query response)
  | bigReply (bytes : Nat) : Work forced dev (dev.setBigReplyLen bytes)
  | stb {bits : UInt8} (h : forced = some bits) : Work forced dev (dev.setUserStb bits)

theorem Device.Work.kind {forced : Option UInt8} {dev dev' : Device} (h : dev.Work forced dev') :
    dev'.kind = dev.kind := by
  cases h with
  | message bytes => exact foldl_execute_kind _ { dev with input := [] }
  | respond query response => cases response <;> rfl
  | _ => rfl

theorem Device.Work.lastMss {forced : Option UInt8} {dev dev' : Device}
    (h : dev.Work forced dev') : dev'.lastMss = dev.lastMss := by
  cases h with
  | message bytes => exact foldl_execute_lastMss _ { dev with input := [] }
  | respond query response => cases response <;> rfl
  | _ => rfl

end Instrument

/-- What a call forces into a status byte. -/
def Action.forces : Action → Option UInt8
  | .request (.setStb _ bits) => some bits
  | _ => none

/-- Is a call meant for the bus as a whole? -/
def Action.wide : Action → Bool
  | .op (.ren _) | .op .ifc | .op .localLockout | .op (.setEos _ _) | .request .reset => true
  | _ => false

/-- What a call can do to the bus: to its devices, to the SRQ line, and to the
EOS character reads stop at. -/
inductive Effect (act : Action) (vi vi' : VirtualInstrument) (notified : Bool) : Prop where
  | none (hdevices : vi'.devices = vi.devices) (hline : vi'.srqLine = vi.srqLine)
      (heos : act.wide = false → vi'.eos = vi.eos) (hn : notified = false)
  | one {p : UInt8} {dev dev' : Device} (hpad : act.pad = some p) (h : vi.devices p = some dev)
      (hdevices : vi'.devices = Function.update vi.devices p (some dev'))
      (hwork : dev.Work act.forces dev') (hlevel : dev'.level = dev.level)
      (hline : vi'.srqLine = vi.srqLine) (heos : vi'.eos = vi.eos) (hn : notified = false)
  | each (remote lockout : Device → Bool) (hwide : act.wide = true)
      (hdevices : vi'.devices = fun p => (vi.devices p).map fun dev =>
        { dev with remote := remote dev, lockout := lockout dev })
      (hline : vi'.srqLine = vi.srqLine) (heos : vi'.eos = vi.eos) (hn : notified = false)
  /-- It ends with `update_srq`. -/
  | update {p : UInt8} {dev dev' : Device} (hpad : act.pad = some p) (h : vi.devices p = some dev)
      (hdevices : vi'.devices = Function.update vi.devices p (some dev'.noteMss))
      (hwork : dev.Work act.forces dev') (hline : vi'.srqLine = vi'.anyMss)
      (heos : vi'.eos = vi.eos) (hn : notified = (dev'.mss && !dev'.lastMss))
  | poll {p : UInt8} {dev : Device} (hpad : act.pad = some p) (h : vi.devices p = some dev)
      (hdevices : vi'.devices = Function.update vi.devices p (some dev.noteMss))
      (hline : vi'.srqLine = vi'.anyMss) (heos : vi'.eos = vi.eos) (hn : notified = false)

/-- What a call on `pad` can do to the devices. -/
inductive Touches (pad : Option UInt8) (before after : UInt8 → Option Device)
    (notified : Bool) : Prop where
  | none (hafter : after = before) (hn : notified = false)
  | one {p : UInt8} {dev : Device} (dev' : Device) (hpad : pad = some p)
      (h : before p = some dev)
      (hafter : after = Function.update before p (some dev'))
      (hkind : dev'.kind = dev.kind) (hlevel : dev'.level = dev.level) (hn : notified = false)
  | each {g : Device → Device} (hafter : after = fun p => (before p).map g)
      (hkind : ∀ dev, (g dev).kind = dev.kind) (hlevel : ∀ dev, (g dev).level = dev.level)
      (hn : notified = false)
  /-- It ends with `update_srq`. -/
  | update {p : UInt8} {dev : Device} (dev' : Device) (hpad : pad = some p)
      (h : before p = some dev)
      (hafter : after = Function.update before p (some dev'.noteMss))
      (hkind : dev'.kind = dev.kind) (hlast : dev'.lastMss = dev.lastMss)
      (hn : notified = (dev'.mss && !dev'.lastMss))
  | poll {p : UInt8} {dev : Device} (hpad : pad = some p) (h : before p = some dev)
      (hafter : after = Function.update before p (some dev.noteMss))
      (hn : notified = false)

/-- The devices, without the rest. -/
theorem Effect.touches {act : Action} {vi vi' : VirtualInstrument} {notified : Bool}
    (h : Effect act vi vi' notified) : Touches act.pad vi.devices vi'.devices notified := by
  cases h with
  | none hdevices hline heos hn => exact .none hdevices hn
  | one hpad h hdevices hwork hlevel hline heos hn =>
      exact .one _ hpad h hdevices hwork.kind hlevel hn
  | each remote lockout hwide hdevices hline heos hn =>
      exact .each hdevices (fun _ => rfl) (fun _ => rfl) hn
  | update hpad h hdevices hwork hline heos hn =>
      exact .update _ hpad h hdevices hwork.kind hwork.lastMss hn
  | poll hpad h hdevices hline heos hn => exact .poll hpad h hdevices hn

/-! ## Backend operations -/

namespace Instrument.VirtualInstrument

/-- `update_srq`, behind a change to one device. -/
theorem updateSrq_effect (vi : VirtualInstrument) {act : Action} {before : VirtualInstrument}
    {pad : UInt8} {dev dev' : Device} (hpad : act.pad = some pad) (hsame : vi.devices = before.devices)
    (heos : vi.eos = before.eos) (h : before.devices pad = some dev)
    (hwork : dev.Work act.forces dev') :
    Effect act before ((vi.setDevice pad dev').updateSrq pad).1
      ((vi.setDevice pad dev').updateSrq pad).2 := by
  rw [updateSrq_setDevice]
  exact .update hpad h (by rw [← hsame]; rfl) hwork rfl heos rfl

theorem write_effect (vi : VirtualInstrument) (pad : UInt8) (data : List UInt8) (sendEoi : Bool) :
    Effect (.op (.write pad data sendEoi)) vi (vi.write pad data sendEoi).bus
      (vi.write pad data sendEoi).notified := by
  simp only [write]
  split
  · exact .none rfl rfl (fun _ => rfl) rfl
  cases h : (vi.push (.write pad data sendEoi)).devices pad with
  | none => exact .none rfl rfl (fun _ => rfl) rfl
  | some dev =>
      cases hc : (sendEoi || data.contains 0x0A) with
      | false => exact .one rfl h rfl (.input _) rfl rfl rfl rfl
      | true =>
          simp only [foldlM_execute, Bool.not_true, Bool.false_eq_true, if_false]
          exact updateSrq_effect (vi.push _) rfl rfl rfl h (.message _)

theorem read_effect (vi : VirtualInstrument) (pad : UInt8) (maxLen : Nat) :
    Effect (.op (.read pad maxLen)) vi (vi.read pad maxLen).bus (vi.read pad maxLen).notified := by
  simp only [read]
  cases h : vi.devices pad with
  | none => exact .none rfl rfl (fun _ => rfl) rfl
  | some dev =>
      simp only
      split
      · exact .none rfl rfl (fun _ => rfl) rfl
      · simp only [thenUpdateSrq, updateSrq_setDevice]
        exact .update rfl h rfl (.drain _) rfl rfl rfl

theorem serialPoll_effect (vi : VirtualInstrument) (pad : UInt8) :
    Effect (.op (.serialPoll pad)) vi (vi.serialPoll pad).bus (vi.serialPoll pad).notified := by
  simp only [serialPoll]
  cases vi.faults.forced with
  | some forced => exact .none rfl rfl (fun _ => rfl) rfl
  | none =>
      cases h : vi.devices pad with
      | none => exact .none rfl rfl (fun _ => rfl) rfl
      | some dev => exact .poll rfl h rfl rfl rfl rfl

/-- **A backend operation** and the bus. -/
theorem perform_effect (vi : VirtualInstrument) (op : Op) :
    Effect (.op op) vi (vi.perform op).bus (vi.perform op).notified := by
  cases op with
  | write pad data sendEoi => exact write_effect vi pad data sendEoi
  | read pad maxLen => exact read_effect vi pad maxLen
  | serialPoll pad => exact serialPoll_effect vi pad
  | deviceClear pad =>
      simp only [perform, deviceClear, Outcome.done]
      cases h : (vi.push (.clear pad)).devices pad with
      | none => exact .none rfl rfl (fun _ => rfl) rfl
      | some dev => exact updateSrq_effect (vi.push _) rfl rfl rfl h .clear
  | trigger pad =>
      simp only [perform, trigger, Outcome.done]
      cases h : (vi.push (.trigger pad)).devices pad with
      | none => exact .none rfl rfl (fun _ => rfl) rfl
      | some dev => exact updateSrq_effect (vi.push _) rfl rfl rfl h .trigger
  | goToRemote pad =>
      simp only [perform, goToRemote, Outcome.done]
      cases h : (vi.push (.goToRemote pad)).devices pad with
      | none => exact .none rfl rfl (fun _ => rfl) rfl
      | some dev => exact .one rfl h rfl (.remote true) rfl rfl rfl rfl
  | goToLocal pad =>
      simp only [perform, goToLocal, Outcome.done]
      cases h : (vi.push (.goToLocal pad)).devices pad with
      | none => exact .none rfl rfl (fun _ => rfl) rfl
      | some dev => exact .one rfl h rfl (.remote false) rfl rfl rfl rfl
  | ifc => exact .each (fun _ => false) Device.lockout rfl rfl rfl rfl rfl
  | ren enable =>
      exact .each (fun _ => enable) (fun dev => enable && dev.lockout) rfl rfl rfl rfl rfl
  | localLockout =>
      exact .each Device.remote (fun _ => true) rfl rfl rfl rfl rfl
  | setEos eosChar enabled => exact .none rfl rfl Bool.noConfusion rfl
  | _ => exact .none rfl rfl (fun _ => rfl) rfl

end Instrument.VirtualInstrument

/-! ## Calls -/

namespace Control

theorem withDevice_effect (ctl : Control) {act : Action} {pad : UInt8} (hpad : act.pad = some pad)
    {f : Device → Device} (hwork : ∀ dev : Device, dev.Work act.forces (f dev))
    (hlevel : ∀ dev, (f dev).level = dev.level) :
    Effect act ctl.instrument (ctl.withDevice pad f).1.instrument
      (ctl.withDevice pad f).2.notified := by
  simp only [withDevice]
  cases h : ctl.instrument.devices pad with
  | none => exact .none rfl rfl (fun _ => rfl) rfl
  | some dev => exact .one hpad h rfl (hwork dev) (hlevel dev) rfl rfl rfl

/-- **A control request** other than a reset, and the bus. -/
theorem handle_effect (ctl : Control) {request : Request} (h : request ≠ .reset) :
    Effect (.request request) ctl.instrument (ctl.handle request).1.instrument
      (ctl.handle request).2.notified := by
  cases request with
  | reset => exact absurd rfl h
  | respond pad query response =>
      exact withDevice_effect ctl rfl (fun dev => .respond query response)
        (fun dev => by cases response <;> rfl)
  | bigReply pad bytes => exact withDevice_effect ctl rfl (fun _ => .bigReply bytes) (fun _ => rfl)
  | setStb pad bits =>
      simp only [handle]
      cases hd : ctl.instrument.devices pad with
      | none => exact .none rfl rfl (fun _ => rfl) rfl
      | some dev => exact VirtualInstrument.updateSrq_effect ctl.instrument rfl rfl rfl hd (.stb rfl)
  | _ => exact .none rfl rfl (fun _ => rfl) rfl

/-- **A call** other than a reset, and the bus. -/
theorem step_effect {ctl ctl' : Control} {act : Action} {out : Output}
    (hreset : act ≠ .request .reset) (h : ctl.step act = some (ctl', out)) :
    Effect act ctl.instrument ctl'.instrument out.notified := by
  cases act with
  | op op =>
      obtain ⟨rfl, rfl⟩ := Prod.mk.inj (Option.some.inj h)
      exact VirtualInstrument.perform_effect ctl.instrument op
  | request request =>
      have heq : ctl.handle request = (ctl', out) := Option.some.inj h
      have heffect := @handle_effect ctl request fun hr => hreset (congrArg _ hr)
      rw [heq] at heffect
      exact heffect
  | observeCalls buf | rewriteReplies buf =>
      obtain ⟨rfl, rfl⟩ := Prod.mk.inj (Option.some.inj h)
      exact .none rfl rfl (fun _ => rfl) rfl
  | observe buf side =>
      simp only [step, Option.map_eq_some_iff] at h
      obtain ⟨hislip, -, heq⟩ := h
      obtain ⟨rfl, rfl⟩ := Prod.mk.inj heq
      exact .none rfl rfl (fun _ => rfl) rfl
  | rewrite buf =>
      simp only [step, Option.map_eq_some_iff] at h
      obtain ⟨r, -, heq⟩ := h
      obtain ⟨rfl, rfl⟩ := Prod.mk.inj heq
      exact .none rfl rfl (fun _ => rfl) rfl

/-- **A call** other than a reset, and the devices. -/
theorem step_touches {ctl ctl' : Control} {act : Action} {out : Output}
    (hreset : act ≠ .request .reset) (h : ctl.step act = some (ctl', out)) :
    Touches act.pad ctl.instrument.devices ctl'.instrument.devices out.notified :=
  (step_effect hreset h).touches

end Control

end TestGear
