import TestGear.Control.Touches

/-!
# TestGear.Control.Isolation

Instruments on one bus.  What a call on an address can reach is the device
there and the EOS character (`Control.Seat`); everything else on the bus is
shared but never read on the way to a device, except for the fault knobs.

* `seat_elsewhere` — a call that is neither on the address nor for the whole
  bus leaves its seat alone;
* `seat_own` — one that is depends on the seat only;
* `devices_isolated` — so the device and its answers are the same after any two
  runs with the same calls on it and on the whole bus.
-/

namespace TestGear

open Instrument Runs

/-- Is a call on this address? -/
def Action.on (pad : UInt8) (act : Action) : Bool := act.pad == some pad

/-- Is a call on this address, or on the bus as a whole? -/
def Action.concerns (pad : UInt8) (act : Action) : Bool := act.on pad || act.wide

namespace Control

/-- No instrument fault knob is armed. -/
structure NoKnob (ctl : Control) : Prop where
  write : ctl.instrument.faults.failNextWrite = false
  poll : ctl.instrument.faults.forced = none

/-- What a call on an address can reach. -/
structure Seat where
  device : Option Device
  eos : UInt8 × Bool
deriving DecidableEq

def seat (pad : UInt8) (ctl : Control) : Seat := ⟨ctl.instrument.devices pad, ctl.instrument.eos⟩

/-! ## Calls elsewhere -/

/-- **A call elsewhere** leaves the seat alone. -/
theorem seat_elsewhere {pad : UInt8} {ctl ctl' : Control} {act : Action} {out : Output}
    (hact : act.concerns pad = false) (hstep : ctl.step act = some (ctl', out)) :
    ctl'.seat pad = ctl.seat pad := by
  rw [Action.concerns, Bool.or_eq_false_iff] at hact
  obtain ⟨hon, hwide⟩ := hact
  have hreset : act ≠ .request .reset := by
    rintro rfl
    cases hwide
  have hother {p : UInt8} {dev : Device} (hp : act.pad = some p)
      (hdevices : ctl'.instrument.devices = Function.update ctl.instrument.devices p (some dev)) :
      ctl'.instrument.devices pad = ctl.instrument.devices pad := by
    have hne : pad ≠ p := by
      rintro rfl
      simp [Action.on, hp] at hon
    rw [hdevices, Function.update_of_ne hne]
  rw [seat, seat, Seat.mk.injEq]
  cases step_effect hreset hstep with
  | none hdevices hline heos hn => exact ⟨by rw [hdevices], heos hwide⟩
  | one hpad h hdevices hwork hlevel hline heos hn => exact ⟨hother hpad hdevices, heos⟩
  | each remote lockout hwide' => exact absurd (hwide.symm.trans hwide') Bool.false_ne_true
  | update hpad h hdevices hwork hline heos hn => exact ⟨hother hpad hdevices, heos⟩
  | poll hpad h hdevices hline heos hn => exact ⟨hother hpad hdevices, heos⟩

/-! ## Calls on the address -/

end Control

namespace Instrument.VirtualInstrument

/-- Two buses that a call on `pad` cannot tell apart. -/
structure SameSeat (pad : UInt8) (v w : VirtualInstrument) : Prop where
  device : v.devices pad = w.devices pad
  eos : v.eos = w.eos

/-- Two outcomes that whoever is at `pad` cannot tell apart. -/
structure SameOutcome {α : Type} (pad : UInt8) (o p : Outcome α) : Prop where
  seat : SameSeat pad o.bus p.bus
  result : o.result = p.result
  notified : o.notified = p.notified

variable {pad : UInt8} {v w : VirtualInstrument}

theorem SameSeat.push (h : SameSeat pad v w) (event : Event) :
    SameSeat pad (v.push event) (w.push event) :=
  ⟨h.device, h.eos⟩

theorem SameSeat.setDevice (h : SameSeat pad v w) (dev : Device) :
    SameSeat pad (v.setDevice pad dev) (w.setDevice pad dev) :=
  ⟨by simp, h.eos⟩

theorem SameSeat.mapDevices (h : SameSeat pad v w) (f : Device → Device) :
    SameSeat pad (v.mapDevices f) (w.mapDevices f) :=
  ⟨congrArg (Option.map f) h.device, h.eos⟩

/-- A call that ends with `update_srq`: the line differs, the device does not. -/
theorem SameSeat.thenUpdateSrq {α : Type} (h : SameSeat pad v w) (dev : Device) (value : α) :
    SameOutcome pad ((v.setDevice pad dev).thenUpdateSrq pad value)
      ((w.setDevice pad dev).thenUpdateSrq pad value) := by
  simp only [VirtualInstrument.thenUpdateSrq, updateSrq_setDevice]
  exact ⟨⟨by simp, h.eos⟩, rfl, rfl⟩

theorem SameOutcome.push {α : Type} {o p : Outcome α} (h : SameOutcome pad o p) (event : Event) :
    SameOutcome pad { o with bus := o.bus.push event } { p with bus := p.bus.push event } :=
  ⟨h.seat.push event, h.result, h.notified⟩

theorem SameOutcome.done {o p : Outcome Unit} (h : SameOutcome pad o p) :
    SameOutcome pad o.done p.done :=
  ⟨h.seat, by rw [Outcome.done, Outcome.done, h.result], h.notified⟩

theorem SameOutcome.data {o p : Outcome (List UInt8 × Bool)} (h : SameOutcome pad o p) :
    SameOutcome pad o.data p.data :=
  ⟨h.seat, by rw [Outcome.data, Outcome.data, h.result], h.notified⟩

theorem SameSeat.write (h : SameSeat pad v w) (hv : v.faults.failNextWrite = false)
    (hw : w.faults.failNextWrite = false) (data : List UInt8) (sendEoi : Bool) :
    SameOutcome pad (v.write pad data sendEoi) (w.write pad data sendEoi) := by
  have hpush := h.push (.write pad data sendEoi)
  have hv' : (v.push (.write pad data sendEoi)).faults.failNextWrite = false := hv
  have hw' : (w.push (.write pad data sendEoi)).faults.failNextWrite = false := hw
  simp only [VirtualInstrument.write, hv', hw', Bool.false_eq_true, if_false, hpush.device]
  cases (w.push (.write pad data sendEoi)).devices pad with
  | none => exact ⟨hpush, rfl, rfl⟩
  | some dev =>
      cases sendEoi || data.contains 0x0A with
      | false => exact ⟨hpush.setDevice _, rfl, rfl⟩
      | true =>
          simp only [foldlM_execute, Bool.not_true, Bool.false_eq_true, if_false]
          exact hpush.thenUpdateSrq _ ()

theorem SameSeat.read (h : SameSeat pad v w) (maxLen : Nat) :
    SameOutcome pad (v.read pad maxLen) (w.read pad maxLen) := by
  simp only [VirtualInstrument.read, h.device, h.eos]
  cases w.devices pad with
  | none => exact ⟨h, rfl, rfl⟩
  | some dev =>
      by_cases ho : dev.output = []
      · simp only [ho, if_true]
        exact ⟨h.push _, rfl, rfl⟩
      · simp only [ho, if_false]
        exact (h.thenUpdateSrq _ _).push _

theorem SameSeat.serialPoll (h : SameSeat pad v w) (hv : v.faults.forced = none)
    (hw : w.faults.forced = none) : SameOutcome pad (v.serialPoll pad) (w.serialPoll pad) := by
  simp only [VirtualInstrument.serialPoll, hv, hw, h.device]
  cases w.devices pad with
  | none => exact ⟨h, rfl, rfl⟩
  | some dev => exact ⟨⟨(h.setDevice dev.noteMss).device, h.eos⟩, rfl, rfl⟩

theorem SameSeat.deviceClear (h : SameSeat pad v w) :
    SameOutcome pad (v.deviceClear pad) (w.deviceClear pad) := by
  have hpush := h.push (.clear pad)
  simp only [VirtualInstrument.deviceClear, hpush.device]
  cases (w.push (.clear pad)).devices pad with
  | none => exact ⟨hpush, rfl, rfl⟩
  | some dev => exact hpush.thenUpdateSrq _ ()

theorem SameSeat.trigger (h : SameSeat pad v w) :
    SameOutcome pad (v.trigger pad) (w.trigger pad) := by
  have hpush := h.push (.trigger pad)
  simp only [VirtualInstrument.trigger, hpush.device]
  cases (w.push (.trigger pad)).devices pad with
  | none => exact ⟨hpush, rfl, rfl⟩
  | some dev => exact hpush.thenUpdateSrq _ ()

/-- Remote enable is shared, but no device reads it back. -/
theorem SameSeat.goToRemote (h : SameSeat pad v w) :
    SameOutcome pad (v.goToRemote pad) (w.goToRemote pad) := by
  have hpush := h.push (.goToRemote pad)
  simp only [VirtualInstrument.goToRemote, hpush.device]
  cases (w.push (.goToRemote pad)).devices pad with
  | none => exact ⟨⟨hpush.device, hpush.eos⟩, rfl, rfl⟩
  | some dev => exact ⟨⟨(hpush.setDevice { dev with remote := true }).device, hpush.eos⟩, rfl, rfl⟩

theorem SameSeat.goToLocal (h : SameSeat pad v w) :
    SameOutcome pad (v.goToLocal pad) (w.goToLocal pad) := by
  have hpush := h.push (.goToLocal pad)
  simp only [VirtualInstrument.goToLocal, hpush.device]
  cases (w.push (.goToLocal pad)).devices pad with
  | none => exact ⟨hpush, rfl, rfl⟩
  | some dev => exact ⟨hpush.setDevice _, rfl, rfl⟩

/-- **A backend operation** on the address or on the whole bus. -/
theorem SameSeat.perform (h : SameSeat pad v w) {op : Op} (hop : (Action.op op).concerns pad = true)
    (hv : v.faults.failNextWrite = false ∧ v.faults.forced = none)
    (hw : w.faults.failNextWrite = false ∧ w.faults.forced = none) :
    SameOutcome pad (v.perform op) (w.perform op) := by
  have hpad {p : UInt8} (hp : op.pad = some p) (hwide : (Action.op op).wide = false) : p = pad := by
    rw [Action.concerns, hwide, Bool.or_false] at hop
    simpa [Action.on, Action.pad, hp] using hop
  cases op with
  | write p data sendEoi =>
      obtain rfl := hpad rfl rfl
      exact (h.write hv.1 hw.1 data sendEoi).done
  | read p maxLen =>
      obtain rfl := hpad rfl rfl
      exact (h.read maxLen).data
  | deviceClear p =>
      obtain rfl := hpad rfl rfl
      exact h.deviceClear.done
  | trigger p =>
      obtain rfl := hpad rfl rfl
      exact h.trigger.done
  | goToRemote p =>
      obtain rfl := hpad rfl rfl
      exact h.goToRemote.done
  | goToLocal p =>
      obtain rfl := hpad rfl rfl
      exact h.goToLocal.done
  | serialPoll p =>
      obtain rfl := hpad rfl rfl
      have hpoll := h.serialPoll hv.2 hw.2
      exact ⟨hpoll.seat, congrArg (Except.map Value.byte) hpoll.result, hpoll.notified⟩
  | ifc => exact ⟨(h.push .ifc).mapDevices _, rfl, rfl⟩
  | ren enable =>
      have hmap := (h.push (.ren enable)).mapDevices fun dev =>
        { dev with remote := enable, lockout := enable && dev.lockout }
      exact ⟨⟨hmap.device, hmap.eos⟩, rfl, rfl⟩
  | localLockout => exact ⟨(h.push .localLockout).mapDevices _, rfl, rfl⟩
  | setEos eosChar enabled => exact ⟨⟨h.device, rfl⟩, rfl, rfl⟩
  | _ => cases hop

end Instrument.VirtualInstrument

namespace Control

variable {pad : UInt8} {s t : Control}

theorem sameSeat_iff : s.seat pad = t.seat pad ↔ VirtualInstrument.SameSeat pad s.instrument t.instrument := by
  rw [seat, seat, Seat.mk.injEq]
  exact ⟨fun h => ⟨h.1, h.2⟩, fun h => ⟨h.device, h.eos⟩⟩

/-- A control request for one device. -/
theorem withDevice_seat (h : VirtualInstrument.SameSeat pad s.instrument t.instrument)
    (f : Device → Device) :
    VirtualInstrument.SameSeat pad (s.withDevice pad f).1.instrument
        (t.withDevice pad f).1.instrument ∧
      (s.withDevice pad f).2 = (t.withDevice pad f).2 := by
  simp only [withDevice, h.device]
  cases t.instrument.devices pad with
  | none => exact ⟨h, rfl⟩
  | some dev => exact ⟨h.setDevice (f dev), rfl⟩

/-- **A control request** for the address or the whole bus. -/
theorem handle_seat (h : VirtualInstrument.SameSeat pad s.instrument t.instrument)
    {request : Request} (hreq : (Action.request request).concerns pad = true) :
    VirtualInstrument.SameSeat pad (s.handle request).1.instrument (t.handle request).1.instrument ∧
      (s.handle request).2 = (t.handle request).2 := by
  have hpad {p : UInt8} (hp : request.pad = some p) (hwide : (Action.request request).wide = false) :
      p = pad := by
    rw [Action.concerns, hwide, Bool.or_false] at hreq
    simpa [Action.on, Action.pad, hp] using hreq
  cases request with
  | respond p query response =>
      obtain rfl := hpad rfl rfl
      exact withDevice_seat h _
  | bigReply p bytes =>
      obtain rfl := hpad rfl rfl
      exact withDevice_seat h _
  | setStb p bits =>
      obtain rfl := hpad rfl rfl
      simp only [handle, h.device]
      cases t.instrument.devices p with
      | none => exact ⟨h, rfl⟩
      | some dev =>
          have hout := h.thenUpdateSrq (dev.setUserStb bits) ()
          exact ⟨hout.seat, congrArg (Output.mk (.response .ok)) hout.notified⟩
  | reset =>
      have hmap := h.mapDevices Device.reset
      exact ⟨⟨hmap.device, hmap.eos⟩, rfl⟩
  | _ => cases hreq

/-- **A call** on the address or on the whole bus depends on the seat only. -/
theorem seat_own {s' t' : Control} {act : Action} {o p : Output} (h : s.seat pad = t.seat pad)
    (hact : act.concerns pad = true) (hs : s.NoKnob) (ht : t.NoKnob)
    (hstep : s.step act = some (s', o)) (hstep' : t.step act = some (t', p)) :
    s'.seat pad = t'.seat pad ∧ o = p := by
  rw [sameSeat_iff] at h ⊢
  cases act with
  | op op =>
      obtain ⟨rfl, rfl⟩ := Prod.mk.inj (Option.some.inj hstep)
      obtain ⟨rfl, rfl⟩ := Prod.mk.inj (Option.some.inj hstep')
      have hout := h.perform hact ⟨hs.write, hs.poll⟩ ⟨ht.write, ht.poll⟩
      exact ⟨hout.seat, by rw [hout.result, hout.notified]⟩
  | request request =>
      have hone : s.handle request = (s', o) := Option.some.inj hstep
      have hone' : t.handle request = (t', p) := Option.some.inj hstep'
      have hseat := handle_seat h hact
      rw [hone, hone'] at hseat
      exact hseat
  | _ => cases hact

end Control

/-- What the calls on an address returned along a run. -/
def resultsAt (pad : UInt8) (ctl : Control) (acts : List Action) : List Output :=
  answers Control.step (Action.on pad) ctl acts

/-- **Instruments do not see each other's traffic**: after two runs with the same
calls on an address and on the whole bus, in which no instrument fault knob is
armed, the device there is the same, and its calls returned the same. -/
theorem devices_isolated {pad : UInt8} {ctl s t : Control} {acts acts' : List Action}
    (hsame : acts.filter (Action.concerns pad) = acts'.filter (Action.concerns pad))
    (hk : Always Control.step Control.NoKnob ctl acts)
    (hk' : Always Control.step Control.NoKnob ctl acts')
    (h : exec Control.step ctl acts = some s) (h' : exec Control.step ctl acts' = some t) :
    s.instrument.devices pad = t.instrument.devices pad ∧
      resultsAt pad ctl acts = resultsAt pad ctl acts' := by
  have hown (act : Action) (hact : act.concerns pad = false) : act.on pad = false :=
    (Bool.or_eq_false_iff.mp hact).1
  have hskip (r s : Control) (act : Action) (t : Control) (o : Output)
      (hR : r.seat pad = s.seat pad) (_ : s.NoKnob) (hact : act.concerns pad = false)
      (hstep : s.step act = some (t, o)) : r.seat pad = t.seat pad :=
    hR.trans (Control.seat_elsewhere hact hstep).symm
  have hstep (s s' : Control) (act : Action) (t t' : Control) (o o' : Output)
      (hR : s.seat pad = s'.seat pad) (hs : s.NoKnob) (hs' : s'.NoKnob)
      (hact : act.concerns pad = true) (hone : s.step act = some (t, o))
      (hone' : s'.step act = some (t', o')) :
      t.seat pad = t'.seat pad ∧ (act.on pad = true → o = o') :=
    ⟨(Control.seat_own hR hact hs hs' hone hone').1,
      fun _ => (Control.seat_own hR hact hs hs' hone hone').2⟩
  obtain ⟨hseat, hresults⟩ := unwinding (R := fun s t => s.seat pad = t.seat pad)
    (fun _ _ hR => hR.symm) hown hskip hstep rfl hk hk' h h' hsame
  exact ⟨congrArg Control.Seat.device hseat, hresults⟩

/-- A query at address 22. -/
def queryAlone : List Action :=
  [.op (.ren true), .op (.write 22 (asBytes "*STB?".toList) true), .op (.read 22 4)]

/-- The same, among calls at 9, where the other device is, and at 5, where none
is. -/
def queryAmong : List Action :=
  [.op (.write 9 (asBytes "*SRE 16;*IDN?".toList) true), .op (.ren true), .op (.goToRemote 9),
    .op (.write 22 (asBytes "*STB?".toList) true), .op (.trigger 5), .request (.setStb 9 0x41),
    .op (.read 22 4)]

theorem devices_isolated_query :
    ∃ s t, exec Control.step (.new somePorts [9, 22]) queryAlone = some s ∧
      exec Control.step (.new somePorts [9, 22]) queryAmong = some t ∧
      s.instrument.devices 22 = t.instrument.devices 22 ∧
      resultsAt 22 (.new somePorts [9, 22]) queryAlone =
        resultsAt 22 (.new somePorts [9, 22]) queryAmong :=
  ⟨_, _, rfl, rfl, devices_isolated (by decide +kernel)
    (always_cons rfl ⟨rfl, rfl⟩ (always_cons rfl ⟨rfl, rfl⟩ (always_cons rfl ⟨rfl, rfl⟩
      (always_nil ⟨rfl, rfl⟩))))
    (always_cons rfl ⟨rfl, rfl⟩ (always_cons rfl ⟨rfl, rfl⟩ (always_cons rfl ⟨rfl, rfl⟩
      (always_cons rfl ⟨rfl, rfl⟩ (always_cons rfl ⟨rfl, rfl⟩ (always_cons rfl ⟨rfl, rfl⟩
        (always_cons rfl ⟨rfl, rfl⟩ (always_nil ⟨rfl, rfl⟩))))))))
    rfl rfl⟩

end TestGear
