import TestGear.Control.Touches

/-!
# TestGear.Control.Srq

SRQ is an edge of MSS.  A device keeps the MSS it last saw in `last_mss`, and
the broadcast is sent where the two differ.  What the edge detection depends
on is the `Level` of each device; `Moves` says what a call can do to them.

* `srqIsEdge_iff` — the broadcast follows the edges of MSS exactly where
  `last_mss` is current;
* `srq_edges_iff` — it does all along a run exactly if no reset of the run
  finds a device requesting service;
* `reset_loses_edge` — the service request after such a reset is lost.
-/

namespace TestGear

open Instrument Runs

/-! ## Levels -/

abbrev Instrument.Levels := UInt8 → Option Level

def Instrument.VirtualInstrument.levels (vi : VirtualInstrument) : Levels := vi.view Device.level

/-- What a call on `pad` can do to the levels. -/
inductive Moves (pad : Option UInt8) (before after : Levels) (notified : Bool) : Prop where
  /-- It touches none. -/
  | still (hafter : after = before) (hn : notified = false)
  /-- It ends with `update_srq`. -/
  | update {p : UInt8} {l : Level} (mss : Bool) (hpad : pad = some p) (hl : before p = some l)
      (hafter : after = Function.update before p (some ⟨mss, mss⟩))
      (hn : notified = (mss && !l.noted))
  /-- It is a serial poll. -/
  | poll {p : UInt8} {l : Level} (hpad : pad = some p) (hl : before p = some l)
      (hafter : after = Function.update before p (some ⟨l.mss, l.mss⟩)) (hn : notified = false)

namespace Instrument.VirtualInstrument

theorem mss_eq_levels (vi : VirtualInstrument) (pad : UInt8) :
    vi.mss pad = ((vi.levels pad).map Level.mss).getD false := by
  rw [mss, levels, view]
  cases vi.devices pad <;> rfl

end Instrument.VirtualInstrument

/-! ## Calls -/

/-- What a call does to the devices, as far as the levels go. -/
theorem Touches.moves {pad : Option UInt8} {vi vi' : VirtualInstrument} {notified : Bool}
    (h : Touches pad vi.devices vi'.devices notified) :
    Moves pad vi.levels vi'.levels notified := by
  cases h with
  | none hafter hn => exact .still (VirtualInstrument.view_congr hafter) hn
  | one dev' hpad h hafter hkind hlevel hn =>
      exact .still (VirtualInstrument.view_of_update_still hafter h hlevel) hn
  | each hafter hkind hlevel hn => exact .still (VirtualInstrument.view_of_map hafter hlevel) hn
  | update dev' hpad h hafter hkind hlast hn =>
      refine .update dev'.mss hpad (VirtualInstrument.view_eq_some h)
        (VirtualInstrument.view_of_update hafter) ?_
      rw [hn, hlast]
      rfl
  | poll hpad h hafter hn =>
      exact .poll hpad (VirtualInstrument.view_eq_some h)
        (VirtualInstrument.view_of_update hafter) hn

namespace Control

/-- A device that has been reset requests no service. -/
theorem mss_reset (dev : Device) : dev.reset.mss = false := by
  simp [Device.mss, Device.stb, Device.reset]

/-- A reset brings every MSS down, and leaves what was noted of it. -/
theorem levels_reset (ctl : Control) (pad : UInt8) :
    ctl.reset.instrument.levels pad =
      (ctl.instrument.levels pad).map fun l => { l with mss := false } := by
  simp only [reset, VirtualInstrument.levels, VirtualInstrument.view, VirtualInstrument.resetDevices,
    VirtualInstrument.mapDevices, Option.map_map]
  refine congrArg (fun g => (ctl.instrument.devices pad).map g) (funext fun dev => ?_)
  exact congrArg (fun mss => (⟨mss, dev.lastMss⟩ : Level)) (mss_reset dev)

end Control

/-! ## Edges -/

/-- Every device's `last_mss` is its MSS. -/
def LastMssCurrent (ctl : Control) : Prop :=
  ∀ pad dev, ctl.instrument.devices pad = some dev → dev.lastMss = dev.mss

/-- Whatever is called next, SRQ is broadcast if and only if the MSS of the
device it is on rises, and never by a call that is on no device. -/
def SrqIsEdge (ctl : Control) : Prop :=
  ∀ act ctl' out, ctl.step act = some (ctl', out) →
    (∀ pad, act.pad = some pad →
      (out.notified = true ↔
        ctl.instrument.mss pad = false ∧ ctl'.instrument.mss pad = true)) ∧
    (act.pad = none → out.notified = false)

theorem lastMssCurrent_iff_levels (ctl : Control) :
    LastMssCurrent ctl ↔ ∀ pad l, ctl.instrument.levels pad = some l → l.noted = l.mss := by
  constructor
  · intro h pad l hl
    obtain ⟨dev, hdev, rfl⟩ := Option.map_eq_some_iff.mp hl
    exact h pad dev hdev
  · intro h pad dev hdev
    exact h pad dev.level (VirtualInstrument.view_eq_some hdev)

/-- Where the level noted is current, a call leaves it current. -/
theorem Moves.current {pad : Option UInt8} {before after : Levels} {notified : Bool}
    (h : Moves pad before after notified)
    (hcur : ∀ p l, before p = some l → l.noted = l.mss) :
    ∀ p l, after p = some l → l.noted = l.mss := by
  intro p l hl
  cases h with
  | still hafter hn =>
      rw [hafter] at hl
      exact hcur p l hl
  | @update q m mss hpad hm hafter hn | @poll q m hpad hm hafter hn =>
      rw [hafter, Function.update_apply] at hl
      split at hl
      · cases hl
        rfl
      · exact hcur p l hl

/-- Where the level noted is current, a call notifies on the edge. -/
theorem Moves.notified_iff {p : UInt8} {before after : Levels} {notified : Bool}
    (h : Moves (some p) before after notified)
    (hcur : ∀ p l, before p = some l → l.noted = l.mss) :
    notified = true ↔ ((before p).map Level.mss).getD false = false ∧
      ((after p).map Level.mss).getD false = true := by
  cases h with
  | still hafter hn =>
      rw [hafter, hn]
      cases ((before p).map Level.mss).getD false <;> simp
  | @update q l mss hpad hl hafter hn =>
      cases hpad
      rw [hafter, hn, Function.update_self, hl, hcur p l hl]
      cases mss <;> simp
  | @poll q l hpad hl hafter hn =>
      cases hpad
      rw [hafter, hn, Function.update_self, hl]
      cases hm : l.mss <;> simp [hm]

theorem Moves.silent {before after : Levels} {notified : Bool}
    (h : Moves none before after notified) : notified = false := by
  cases h with
  | still hafter hn => exact hn
  | update _ hpad => cases hpad
  | poll hpad => cases hpad

/-- **Edges**: the broadcast follows the edges of MSS exactly where every
`last_mss` is current. -/
theorem srqIsEdge_iff (ctl : Control) : SrqIsEdge ctl ↔ LastMssCurrent ctl := by
  constructor
  · -- set bit 6 itself: the device then requests service, whatever its masks
    intro h pad dev hdev
    have hstep : ctl.step (.request (.setStb pad stbMss)) =
        some (ctl.setInstrument ((ctl.instrument.setDevice pad (dev.setUserStb stbMss)).updateSrq pad).1,
          ⟨.response .ok, ((ctl.instrument.setDevice pad (dev.setUserStb stbMss)).updateSrq pad).2⟩) := by
      simp only [Control.step, Control.handle, hdev]
    have hedge := (h _ _ _ hstep).1 pad rfl
    simp only [Control.setInstrument, VirtualInstrument.updateSrq_setDevice, VirtualInstrument.mss,
      VirtualInstrument.setDevice_devices, hdev, Function.update_self, Option.map_some,
      Option.getD_some] at hedge
    have hmss : (dev.setUserStb stbMss).noteMss.mss = true := mss_setUserStb dev
    have hlast : (dev.setUserStb stbMss).lastMss = dev.lastMss := rfl
    rw [mss_setUserStb, hlast, hmss] at hedge
    revert hedge
    cases dev.lastMss <;> cases dev.mss <;> simp
  · intro h act ctl' out hstep
    have hcur := (lastMssCurrent_iff_levels ctl).mp h
    by_cases hreset : act = .request .reset
    · subst hreset
      obtain ⟨rfl, rfl⟩ := Prod.mk.inj (Option.some.inj hstep)
      constructor
      · intro pad hpad
        cases hpad
      · exact fun _ => rfl
    have hmoves := (Control.step_touches hreset hstep).moves
    constructor
    · intro pad hpad
      rw [hpad] at hmoves
      rw [VirtualInstrument.mss_eq_levels, VirtualInstrument.mss_eq_levels]
      exact hmoves.notified_iff hcur
    · intro hpad
      rw [hpad] at hmoves
      exact hmoves.silent

/-! ## Runs -/

/-- A reset that finds no device requesting service. -/
def CalmReset (ctl : Control) (act : Action) : Prop :=
  act = .request .reset → ∀ pad, ctl.instrument.mss pad = false

theorem lastMssCurrent_new (ports : PortInfo) (pads : List UInt8) :
    LastMssCurrent (.new ports pads) := by
  intro pad dev hdev
  simp only [Control.new, VirtualInstrument.new] at hdev
  split at hdev
  · cases hdev
    rfl
  · cases hdev

/-- A reset leaves `last_mss` current just where it found no request. -/
theorem lastMssCurrent_reset {ctl : Control} (h : LastMssCurrent ctl) :
    LastMssCurrent ctl.reset ↔ ∀ pad, ctl.instrument.mss pad = false := by
  rw [lastMssCurrent_iff_levels] at h ⊢
  constructor
  · intro hreset pad
    rw [VirtualInstrument.mss_eq_levels]
    cases hl : ctl.instrument.levels pad with
    | none => rfl
    | some l =>
        have hnoted : l.noted = false :=
          hreset pad { l with mss := false } (by rw [Control.levels_reset, hl]; rfl)
        exact (h pad l hl).symm.trans hnoted
  · intro hcalm pad l' hl'
    rw [Control.levels_reset] at hl'
    obtain ⟨l, hl, rfl⟩ := Option.map_eq_some_iff.mp hl'
    have hmss : l.mss = false := by
      have hpad := hcalm pad
      rw [VirtualInstrument.mss_eq_levels, hl] at hpad
      exact hpad
    exact (h pad l hl).trans hmss

/-- **One call**: `last_mss` stays current unless the call is a reset that finds
a device requesting service. -/
theorem lastMssCurrent_step {ctl ctl' : Control} {act : Action} {out : Output}
    (h : LastMssCurrent ctl) (hstep : ctl.step act = some (ctl', out)) :
    LastMssCurrent ctl' ↔ CalmReset ctl act := by
  by_cases hreset : act = .request .reset
  · subst hreset
    obtain ⟨rfl, rfl⟩ := Prod.mk.inj (Option.some.inj hstep)
    rw [lastMssCurrent_reset h]
    exact ⟨fun hcalm _ => hcalm, fun hcalm => hcalm rfl⟩
  · have hcur := (Control.step_touches hreset hstep).moves.current ((lastMssCurrent_iff_levels ctl).mp h)
    exact iff_of_true ((lastMssCurrent_iff_levels ctl').mpr hcur) fun hr => absurd hr hreset

/-- **SRQ is an edge of MSS**: in every state of a run every `last_mss` is
current, and whatever is called next broadcasts on the edge, if and only if no
reset of the run found a device requesting service. -/
theorem srq_edges_iff (ports : PortInfo) (pads : List UInt8) (acts : List Action) :
    Always Control.step (fun ctl => SrqIsEdge ctl ∧ LastMssCurrent ctl) (.new ports pads) acts ↔
      Throughout Control.step CalmReset (.new ports pads) acts := by
  have hboth (ctl : Control) : (SrqIsEdge ctl ∧ LastMssCurrent ctl) ↔ LastMssCurrent ctl :=
    ⟨And.right, fun h => ⟨(srqIsEdge_iff ctl).mpr h, h⟩⟩
  simp only [hboth]
  refine always_iff_throughout (fun ctl act ctl' out h hstep => lastMssCurrent_step h hstep) ?_
    (lastMssCurrent_new ports pads) acts
  intro ctl act hnone hreset
  subst hreset
  cases hnone

/-- Request service from bit 0, raise it, and reset. -/
def resetWhileRequesting : List Action :=
  [.op (.write 22 (asBytes "*SRE 1".toList) true), .request (.setStb 22 1), .request .reset]

/-- After that the same bit raises MSS again, and nothing is broadcast. -/
theorem reset_loses_edge :
    ∃ ctl ctl' out, exec Control.step (.new somePorts [22]) resetWhileRequesting = some ctl ∧
      ctl.step (.request (.setStb 22 1)) = some (ctl', out) ∧
      ctl.instrument.mss 22 = false ∧ ctl'.instrument.mss 22 = true ∧ out.notified = false := by
  refine ⟨_, _, _, rfl, rfl, ?_, ?_, ?_⟩ <;> decide +kernel

end TestGear
