import TestGear.Control.Srq

/-!
# TestGear.Control.Status

What the status byte and the SRQ line say, in every state a run comes to.

The byte is made of `user_stb` and three bits that are computed: MAV, ESB and
MSS.  It tells the truth as long as `user_stb` holds none of the three
(`Device.Plain.truthful`), and of all that is called only a `SetStb` can put
one there.  The line is a copy that `update_srq` refreshes, and nothing that
goes without it reaches an MSS (`settled_step`).

* `stb_truthful` — the status byte tells the truth all along a run that forces
  no computed bit;
* `forced_mav_lies` — one that does;
* `srqLine_wired_or` — the line is up just when a device requests service.
-/

namespace TestGear

open Instrument Runs

/-! ## The status byte -/

/-- The bits of the status byte that are computed. -/
def Instrument.summaryBits : UInt8 := 0x70

namespace Instrument.Device

/-- Bit 4 tells of the output queue, bit 5 of the enabled events, and bit 6 of
every other bit that is enabled. -/
structure Truthful (dev : Device) : Prop where
  mav : dev.stb &&& stbMav ≠ 0 ↔ dev.output ≠ []
  esb : dev.stb &&& stbEsb ≠ 0 ↔ dev.esr &&& dev.ese ≠ 0
  mss : dev.stb &&& stbMss ≠ 0 ↔ dev.stb &&& dev.sre &&& ~~~stbMss ≠ 0

/-- `user_stb` holds none of the computed bits. -/
def Plain (dev : Device) : Prop := dev.userStb &&& summaryBits = 0

/-- The status byte before MSS is computed. -/
def summary (dev : Device) : UInt8 :=
  let stb := if dev.output ≠ [] then dev.userStb ||| stbMav else dev.userStb
  if dev.esr &&& dev.ese ≠ 0 then stb ||| stbEsb else stb

theorem stb_eq_summary (dev : Device) :
    dev.stb = if dev.summary &&& dev.sre &&& ~~~stbMss ≠ 0 then dev.summary ||| stbMss
      else dev.summary := rfl

/-- MSS itself is no part of what it summarises. -/
theorem or_stbMss_summary (x enabled : UInt8) :
    (x ||| stbMss) &&& enabled &&& ~~~stbMss = x &&& enabled &&& ~~~stbMss := by
  have hdrop : (x ||| stbMss) &&& ~~~stbMss = x &&& ~~~stbMss := by
    revert x
    decide +kernel
  rw [UInt8.and_assoc, UInt8.and_comm enabled, ← UInt8.and_assoc, hdrop, UInt8.and_assoc,
    UInt8.and_comm _ enabled, ← UInt8.and_assoc]

/-- What the computation adds to a plain `user_stb`, bit by bit. -/
theorem Plain.summary {dev : Device} (h : dev.Plain) :
    (dev.summary &&& stbMav ≠ 0 ↔ dev.output ≠ []) ∧
      (dev.summary &&& stbEsb ≠ 0 ↔ dev.esr &&& dev.ese ≠ 0) ∧ dev.summary &&& stbMss = 0 := by
  have hbits : ∀ u : UInt8, u &&& summaryBits = 0 →
      u &&& stbMav = 0 ∧ u &&& stbEsb = 0 ∧ u &&& stbMss = 0 ∧
      (u ||| stbMav) &&& stbMav ≠ 0 ∧ (u ||| stbMav) &&& stbEsb = 0 ∧
      (u ||| stbMav) &&& stbMss = 0 ∧
      (u ||| stbEsb) &&& stbMav = 0 ∧ (u ||| stbEsb) &&& stbEsb ≠ 0 ∧
      (u ||| stbEsb) &&& stbMss = 0 ∧
      (u ||| stbMav ||| stbEsb) &&& stbMav ≠ 0 ∧ (u ||| stbMav ||| stbEsb) &&& stbEsb ≠ 0 ∧
      (u ||| stbMav ||| stbEsb) &&& stbMss = 0 := by
    decide +kernel
  have hu := hbits dev.userStb h
  simp only [Device.summary]
  by_cases ho : dev.output = [] <;> by_cases he : dev.esr &&& dev.ese = 0 <;> simp [ho, he, hu]

/-- **The status byte** of a device whose `user_stb` is plain tells the truth. -/
theorem Plain.truthful {dev : Device} (h : dev.Plain) : dev.Truthful := by
  obtain ⟨hmav, hesb, hmss⟩ := h.summary
  have hbits : ∀ x : UInt8, (x ||| stbMss) &&& stbMav = x &&& stbMav ∧
      (x ||| stbMss) &&& stbEsb = x &&& stbEsb ∧ (x ||| stbMss) &&& stbMss ≠ 0 := by
    decide +kernel
  have hor := hbits dev.summary
  by_cases hsum : dev.summary &&& dev.sre &&& ~~~stbMss = 0
  · have hstb : dev.stb = dev.summary := by rw [stb_eq_summary, if_neg (by simpa using hsum)]
    exact ⟨hstb ▸ hmav, hstb ▸ hesb, by rw [hstb, hmss, hsum]⟩
  · have hstb : dev.stb = dev.summary ||| stbMss := by rw [stb_eq_summary, if_pos hsum]
    refine ⟨?_, ?_, ?_⟩
    · rw [hstb, hor.1]
      exact hmav
    · rw [hstb, hor.2.1]
      exact hesb
    · rw [hstb, or_stbMss_summary]
      exact iff_of_true hor.2.2 hsum

theorem Plain.noteMss {dev : Device} (h : dev.Plain) : dev.noteMss.Plain := h

/-- No unit forces a computed bit. -/
theorem Plain.executeUnit {dev : Device} (h : dev.Plain) (unit : Text) :
    (dev.executeUnit unit).Plain := by
  rcases hu : Device.headAndArg unit with ⟨head, arg⟩
  simp only [Device.executeUnit, hu]
  cases dev.responses.lookup (toAsciiUppercase head) with
  | some canned => exact h
  | none =>
      cases Command.ofHeader (toAsciiUppercase head) with
      | sre | ese =>
          simp only [Device.perform]
          cases parseU8 arg <;> exact h
      | errQuery =>
          simp only [Device.perform]
          cases dev.errors <;> exact h
      | rst | cls => exact (UInt8.zero_and : (0 : UInt8) &&& summaryBits = 0)
      | srq =>
          have hone : ∀ u : UInt8, (u ||| 0x01) &&& summaryBits = u &&& summaryBits := by
            decide +kernel
          exact (hone dev.userStb).trans h
      | _ => exact h

theorem Plain.foldl_execute {dev : Device} (h : dev.Plain) (parts : List Text) :
    (parts.foldl Device.execute dev).Plain := by
  rw [Instrument.foldl_execute]
  generalize units parts = us
  induction us generalizing dev with
  | nil => exact h
  | cons u us ih => exact ih (h.executeUnit u)

end Instrument.Device

/-- A device stays plain whatever is called, unless a bit is forced. -/
theorem Instrument.Device.Plain.work {forced : Option UInt8} {dev dev' : Device} (h : dev.Plain)
    (hforced : ∀ bits, forced = some bits → bits &&& summaryBits = 0)
    (hwork : dev.Work forced dev') : dev'.Plain := by
  cases hwork with
  | message bytes =>
      have hplain : Device.Plain { dev with input := [] } := h
      exact hplain.foldl_execute _
  | respond query response => cases response <;> exact h
  | stb hbits => exact hforced _ hbits
  | _ => exact h

/-! ## Runs that force no computed bit -/

/-- Every device is plain. -/
def Control.Plain (ctl : Control) : Prop :=
  ∀ pad dev, ctl.instrument.devices pad = some dev → dev.Plain

/-- A call that forces no computed bit into a device that is there. -/
def ForcesNone (ctl : Control) (act : Action) : Prop :=
  ∀ pad bits, act = .request (.setStb pad bits) → ctl.instrument.devices pad ≠ none →
    bits &&& summaryBits = 0

namespace Control

theorem plain_new (ports : PortInfo) (pads : List UInt8) : (Control.new ports pads).Plain := by
  intro pad dev hdev
  simp only [new, VirtualInstrument.new] at hdev
  split at hdev
  · cases hdev
    rfl
  · cases hdev

theorem Plain.reset {ctl : Control} : ctl.reset.Plain := by
  intro pad dev hdev
  obtain ⟨e, -, rfl⟩ := Option.map_eq_some_iff.mp hdev
  exact (UInt8.zero_and : (0 : UInt8) &&& summaryBits = 0)

theorem Plain.update {ctl ctl' : Control} (h : ctl.Plain) {pad : UInt8} {dev : Device}
    (hdevices : ctl'.instrument.devices = Function.update ctl.instrument.devices pad (some dev))
    (hdev : dev.Plain) : ctl'.Plain := by
  intro p e he
  rw [hdevices, Function.update_apply] at he
  split at he
  · cases he
    exact hdev
  · exact h p e he

/-- **One call**: the devices stay plain unless it forces a computed bit. -/
theorem Plain.step {ctl ctl' : Control} {act : Action} {out : Output} (h : ctl.Plain)
    (hact : ForcesNone ctl act) (hstep : ctl.step act = some (ctl', out)) : ctl'.Plain := by
  by_cases hreset : act = .request .reset
  · subst hreset
    obtain ⟨rfl, rfl⟩ := Prod.mk.inj (Option.some.inj hstep)
    exact Plain.reset
  have hforced {p : UInt8} {dev : Device} (hpad : act.pad = some p)
      (hdev : ctl.instrument.devices p = some dev) (bits : UInt8) (hbits : act.forces = some bits) :
      bits &&& summaryBits = 0 := by
    unfold Action.forces at hbits
    split at hbits
    · cases hpad
      cases hbits
      exact hact p bits rfl (by simp [hdev])
    · cases hbits
  cases step_effect hreset hstep with
  | none hdevices hline heos hn => exact fun pad dev hdev => h pad dev (hdevices ▸ hdev)
  | each remote lockout hwide hdevices hline heos hn =>
      intro pad dev hdev
      rw [hdevices] at hdev
      obtain ⟨e, he, rfl⟩ := Option.map_eq_some_iff.mp hdev
      exact h pad e he
  | one hpad hd hdevices hwork hlevel hline heos hn =>
      exact h.update hdevices ((h _ _ hd).work (hforced hpad hd) hwork)
  | update hpad hd hdevices hwork hline heos hn =>
      exact h.update hdevices (Device.Plain.noteMss ((h _ _ hd).work (hforced hpad hd) hwork))
  | poll hpad hd hdevices hline heos hn => exact h.update hdevices (Device.Plain.noteMss (h _ _ hd))

end Control

/-- **The status byte tells the truth** in every state of a run in which no
`SetStb` puts bit 4, 5 or 6 into a device that is there. -/
theorem stb_truthful {ports : PortInfo} {pads : List UInt8} {acts : List Action}
    (h : Throughout Control.step ForcesNone (.new ports pads) acts) :
    Always Control.step
      (fun ctl => ∀ pad dev, ctl.instrument.devices pad = some dev → dev.Truthful)
      (.new ports pads) acts := by
  intro pre ctl hpre hexec pad dev hdev
  exact (always_of_throughout (fun _ _ _ _ hs hg hstep => Control.Plain.step hs hg hstep)
    (Control.plain_new ports pads) h pre ctl hpre hexec pad dev hdev).truthful

/-- Bits 0 and 7 of a device, and a query. -/
def plainRun : List Action :=
  [.op (.write 22 (asBytes "*SRE 17;*IDN?".toList) true), .request (.setStb 22 0x81)]

theorem stb_truthful_plainRun :
    Always Control.step
      (fun ctl => ∀ pad dev, ctl.instrument.devices pad = some dev → dev.Truthful)
      (.new somePorts [22]) plainRun := by
  refine stb_truthful (throughout_cons rfl ?_ (throughout_cons rfl ?_ throughout_nil))
  · intro pad bits hact
    cases hact
  · intro pad bits hact _
    cases hact
    decide

/-- Force MAV. -/
def forcedMav : List Action := [.request (.setStb 22 0x10)]

/-- The output queue is empty, and the status byte says it is not. -/
theorem forced_mav_lies :
    ¬ Always Control.step
      (fun ctl => ∀ pad dev, ctl.instrument.devices pad = some dev → dev.Truthful)
      (.new somePorts [22]) forcedMav := by
  intro h
  have hlie := (h forcedMav _ List.prefix_rfl rfl 22 _ rfl).mav
  exact absurd hlie (by decide +kernel)

/-! ## The line -/

namespace Instrument.VirtualInstrument

/-- The line is what `update_srq` would make it. -/
def Settled (vi : VirtualInstrument) : Prop := vi.srqLine = vi.anyMss

theorem anyMss_iff (vi : VirtualInstrument) :
    vi.anyMss = true ↔ ∃ pad dev, vi.devices pad = some dev ∧ dev.stb &&& stbMss ≠ 0 := by
  have hmss (pad : UInt8) :
      vi.mss pad = true ↔ ∃ dev, vi.devices pad = some dev ∧ dev.stb &&& stbMss ≠ 0 := by
    rw [mss]
    cases vi.devices pad <;> simp [Device.mss]
  simp only [anyMss, List.any_eq_true, List.mem_range, hmss]
  constructor
  · rintro ⟨n, -, h⟩
    exact ⟨_, h⟩
  · rintro ⟨pad, h⟩
    exact ⟨pad.toNat, pad.toNat_lt, by rwa [UInt8.ofNat_toNat]⟩

/-- Where no MSS changes, the line may stay as it is. -/
theorem Settled.still {vi vi' : VirtualInstrument} (h : vi.Settled)
    (hline : vi'.srqLine = vi.srqLine) (hmss : vi'.view Device.mss = vi.view Device.mss) :
    vi'.Settled := by
  have hany : vi'.anyMss = vi.anyMss := by
    have hpad (pad : UInt8) : vi'.mss pad = vi.mss pad :=
      congrArg (fun o => Option.getD o false) (congrFun hmss pad)
    simp only [anyMss, hpad]
  rw [Settled, hline, hany]
  exact h

end Instrument.VirtualInstrument

theorem settled_of_not_mss {vi : VirtualInstrument} (hline : vi.srqLine = false)
    (hmss : ∀ pad, vi.mss pad = false) : vi.Settled := by
  rw [VirtualInstrument.Settled, hline, VirtualInstrument.anyMss]
  simp [hmss]

theorem settled_new (ports : PortInfo) (pads : List UInt8) :
    (Control.new ports pads).instrument.Settled := by
  refine settled_of_not_mss rfl fun pad => ?_
  simp only [Control.new, VirtualInstrument.new, VirtualInstrument.mss]
  split <;> rfl

/-- A reset takes the line down, and every request with it. -/
theorem settled_reset (ctl : Control) : ctl.reset.instrument.Settled := by
  refine settled_of_not_mss rfl fun pad => ?_
  simp only [Control.reset, VirtualInstrument.resetDevices, VirtualInstrument.mapDevices,
    VirtualInstrument.mss]
  cases ctl.instrument.devices pad with
  | none => rfl
  | some dev => exact Control.mss_reset dev

/-- **One call**: the line is settled again, whatever the call. -/
theorem settled_step {ctl ctl' : Control} {act : Action} {out : Output}
    (h : ctl.instrument.Settled) (hstep : ctl.step act = some (ctl', out)) :
    ctl'.instrument.Settled := by
  by_cases hreset : act = .request .reset
  · subst hreset
    obtain ⟨rfl, rfl⟩ := Prod.mk.inj (Option.some.inj hstep)
    exact settled_reset ctl
  cases Control.step_effect hreset hstep with
  | none hdevices hline heos hn => exact h.still hline (VirtualInstrument.view_congr hdevices)
  | one hpad hd hdevices hwork hlevel hline heos hn =>
      exact h.still hline
        (VirtualInstrument.view_of_update_still hdevices hd (congrArg Level.mss hlevel))
  | each remote lockout hwide hdevices hline heos hn =>
      exact h.still hline (VirtualInstrument.view_of_map hdevices fun _ => rfl)
  | update hpad hd hdevices hwork hline heos hn => exact hline
  | poll hpad hd hdevices hline heos hn => exact hline

/-- **The SRQ line is the wired-OR of the devices**: in every state of a run it
is up just when some device's status byte has bit 6. -/
theorem srqLine_wired_or (ports : PortInfo) (pads : List UInt8) (acts : List Action) :
    Always Control.step
      (fun ctl => ctl.instrument.srqLine = true ↔
        ∃ pad dev, ctl.instrument.devices pad = some dev ∧ dev.stb &&& stbMss ≠ 0)
      (.new ports pads) acts := by
  intro pre ctl _ hexec
  have hsettled : ctl.instrument.Settled :=
    exec_invariant (P := fun ctl => ctl.instrument.Settled)
      (fun _ _ _ _ hs hstep => settled_step hs hstep) (settled_new ports pads) hexec
  rw [hsettled]
  exact VirtualInstrument.anyMss_iff ctl.instrument

end TestGear
