import TestGear.Control.Alike

/-!
# TestGear.Control.Probe

One device, asked alone.  `Device.ask` is what a request or an operation on a
device does to it and shows of it; `output_ask` says that the server shows
just that.  What a device has in its output queue can be read off it, and so
can the MSS it last noted, and with them the registers and the scripts.

* `Same.output`, `Same.lastMss` — what devices that answer the same agree in;
* `complete_header` — what asking for a header does.
-/

namespace TestGear

open Instrument Runs

/-! ## Asking -/

/-- What can be asked of a device. -/
inductive Ask where
  | respond (query : Text) (response : Option Text)
  | bigReply (bytes : Nat)
  | setStb (bits : UInt8)
  | write (data : List UInt8)
  | read (maxLen : Nat)

/-- The call that asks it of the device at `pad`. -/
def Ask.action (pad : UInt8) : Ask → Action
  | .respond query response => .request (.respond pad query response)
  | .bigReply bytes => .request (.bigReply pad bytes)
  | .setStb bits => .request (.setStb pad bits)
  | .write data => .op (.write pad data true)
  | .read maxLen => .op (.read pad maxLen)

namespace Instrument.Device

/-- A change that ends with `update_srq`. -/
def updated (dev : Device) (reply : Reply) : Device × Output :=
  (dev.noteMss, ⟨reply, dev.mss && !dev.lastMss⟩)

/-- What a device makes of it, and what it shows. -/
def ask (dev : Device) : Ask → Device × Output
  | .respond query response => (dev.setResponse query response, ⟨.response .ok, false⟩)
  | .bigReply bytes => (dev.setBigReplyLen bytes, ⟨.response .ok, false⟩)
  | .setStb bits => (dev.setUserStb bits).updated (.response .ok)
  | .write data => (dev.complete (dev.input ++ data)).updated (.value (.ok .done))
  | .read maxLen =>
      if dev.output = [] then
        (dev, ⟨.value (.ok (.data [] (dev.silence = .emptyMessage))), false⟩)
      else
        let take := min maxLen dev.output.length
        { dev with output := dev.output.drop take }.updated
          (.value (.ok (.data (dev.output.take take) (dev.output.drop take).isEmpty)))

/-- The device after a sequence of them. -/
def asked (dev : Device) (asks : List Ask) : Device := asks.foldl (fun dev a => (dev.ask a).1) dev

end Instrument.Device

/-- The device at `pad`, on a bus with no write failure and no EOS armed. -/
structure Control.At (ctl : Control) (pad : UInt8) (dev : Device) : Prop where
  device : ctl.instrument.devices pad = some dev
  writes : ctl.instrument.faults.failNextWrite = false
  eos : ctl.instrument.eos.2 = false

namespace Control

variable {ctl : Control} {pad : UInt8} {dev : Device}

theorem At.setDevice (h : ctl.At pad dev) (dev' : Device) :
    (ctl.setInstrument (ctl.instrument.setDevice pad dev')).At pad dev' where
  device := by simp [setInstrument]
  writes := h.writes
  eos := h.eos

/-- **One device, asked alone**: the server shows what the device does. -/
theorem At.step (h : ctl.At pad dev) (a : Ask) :
    ∃ ctl', ctl.step (a.action pad) = some (ctl', (dev.ask a).2) ∧ ctl'.At pad (dev.ask a).1 := by
  have hupdated (vi : VirtualInstrument) (dev' : Device)
      (hw : vi.faults.failNextWrite = false) (he : vi.eos.2 = false) :
      (ctl.setInstrument ((vi.setDevice pad dev').updateSrq pad).1).At pad dev'.noteMss := by
    rw [VirtualInstrument.updateSrq_setDevice]
    exact ⟨by simp [setInstrument], hw, he⟩
  cases a with
  | respond query response =>
      simp only [Ask.action, Control.step, handle, withDevice, h.device]
      exact ⟨_, rfl, h.setDevice _⟩
  | bigReply bytes =>
      simp only [Ask.action, Control.step, handle, withDevice, h.device]
      exact ⟨_, rfl, h.setDevice _⟩
  | setStb bits =>
      refine ⟨_, ?_, hupdated ctl.instrument (dev.setUserStb bits) h.writes h.eos⟩
      simp only [Ask.action, Control.step, handle, h.device, VirtualInstrument.updateSrq_setDevice]
      rfl
  | write data =>
      refine ⟨_, ?_, hupdated (ctl.instrument.push (.write pad data true))
        (dev.complete (dev.input ++ data)) h.writes h.eos⟩
      simp only [Ask.action, Control.step, VirtualInstrument.perform, Outcome.done,
        VirtualInstrument.write_complete h.writes h.device (show (true || _) = true from rfl),
        VirtualInstrument.thenUpdateSrq, VirtualInstrument.updateSrq_setDevice]
      rfl
  | read maxLen =>
      by_cases ho : dev.output = []
      · have hask : dev.ask (.read maxLen) =
            (dev, ⟨.value (.ok (.data [] (dev.silence = .emptyMessage))), false⟩) := if_pos ho
        rw [hask]
        simp only [Ask.action, Control.step, VirtualInstrument.perform, Outcome.data,
          VirtualInstrument.read, h.device, ho, if_true]
        exact ⟨_, rfl, ⟨h.device, h.writes, h.eos⟩⟩
      · generalize htake : min maxLen dev.output.length = take
        have hask : dev.ask (.read maxLen) =
            { dev with output := dev.output.drop take }.updated
              (.value (.ok (.data (dev.output.take take) (dev.output.drop take).isEmpty))) := by
          simp only [Device.ask, ho, if_false, htake]
        have hafter := hupdated ctl.instrument { dev with output := dev.output.drop take } h.writes h.eos
        rw [hask]
        refine ⟨ctl.setInstrument (((ctl.instrument.setDevice pad
          { dev with output := dev.output.drop take }).updateSrq pad).1.push
            (.read pad (dev.output.take take) (dev.output.drop take).isEmpty)), ?_,
          ⟨hafter.device, hafter.writes, hafter.eos⟩⟩
        simp only [Ask.action, Control.step, VirtualInstrument.perform, Outcome.data,
          VirtualInstrument.read, h.device, ho, h.eos, htake, VirtualInstrument.thenUpdateSrq,
          Bool.false_eq_true, if_false, VirtualInstrument.updateSrq_setDevice]
        rfl

/-- What the server shows last is what the device shows. -/
theorem At.trace (h : ctl.At pad dev) (asks : List Ask) (a : Ask) :
    ∃ shown, Runs.trace Control.step ctl ((asks ++ [a]).map (Ask.action pad)) =
      shown ++ [((dev.asked asks).ask a).2] ∧ shown.length = asks.length := by
  induction asks generalizing ctl dev with
  | nil =>
      obtain ⟨ctl', hstep, -⟩ := h.step a
      exact ⟨[], by simp [Runs.trace, hstep, Device.asked], rfl⟩
  | cons b asks ih =>
      obtain ⟨ctl', hstep, hat⟩ := h.step b
      obtain ⟨shown, htrace, hlen⟩ := ih hat
      refine ⟨(dev.ask b).2 :: shown, ?_, by simp [hlen]⟩
      simp only [List.cons_append, List.map_cons, Runs.trace, hstep, Option.elim_some, htrace]
      rfl

end Control

/-! ## What asking tells -/

namespace Instrument.Device

/-- Devices that show the same, whatever they have been asked before. -/
def Same (d e : Device) : Prop :=
  ∀ asks a, ((d.asked asks).ask a).2 = ((e.asked asks).ask a).2

theorem same_of_trace {s t : Control} {pad : UInt8} {d e : Device} (hs : s.At pad d)
    (ht : t.At pad e) (h : ∀ acts, trace Control.step s acts = trace Control.step t acts) :
    d.Same e := by
  intro asks a
  obtain ⟨shown, hshown, hlen⟩ := hs.trace asks a
  obtain ⟨shown', hshown', hlen'⟩ := ht.trace asks a
  have heq := (hshown.symm.trans (h _)).trans hshown'
  exact List.singleton_inj.mp (List.append_inj_right heq (hlen.trans hlen'.symm))

/-- The output queue can be read. -/
theorem Same.output {d e : Device} (h : d.Same e) (asks : List Ask) :
    (d.asked asks).output = (e.asked asks).output := by
  have hread (dev : Device) (n : Nat) : ∃ ended, (dev.ask (.read n)).2.reply =
      .value (.ok (.data (dev.output.take n) ended)) := by
    by_cases ho : dev.output = []
    · exact ⟨_, by simp [ask, ho]; rfl⟩
    · exact ⟨(dev.output.drop (min n dev.output.length)).isEmpty, by
        simp [ask, ho, updated, ← List.take_eq_take_min]⟩
  let n := (d.asked asks).output.length + (e.asked asks).output.length
  obtain ⟨_, hd⟩ := hread (d.asked asks) n
  obtain ⟨_, he⟩ := hread (e.asked asks) n
  have hreply := congrArg Output.reply (h asks (.read n))
  rw [hd, he] at hreply
  have hbytes : (d.asked asks).output.take n = (e.asked asks).output.take n := by
    injection hreply with hreply
    injection hreply with hreply
    injection hreply
  rwa [List.take_of_length_le (Nat.le_add_right _ _),
    List.take_of_length_le (Nat.le_add_left _ _)] at hbytes

/-- Setting bit 6 itself tells the MSS last noted. -/
theorem Same.lastMss {d e : Device} (h : d.Same e) : d.lastMss = e.lastMss := by
  have hnotified := congrArg Output.notified (h [] (.setStb stbMss))
  have hset (dev : Device) : ((dev.asked []).ask (.setStb stbMss)).2.notified = !dev.lastMss := by
    show ((dev.setUserStb stbMss).mss && !dev.lastMss) = !dev.lastMss
    rw [mss_setUserStb, Bool.true_and]
  rwa [hset, hset, Bool.not_inj_iff] at hnotified

end Instrument.Device

/-! ## Messages of one unit -/

namespace Instrument

/-- A message of one unit, with its header and its argument. -/
structure OneUnit (message : List UInt8) (head arg : Text) : Prop where
  unit : ∃ unit, messageUnits message = [unit] ∧ trim unit = unit ∧ unit ≠ [] ∧
    Device.headAndArg unit = (head, arg)

/-- A header is a message. -/
theorem IsHeader.oneUnit {key : Text} (h : IsHeader key) : OneUnit (asBytes key) key [] := by
  have hspace (c : Char) (hc : c ∈ key) : isWhitespace c = false := (h.plain c hc).1
  have hend : key.rdropWhile (fun c => c = '\n' || c = '\r') = key := by
    rw [List.rdropWhile_eq_self_iff]
    intro hne heol
    have hlast := hspace _ (List.getLast_mem hne)
    rcases (by simpa using heol : key.getLast hne = '\n' ∨ key.getLast hne = '\r') with heq | heq
    · rw [heq] at hlast
      exact absurd hlast (by decide)
    · rw [heq] at hlast
      exact absurd hlast (by decide)
  refine ⟨key, ?_, trim_of_not_isWhitespace hspace, h.nonempty, ?_⟩
  · rw [messageUnits, fromUtf8Lossy_asBytes, hend]
    exact List.splitOnP_eq_singleton fun c hc => by simpa using (h.plain c hc).2
  · have hnone : key.dropWhile (!isWhitespace ·) = [] := by
      rw [List.dropWhile_eq_nil_iff]
      intro c hc
      simp [hspace c hc]
    simp only [Device.headAndArg, splitOnce, hnone]

/-- A scripted unit. -/
theorem OneUnit.scripted {message : List UInt8} {head arg text : Text} {dev : Device}
    (h : OneUnit message head arg) (hi : dev.input = [])
    (hl : dev.responses.lookup (toAsciiUppercase head) = some text) :
    dev.ask (.write message) = (dev.reply text).updated (.value (.ok .done)) := by
  obtain ⟨unit, hm, ht, hne, hh⟩ := h.unit
  have hdev : { dev with input := [] } = dev := by rw [← hi]
  simp only [Device.ask, hi, List.nil_append, Device.complete, hm, List.foldl_cons, List.foldl_nil,
    hdev, Device.execute, ht, hne, if_false, Device.executeUnit, hh, hl]

/-- A unit nobody scripted. -/
theorem OneUnit.unscripted {message : List UInt8} {head arg : Text} {dev : Device}
    (h : OneUnit message head arg) (hi : dev.input = [])
    (hl : dev.responses.lookup (toAsciiUppercase head) = none) :
    dev.ask (.write message) =
      (dev.perform head arg (Command.ofHeader (toAsciiUppercase head))).updated
        (.value (.ok .done)) := by
  obtain ⟨unit, hm, ht, hne, hh⟩ := h.unit
  have hdev : { dev with input := [] } = dev := by rw [← hi]
  simp only [Device.ask, hi, List.nil_append, Device.complete, hm, List.foldl_cons, List.foldl_nil,
    hdev, Device.execute, ht, hne, if_false, Device.executeUnit, hh, hl]

end Instrument

end TestGear
