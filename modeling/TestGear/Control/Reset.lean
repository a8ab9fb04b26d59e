import TestGear.Control.Alike
import TestGear.Control.Probe
import TestGear.Control.Touches

/-!
# TestGear.Control.Reset

What a reset leaves behind.  `Pristine` lists it: the enable registers, the
MSS last noted, the scripts and the length of the big reply of each device,
the bus settings, and the payload the HiSLIP tracker still waits for.

* `reset_like_new_iff` — after a reset a server is indistinguishable from a
  new one exactly if it was pristine in these;
* `reset_keeps_sre` — a mask that survives.
-/

namespace TestGear

open Instrument Runs

/-! ## What no call changes -/

/-- No call but a reset changes what a device is. -/
theorem Touches.kind {pad : Option UInt8} {vi vi' : VirtualInstrument} {notified : Bool}
    (h : Touches pad vi.devices vi'.devices notified) :
    vi'.view Device.kind = vi.view Device.kind := by
  cases h with
  | none hafter hn => exact VirtualInstrument.view_congr hafter
  | one dev' hpad h hafter hkind hlevel hn =>
      exact VirtualInstrument.view_of_update_still hafter h hkind
  | each hafter hkind hlevel hn => exact VirtualInstrument.view_of_map hafter hkind
  | update dev' hpad h hafter hkind hlast hn =>
      exact VirtualInstrument.view_of_update_still hafter h hkind
  | poll hpad h hafter hn => exact VirtualInstrument.view_of_update_still hafter h rfl

namespace Control

theorem handle_ports (ctl : Control) (request : Request) :
    (ctl.handle request).1.ports = ctl.ports := by
  cases request with
  | respond pad query response | bigReply pad bytes =>
      simp only [handle, withDevice]
      cases ctl.instrument.devices pad <;> rfl
  | setStb pad bits =>
      simp only [handle]
      cases ctl.instrument.devices pad <;> rfl
  | _ => rfl

theorem step_ports {ctl ctl' : Control} {act : Action} {out : Output}
    (h : ctl.step act = some (ctl', out)) : ctl'.ports = ctl.ports := by
  cases act with
  | request request =>
      have heq : ctl.handle request = (ctl', out) := Option.some.inj h
      have hports := handle_ports ctl request
      rwa [heq] at hports
  | op op | observeCalls buf | rewriteReplies buf =>
      obtain ⟨rfl, rfl⟩ := Prod.mk.inj (Option.some.inj h)
      rfl
  | observe buf side | rewrite buf =>
      simp only [step, Option.map_eq_some_iff] at h
      obtain ⟨r, -, heq⟩ := h
      obtain ⟨rfl, rfl⟩ := Prod.mk.inj heq
      rfl

/-- **No call** changes what the devices are. -/
theorem step_kind {ctl ctl' : Control} {act : Action} {out : Output}
    (h : ctl.step act = some (ctl', out)) :
    ctl'.instrument.view Device.kind = ctl.instrument.view Device.kind := by
  by_cases hreset : act = .request .reset
  · subst hreset
    obtain ⟨rfl, rfl⟩ := Prod.mk.inj (Option.some.inj h)
    exact VirtualInstrument.view_mapDevices _ fun _ => rfl
  · exact (step_touches hreset h).kind

/-- A server that has run has the ports and the devices it started with. -/
theorem Reachable.kind {ports : PortInfo} {pads : List UInt8} {ctl : Control}
    (h : Reachable ports pads ctl) :
    ctl.ports = ports ∧
      ctl.instrument.view Device.kind = (Control.new ports pads).instrument.view Device.kind := by
  obtain ⟨acts, hexec⟩ := h
  refine exec_invariant (P := fun ctl => ctl.ports = ports ∧
    ctl.instrument.view Device.kind = (Control.new ports pads).instrument.view Device.kind)
    (fun s act t out hs hstep => ?_) ⟨rfl, rfl⟩ hexec
  exact ⟨(step_ports hstep).trans hs.1, (step_kind hstep).trans hs.2⟩

end Control

/-! ## What a reset leaves behind -/

/-- A device with nothing in it that a reset would leave.  A script may stay
if no header can ask for it, or if it says what the device says anyway. -/
structure Instrument.Device.Pristine (dev : Device) : Prop where
  sre : dev.sre = 0
  ese : dev.ese = 0
  lastMss : dev.lastMss = false
  bigReplyLen : dev.bigReplyLen = 3200
  scripts : ∀ key text, IsHeader key → dev.responses.lookup key = some text →
    ({} : Device).constant key = some text

/-- A server with nothing in it that a reset would leave. -/
structure Control.Pristine (ctl : Control) : Prop where
  devices : ∀ pad dev, ctl.instrument.devices pad = some dev → dev.Pristine
  eos : ctl.instrument.eos = (0x0A, false)
  controllerPad : ctl.instrument.controllerPad = 0
  listenOnly : ctl.instrument.listenOnly = false
  deviceAddress : ctl.instrument.deviceAddress = none
  pending : ctl.hislip.pending = {}

/-- Nothing that is ever called tells the server from a new one. -/
def Control.LikeNew (ports : PortInfo) (pads : List UInt8) (ctl : Control) : Prop :=
  ∀ acts, trace Control.step ctl acts = trace Control.step (.new ports pads) acts

/-- A pristine device is as new after a reset. -/
theorem Instrument.Device.Pristine.alike {dev : Device} (h : dev.Pristine)
    (hk : dev.kind = ({} : Device).kind) : dev.reset.Alike {} where
  face := by
    obtain ⟨hidn, hsilence⟩ := Prod.mk.inj hk
    simp only [Device.face, Device.reset, h.sre, h.ese, h.lastMss, h.bigReplyLen, hidn, hsilence]
  answers key hkey := by
    have hidn : dev.idn = ({} : Device).idn := congrArg Prod.fst hk
    have hconstant : dev.reset.constant key = ({} : Device).constant key := by
      simp only [Device.constant, Device.reset, hidn]
    have hscripts : dev.reset.responses = dev.responses := rfl
    rw [Device.answer, Device.answer, hconstant, hscripts, List.lookup_nil, Option.none_or]
    cases hl : dev.responses.lookup key with
    | none => rfl
    | some text => exact (h.scripts key text hkey hl).symm

namespace Control

/-- Whoever is on the bus is a device of the kind it was. -/
theorem Reachable.devices {ports : PortInfo} {pads : List UInt8} {ctl : Control}
    (h : Reachable ports pads ctl) (pad : UInt8) :
    (ctl.instrument.devices pad = none ∧ (Control.new ports pads).instrument.devices pad = none) ∨
      ∃ dev, ctl.instrument.devices pad = some dev ∧
        (Control.new ports pads).instrument.devices pad = some {} ∧ dev.kind = ({} : Device).kind := by
  have hkind := congrFun h.kind.2 pad
  have hnew : (Control.new ports pads).instrument.devices pad = none ∨
      (Control.new ports pads).instrument.devices pad = some {} := by
    simp only [new, VirtualInstrument.new]
    split
    · exact .inr rfl
    · exact .inl rfl
  simp only [VirtualInstrument.view] at hkind
  rcases hnew with hn | hn
  · rw [hn, Option.map_none, Option.map_eq_none_iff] at hkind
    exact .inl ⟨hkind, hn⟩
  · rw [hn, Option.map_some, Option.map_eq_some_iff] at hkind
    obtain ⟨dev, hdev, hk⟩ := hkind
    exact .inr ⟨dev, hdev, hn, hk⟩

/-- A pristine server is as new after a reset. -/
theorem Pristine.alike {ports : PortInfo} {pads : List UInt8} {ctl : Control} (h : ctl.Pristine)
    (hreach : Reachable ports pads ctl) : ctl.reset.Alike (.new ports pads) where
  ports := hreach.kind.1
  instrument :=
    { devices := by
        intro pad
        simp only [reset, VirtualInstrument.resetDevices, VirtualInstrument.mapDevices]
        rcases hreach.devices pad with ⟨hc, hn⟩ | ⟨dev, hc, hn, hk⟩
        · rw [hc, hn]
          exact .none
        · rw [hc, hn]
          exact .some ((h.devices pad dev hc).alike hk)
      face := by
        simp only [VirtualInstrument.face, reset, VirtualInstrument.resetDevices,
          VirtualInstrument.mapDevices, new, VirtualInstrument.new, h.eos, h.controllerPad,
          h.listenOnly, h.deviceAddress, Faults.reset_eq_new] }
  vxi11 := rfl
  hislip := by
    simp only [reset, Hislip.Tracker.clear, new, Hislip.Tracker.new, h.pending]

end Control

/-! ## What can be told of it -/

namespace Instrument.Device

theorem natText_eq_zero {v : UInt8} (h : natText v.toNat = natText 0) : v = 0 := by
  revert v
  decide +kernel

/-- A query, once no script hides it. -/
theorem asked_query {d : Device} (hi : d.input = []) {key : Text} (hk : IsHeader key) :
    (d.asked [.respond key none, .write (asBytes key)]).output =
      ((d.setResponse key none).perform key [] (Command.ofHeader key)).output := by
  have hupper : toAsciiUppercase (trim key) = key := by
    rw [trim_of_not_isWhitespace fun c hc => (hk.plain c hc).1, hk.upper]
  have hl : (d.setResponse key none).responses.lookup (toAsciiUppercase key) = none := by
    rw [lookup_setResponse, hupper, hk.upper, if_pos rfl]
  have hask := @OneUnit.unscripted _ _ _ (d.setResponse key none) hk.oneUnit hi hl
  show ((d.setResponse key none).ask (.write (asBytes key))).1.output = _
  rw [hask, hk.upper]
  rfl

/-- The reply to a query that devices answer the same. -/
theorem Same.reply_eq {d e : Device} (h : d.Same e) (hd : d.input = [] ∧ d.output = [])
    (he : e.input = [] ∧ e.output = []) {key s t : Text} (command : Command) (hk : IsHeader key)
    (hc : Command.ofHeader key = command)
    (hs : ((d.setResponse key none).perform key [] command).output = d.output ++ asBytes s ++ [0x0A])
    (ht : ((e.setResponse key none).perform key [] command).output = e.output ++ asBytes t ++ [0x0A]) :
    s = t := by
  have hout := h.output [.respond key none, .write (asBytes key)]
  rw [asked_query hd.1 hk, asked_query he.1 hk, hc, hs, ht, hd.2, he.2] at hout
  exact asBytes_injective (List.append_cancel_right hout)

theorem Same.sre {d : Device} (h : d.Same {}) (hd : d.input = [] ∧ d.output = []) : d.sre = 0 := by
  have hk : IsHeader "*SRE?".toList := isHeader_of_all (by decide) (by decide) (by decide)
  exact natText_eq_zero (h.reply_eq hd ⟨rfl, rfl⟩ .sreQuery hk (by decide) rfl rfl)

theorem Same.ese {d : Device} (h : d.Same {}) (hd : d.input = [] ∧ d.output = []) : d.ese = 0 := by
  have hk : IsHeader "*ESE?".toList := isHeader_of_all (by decide) (by decide) (by decide)
  exact natText_eq_zero (h.reply_eq hd ⟨rfl, rfl⟩ .eseQuery hk (by decide) rfl rfl)

theorem Same.bigReplyLen {d : Device} (h : d.Same {}) (hd : d.input = [] ∧ d.output = []) :
    d.bigReplyLen = 3200 := by
  have hk : IsHeader "TEST:BIG?".toList := isHeader_of_all (by decide) (by decide) (by decide)
  have hbig : bigReply d.bigReplyLen = bigReply 3200 := h.reply_eq hd ⟨rfl, rfl⟩ .bigQuery hk (by decide) rfl rfl
  simpa [bigReply] using congrArg List.length hbig

/-- What a script hides shows on a device without it, whatever was asked
before. -/
theorem Same.script_output {d : Device} (h : d.Same {}) {key text : Text} (hk : IsHeader key)
    (asks : List Ask) (hd : (d.asked asks).input = [] ∧ (d.asked asks).output = [])
    (hl : (d.asked asks).responses.lookup key = some text)
    (he : (({} : Device).asked asks).input = [])
    (hn : (({} : Device).asked asks).responses.lookup key = none) :
    ((({} : Device).asked asks).perform key [] (Command.ofHeader key)).output =
      asBytes text ++ [0x0A] := by
  have hconcat (dev : Device) (a : Ask) : dev.asked (asks ++ [a]) = ((dev.asked asks).ask a).1 := by
    simp [asked]
  have hout := h.output (asks ++ [.write (asBytes key)])
  rw [hconcat, hconcat, hk.oneUnit.scripted hd.1 (by rw [hk.upper]; exact hl),
    hk.oneUnit.unscripted he (by rw [hk.upper]; exact hn), hk.upper] at hout
  refine hout.symm.trans ?_
  show (d.asked asks).output ++ asBytes text ++ [0x0A] = _
  rw [hd.2, List.nil_append]

/-- A command that is no query, once no script hides it. -/
theorem asked_command {d : Device} (hi : d.input = []) {message : List UInt8} {head arg : Text}
    (hm : OneUnit message head arg) (hh : trim head = head) :
    d.asked [.respond head none, .write message] =
      ((d.setResponse head none).perform head arg
        (Command.ofHeader (toAsciiUppercase head))).noteMss := by
  have hl : (d.setResponse head none).responses.lookup (toAsciiUppercase head) = none := by
    rw [lookup_setResponse, hh, if_pos rfl]
  have hask := @OneUnit.unscripted _ _ _ (d.setResponse head none) hm hi hl
  show ((d.setResponse head none).ask (.write message)).1 = _
  rw [hask]
  rfl

/-- So a script that nothing tells says what the device without it says. -/
theorem Same.script_eq {d : Device} (h : d.Same {}) {key text : Text} (hk : IsHeader key)
    (asks : List Ask) (hd : (d.asked asks).input = [] ∧ (d.asked asks).output = [])
    (hl : (d.asked asks).responses.lookup key = some text)
    (he : (({} : Device).asked asks).input = [])
    (hn : (({} : Device).asked asks).responses.lookup key = none) (reply : Text)
    (hr : ((({} : Device).asked asks).perform key [] (Command.ofHeader key)).output =
      asBytes reply ++ [0x0A]) : text = reply := by
  have hout := (h.script_output hk asks hd hl he hn).symm.trans hr
  exact asBytes_injective (List.append_cancel_right hout)

/-- The same after a command that goes by another header and replies nothing. -/
theorem Same.script_eq_after {d : Device} (h : d.Same {}) (hd : d.input = [] ∧ d.output = [])
    {key text : Text} (hk : IsHeader key) (hl : d.responses.lookup key = some text)
    {message : List UInt8} {head arg : Text} (hm : OneUnit message head arg) (hh : trim head = head)
    {command : Command} (hc : Command.ofHeader (toAsciiUppercase head) = command)
    (hne : Command.ofHeader key ≠ command)
    (hkeep : ∀ dev : Device, (dev.perform head arg command).input = dev.input ∧
      (dev.perform head arg command).output = dev.output ∧
      (dev.perform head arg command).responses = dev.responses) (reply : Text)
    (hr : ((({} : Device).perform head arg command).noteMss.perform key []
      (Command.ofHeader key)).output = asBytes reply ++ [0x0A]) : text = reply := by
  have hother : key ≠ toAsciiUppercase (trim head) := by
    rw [hh]
    rintro rfl
    exact hne hc
  have hfresh : ({} : Device).setResponse head none = {} := rfl
  have hasked (dev : Device) (hi : dev.input = []) := @asked_command dev hi message head arg hm hh
  simp only [hc] at hasked
  have hset : (d.setResponse head none).responses.lookup key = some text := by
    rw [lookup_setResponse, if_neg hother, hl]
  obtain ⟨hinput, houtput, hresponses⟩ := hkeep (d.setResponse head none)
  obtain ⟨hinput', -, hresponses'⟩ := hkeep {}
  refine h.script_eq hk [.respond head none, .write message] ?_ ?_ ?_ ?_ reply ?_
  · rw [hasked d hd.1]
    exact ⟨hinput.trans hd.1, houtput.trans hd.2⟩
  · rw [hasked d hd.1]
    exact (congrArg (·.lookup key) hresponses).trans hset
  · rw [hasked {} rfl]
    exact hinput'
  · rw [hasked {} rfl]
    exact congrArg (·.lookup key) hresponses'
  · rw [hasked {} rfl, hfresh]
    exact hr

theorem Same.scripts {d : Device} (h : d.Same {}) (hd : d.input = [] ∧ d.output = [])
    {key text : Text} (hk : IsHeader key) (hl : d.responses.lookup key = some text) :
    ({} : Device).constant key = some text := by
  have hbase := h.script_output hk [] hd hl rfl rfl
  have hquiet (hout : ([] : List UInt8) = asBytes text ++ [0x0A]) : False := by simp at hout
  cases hc : Command.ofHeader key with
  | idnQuery | opcQuery | tstQuery =>
      rw [hc] at hbase
      simp only [constant, hc]
      exact congrArg some (asBytes_injective (List.append_cancel_right hbase))
  | stbQuery =>
      have h0 := h.script_eq hk [] hd hl rfl rfl "0".toList (by rw [hc]; rfl)
      have h1 := h.script_eq hk [.setStb 1] hd hl rfl rfl "1".toList (by rw [hc]; rfl)
      exact absurd (h0.symm.trans h1) (by decide)
  | bigQuery =>
      have h0 := h.script_eq hk [.bigReply 0] hd hl rfl rfl (bigReply 0) (by rw [hc]; rfl)
      have h1 := h.script_eq hk [.bigReply 1] hd hl rfl rfl (bigReply 1) (by rw [hc]; rfl)
      exact absurd (h0.symm.trans h1) (by decide)
  | sreQuery =>
      have hm : OneUnit (asBytes "*SRE 1".toList) "*SRE".toList "1".toList :=
        ⟨"*SRE 1".toList, by decide, by decide, by decide, by decide⟩
      have h0 := h.script_eq hk [] hd hl rfl rfl "0".toList (by rw [hc]; rfl)
      have h1 := h.script_eq_after hd hk hl hm (by decide) (show _ = Command.sre by decide)
        (by simp [hc]) (fun _ => ⟨rfl, rfl, rfl⟩) "1".toList (by rw [hc]; rfl)
      exact absurd (h0.symm.trans h1) (by decide)
  | eseQuery =>
      have hm : OneUnit (asBytes "*ESE 1".toList) "*ESE".toList "1".toList :=
        ⟨"*ESE 1".toList, by decide, by decide, by decide, by decide⟩
      have h0 := h.script_eq hk [] hd hl rfl rfl "0".toList (by rw [hc]; rfl)
      have h1 := h.script_eq_after hd hk hl hm (by decide) (show _ = Command.ese by decide)
        (by simp [hc]) (fun _ => ⟨rfl, rfl, rfl⟩) "1".toList (by rw [hc]; rfl)
      exact absurd (h0.symm.trans h1) (by decide)
  | esrQuery =>
      have hm : OneUnit (asBytes "*OPC".toList) "*OPC".toList [] :=
        ⟨"*OPC".toList, by decide, by decide, by decide, by decide⟩
      have h0 := h.script_eq hk [] hd hl rfl rfl "0".toList (by rw [hc]; rfl)
      have h1 := h.script_eq_after hd hk hl hm (by decide) (show _ = Command.opc by decide)
        (by simp [hc]) (fun _ => ⟨rfl, rfl, rfl⟩) "1".toList (by rw [hc]; rfl)
      exact absurd (h0.symm.trans h1) (by decide)
  | errQuery =>
      have hm : OneUnit (asBytes "*TRG".toList) "*TRG".toList [] :=
        ⟨"*TRG".toList, by decide, by decide, by decide, by decide⟩
      have h0 := h.script_eq hk [] hd hl rfl rfl "0,\"No error\"".toList (by rw [hc]; rfl)
      have h1 := h.script_eq_after hd hk hl hm (by decide) (show _ = Command.trg by decide)
        (by simp [hc]) (fun _ => ⟨rfl, rfl, rfl⟩) "-211,\"Trigger ignored\"".toList (by rw [hc]; rfl)
      exact absurd (h0.symm.trans h1) (by decide)
  | _ =>
      rw [hc] at hbase
      exact (hquiet hbase).elim

/-- A device that answers like a new one once it is reset was pristine. -/
theorem Same.pristine {dev : Device} (h : dev.reset.Same {}) : dev.Pristine where
  sre := h.sre ⟨rfl, rfl⟩
  ese := h.ese ⟨rfl, rfl⟩
  lastMss := h.lastMss
  bigReplyLen := h.bigReplyLen ⟨rfl, rfl⟩
  scripts _ _ hk hl := h.scripts ⟨rfl, rfl⟩ hk hl

end Instrument.Device

/-- A header with no payload. -/
def emptyData : List UInt8 := (⟨Hislip.msgData, 0, 0, 0⟩ : Hislip.Header).bytes

/-- A tracker with nothing seen records an empty message unless it waits for
payload. -/
theorem observe_emptyData {t : Hislip.Tracker} (hseen : t.seen = []) (side : Hislip.Side) :
    ∃ t', t.observe emptyData side = some t' ∧
      (t.pending.get side = 0 → t'.seen ≠ []) ∧ (t.pending.get side ≠ 0 → t'.seen = []) := by
  have hlen : emptyData.length = 16 := Hislip.Header.length_bytes _
  by_cases hp : t.pending.get side = 0
  · have hscan : Hislip.scan emptyData = some ([⟨Hislip.msgData, 0, 0, 0⟩], 0) := by decide +kernel
    refine ⟨_, by simp only [Hislip.Tracker.observe, Hislip.takePending, hp, Nat.zero_min,
      List.drop_zero, hscan]; rfl, fun _ => ?_, fun h => absurd hp h⟩
    simp [hseen]
  · have hshort : (emptyData.drop (min (t.pending.get side) emptyData.length)).length < 16 := by
      rw [List.length_drop, hlen]
      omega
    have hscan : Hislip.scan (emptyData.drop (min (t.pending.get side) emptyData.length)) =
        some ([], 0) := by
      refine Hislip.scanFrom_of_not_stands (fun hs => ?_) _
      have hfit := hs.1
      rw [Hislip.headerLen, Nat.zero_add] at hfit
      omega
    refine ⟨_, by simp only [Hislip.Tracker.observe, Hislip.takePending, hscan]; rfl,
      fun h => absurd h hp, fun _ => ?_⟩
    simp [hseen]

namespace Control

variable {ports : PortInfo} {pads : List UInt8} {ctl : Control}

/-- What an operation returns can be seen. -/
theorem LikeNew.result (h : ctl.LikeNew ports pads) (op : Op) :
    (ctl.instrument.perform op).result = ((Control.new ports pads).instrument.perform op).result := by
  have htrace := h [.op op]
  simp only [trace, step, Option.elim_some, List.cons.injEq, Output.mk.injEq, Reply.value.injEq,
    and_true] at htrace
  exact htrace.1

/-- Payload that the tracker waits for can be seen. -/
theorem LikeNew.pending (h : ctl.LikeNew ports pads) (hseen : ctl.hislip.seen = [])
    (side : Hislip.Side) : ctl.hislip.pending.get side = 0 := by
  obtain ⟨t, hobs, -, hnone⟩ := observe_emptyData hseen side
  obtain ⟨u, hobs', hsome, -⟩ := @observe_emptyData (Control.new ports pads).hislip rfl side
  by_contra hp
  have htrace := h [.observe emptyData side, .request .hislipMessages]
  simp only [trace, step, hobs, hobs', Option.map_some, Option.elim_some, handle, answer,
    Hislip.Tracker.snapshot, hnone hp, List.cons.injEq, Output.mk.injEq, Reply.response.injEq,
    Response.hislip.injEq, and_true, true_and] at htrace
  exact hsome (by cases side <;> rfl) htrace.symm

/-- A server that is like new after a reset was pristine. -/
theorem LikeNew.pristine (h : ctl.reset.LikeNew ports pads) (hreach : Reachable ports pads ctl) :
    ctl.Pristine := by
  have heos : ctl.instrument.eos = (0x0A, false) := by
    have hresult := h.result .eos
    simp only [VirtualInstrument.perform, Except.ok.injEq, Value.eos.injEq] at hresult
    exact Prod.ext hresult.1 hresult.2
  refine ⟨?_, heos, ?_, ?_, ?_, ?_⟩
  · intro pad dev hdev
    rcases hreach.devices pad with ⟨hc, -⟩ | ⟨dev', hc, hn, -⟩
    · rw [hdev] at hc
      cases hc
    have hs : ctl.reset.At pad dev.reset := by
      refine ⟨?_, rfl, congrArg Prod.snd heos⟩
      simp only [reset, VirtualInstrument.resetDevices, VirtualInstrument.mapDevices, hdev,
        Option.map_some]
    have ht : (Control.new ports pads).At pad {} := ⟨hn, rfl, rfl⟩
    exact (Device.same_of_trace hs ht h).pristine
  · have hresult := h.result .controllerPad
    simp only [VirtualInstrument.perform, Except.ok.injEq, Value.byte.injEq] at hresult
    exact hresult
  · have hresult := h.result .listenOnly
    simp only [VirtualInstrument.perform, Except.ok.injEq, Value.flag.injEq] at hresult
    exact hresult
  · have hresult := h.result .deviceAddress
    simp only [VirtualInstrument.perform, Except.ok.injEq, Value.address.injEq] at hresult
    exact hresult
  · have hclient : ctl.hislip.pending.client = 0 := h.pending rfl .client
    have hserver : ctl.hislip.pending.server = 0 := h.pending rfl .server
    rcases hpending : ctl.hislip.pending with ⟨c, v⟩
    rw [hpending] at hclient hserver
    simp only at hclient hserver
    rw [hclient, hserver]

/-- **Reset**: after a reset a server is indistinguishable from a new one if
and only if it was pristine before. -/
theorem reset_like_new_iff (hreach : Reachable ports pads ctl) :
    ctl.reset.LikeNew ports pads ↔ ctl.Pristine :=
  ⟨fun h => h.pristine hreach, fun h acts => trace_eq_of_alike (h.alike hreach) acts⟩

/-- A query that nobody has read the answer of. -/
def unread : VirtualInstrument := ((VirtualInstrument.new [22]).write 22 (asBytes "*IDN?".toList) true).bus

/-- A server with such a query. -/
def queried : Control := (Control.new somePorts [22]).setInstrument unread

theorem queried_pristine : queried.Pristine := by
  refine ⟨?_, by decide +kernel, by decide +kernel, by decide +kernel, by decide +kernel, rfl⟩
  intro pad dev hdev
  have hdevices : queried.instrument.devices = Function.update (VirtualInstrument.new [22]).devices 22
      (some (({} : Device).receive (asBytes "*IDN?".toList) true)) :=
    (VirtualInstrument.write_present rfl rfl _ _).2.1
  rw [hdevices, Function.update_apply] at hdev
  split at hdev
  · obtain rfl := Option.some.inj hdev
    have hnone : (({} : Device).receive (asBytes "*IDN?".toList) true).responses = [] := by
      decide +kernel
    refine ⟨by decide +kernel, by decide +kernel, by decide +kernel, by decide +kernel, ?_⟩
    intro key text _ hl
    rw [hnone] at hl
    cases hl
  · next hpad =>
      simp only [VirtualInstrument.new, List.mem_singleton, hpad, if_false] at hdev
      cases hdev

theorem reset_like_new_queried :
    Reachable somePorts [22] queried ∧ queried.reset.LikeNew somePorts [22] :=
  have hreach : Reachable somePorts [22] queried :=
    ⟨[.op (.write 22 (asBytes "*IDN?".toList) true)], rfl⟩
  ⟨hreach, (reset_like_new_iff hreach).mpr queried_pristine⟩

/-- A mask set before a reset answers the query for it afterwards. -/
theorem reset_keeps_sre :
    ∃ ctl, exec Control.step (Control.new somePorts [22])
        [.op (.write 22 (asBytes "*SRE 1".toList) true)] = some ctl ∧
      trace Control.step ctl.reset
          [.op (.write 22 (asBytes "*SRE?".toList) true), .op (.read 22 16)] ≠
        trace Control.step (Control.new somePorts [22])
          [.op (.write 22 (asBytes "*SRE?".toList) true), .op (.read 22 16)] := by
  refine ⟨_, rfl, ?_⟩
  decide +kernel

end Control

end TestGear
