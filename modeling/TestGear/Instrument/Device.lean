import TestGear.Text

/-!
# TestGear.Instrument.Device

One simulated instrument of `virtual_instrument.rs`: its queues, its status
registers, and the commands it executes.

A program message is text split into units at `;`.  Each unit is trimmed and
executed; a blank one does nothing.  So all that a message does is what its
`units` do, one after the other (`foldl_execute`).
-/

namespace TestGear.Instrument

/-! ## Status bits -/

/-- STB bit 4: the output queue is non-empty. -/
def stbMav : UInt8 := 0x10

/-- STB bit 5: an enabled event is set in the standard event status register. -/
def stbEsb : UInt8 := 0x20

/-- STB bit 6: master summary / requesting service. -/
def stbMss : UInt8 := 0x40

/-- ESR bit 5: command error. -/
def esrCme : UInt8 := 0x20

/-- ESR bit 4: execution error. -/
def esrExe : UInt8 := 0x10

/-- ESR bit 0: operation complete. -/
def esrOpc : UInt8 := 0x01

/-! ## Devices -/

/-- How the simulated instrument answers when it has nothing to say. -/
inductive Silence where
  | timeout
  | emptyMessage
deriving DecidableEq, Repr

def defaultIdn : Text := "TestGear,VirtualInstrument,0,1.0".toList

/-- One simulated instrument at one primary address. -/
structure Device where
  idn : Text := defaultIdn
  /-- Output queue.  Drives MAV, drained by reads. -/
  output : List UInt8 := []
  /-- Bytes received so far for a program message that is not yet complete. -/
  input : List UInt8 := []
  /-- SCPI error queue, oldest first. -/
  errors : List (Int × Text) := []
  sre : UInt8 := 0
  ese : UInt8 := 0
  esr : UInt8 := 0
  userStb : UInt8 := 0
  /-- Last computed MSS, so SRQ fires on the edge and not on every poll. -/
  lastMss : Bool := false
  remote : Bool := false
  lockout : Bool := false
  /-- Scripted answers, consulted before the built-in command set. -/
  responses : List (Text × Text) := []
  /-- Length of the reply to the configured big query. -/
  bigReplyLen : Nat := 3200
  silence : Silence := .timeout
  triggers : Nat := 0
  clears : Nat := 0
deriving DecidableEq, Repr

namespace Device

/-- The status byte as a serial poll would report it. -/
def stb (dev : Device) : UInt8 :=
  let stb := dev.userStb
  let stb := if dev.output ≠ [] then stb ||| stbMav else stb
  let stb := if dev.esr &&& dev.ese ≠ 0 then stb ||| stbEsb else stb
  -- bit 6 itself is excluded from the summary
  if stb &&& dev.sre &&& ~~~stbMss ≠ 0 then stb ||| stbMss else stb

/-- Is the device requesting service? -/
def mss (dev : Device) : Bool := dev.stb &&& stbMss != 0

/-- Queue a SCPI error, newest last, and set the matching ESR summary bit.  A
full queue has its last entry replaced. -/
def error (dev : Device) (code : Int) (text : Text) : Device :=
  { dev with
    errors :=
      if 16 ≤ dev.errors.length then dev.errors.dropLast ++ [(-350, "Queue overflow".toList)]
      else dev.errors ++ [(code, text)]
    esr := dev.esr ||| if code ≤ -200 ∧ -300 < code then esrExe else esrCme }

def reply (dev : Device) (text : Text) : Device :=
  { dev with output := dev.output ++ asBytes text ++ [0x0A] }

def clearIo (dev : Device) : Device := { dev with output := [], input := [] }

/-- Script an answer for `query`, or remove one with `none`. -/
def setResponse (dev : Device) (query : Text) (response : Option Text) : Device :=
  let key := toAsciiUppercase (trim query)
  let others := dev.responses.filter fun entry => entry.1 ≠ key
  match response with
  | some text => { dev with responses := (key, text) :: others }
  | none => { dev with responses := others }

def setBigReplyLen (dev : Device) (bytes : Nat) : Device := { dev with bigReplyLen := bytes }

/-- Force summary bits into the status byte. -/
def setUserStb (dev : Device) (bits : UInt8) : Device := { dev with userStb := bits }

def reset (dev : Device) : Device :=
  { dev with output := [], input := [], errors := [], esr := 0, userStb := 0 }

end Device

/-! ## Commands -/

/-- The built-in command set. -/
inductive Command where
  | idnQuery
  | rst
  | cls
  | stbQuery
  | sre
  | sreQuery
  | ese
  | eseQuery
  | esrQuery
  | opc
  | opcQuery
  | tstQuery
  | wai
  | trg
  | errQuery
  | bigQuery
  | srq
  | silentQuery
  | undefined
deriving DecidableEq, Repr

/-- The headers of the command set. -/
def headers : List (Text × Command) :=
  [("*IDN?".toList, .idnQuery), ("*RST".toList, .rst), ("*CLS".toList, .cls),
    ("*STB?".toList, .stbQuery), ("*SRE".toList, .sre), ("*SRE?".toList, .sreQuery),
    ("*ESE".toList, .ese), ("*ESE?".toList, .eseQuery), ("*ESR?".toList, .esrQuery),
    ("*OPC".toList, .opc), ("*OPC?".toList, .opcQuery), ("*TST?".toList, .tstQuery),
    ("*WAI".toList, .wai), ("*TRG".toList, .trg), ("SYST:ERR?".toList, .errQuery),
    ("SYSTEM:ERROR?".toList, .errQuery), ("SYST:ERR:NEXT?".toList, .errQuery),
    ("TEST:BIG?".toList, .bigQuery), ("TEST:SRQ".toList, .srq),
    ("TEST:SILENT?".toList, .silentQuery)]

def Command.ofHeader (upper : Text) : Command := (headers.lookup upper).getD .undefined

/-- The reply to the big query: the digits over and over. -/
def bigReply (len : Nat) : Text := (List.range len).map fun i => Char.ofNat ('0'.toNat + i % 10)

namespace Device

/-- What a command does.  `head` is the header as it was received. -/
def perform (dev : Device) (head arg : Text) : Command → Device
  | .idnQuery => dev.reply dev.idn
  | .rst => dev.reset
  | .cls => { dev with errors := [], esr := 0, userStb := 0 }
  | .stbQuery => dev.reply (natText dev.stb.toNat)
  | .sre =>
      match parseU8 arg with
      | some v => { dev with sre := v }
      | none => dev.error (-222) "Data out of range".toList
  | .sreQuery => dev.reply (natText dev.sre.toNat)
  | .ese =>
      match parseU8 arg with
      | some v => { dev with ese := v }
      | none => dev.error (-222) "Data out of range".toList
  | .eseQuery => dev.reply (natText dev.ese.toNat)
  | .esrQuery => { dev with esr := 0 }.reply (natText dev.esr.toNat)
  | .opc => { dev with esr := dev.esr ||| esrOpc }
  | .opcQuery => dev.reply "1".toList
  | .tstQuery => dev.reply "0".toList
  | .wai => dev
  | .trg => { dev with triggers := dev.triggers + 1 }.error (-211) "Trigger ignored".toList
  | .errQuery =>
      match dev.errors with
      | [] => dev.reply "0,\"No error\"".toList
      | (code, text) :: rest =>
          { dev with errors := rest }.reply (intText code ++ ",\"".toList ++ text ++ "\"".toList)
  | .bigQuery => dev.reply (bigReply dev.bigReplyLen)
  | .srq => { dev with userStb := dev.userStb ||| 0x01 }
  | .silentQuery => dev
  | .undefined => dev.error (-113) ("Undefined header;".toList ++ head)

/-- The header and the argument of a unit. -/
def headAndArg (unit : Text) : Text × Text :=
  match splitOnce isWhitespace unit with
  | some (head, arg) => (trim head, trim arg)
  | none => (unit, [])

/-- Execute a program message unit that is not blank. -/
def executeUnit (dev : Device) (unit : Text) : Device :=
  let (head, arg) := headAndArg unit
  let upper := toAsciiUppercase head
  -- scripted answers win
  match dev.responses.lookup upper with
  | some canned => dev.reply canned
  | none => dev.perform head arg (Command.ofHeader upper)

/-- Execute one parsed program message unit. -/
def execute (dev : Device) (unit : Text) : Device :=
  let unit := trim unit
  if unit = [] then dev else dev.executeUnit unit

end Device

/-! ## Messages -/

/-- The parts a complete message is executed in: units separated by `;`, once
the line end is off. -/
def messageUnits (message : List UInt8) : List Text :=
  ((fromUtf8Lossy message).rdropWhile fun c => c = '\n' || c = '\r').splitOnP (· = ';')

/-- The units of a text that do anything. -/
def units (parts : List Text) : List Text := (parts.map trim).filter (· ≠ [])

@[simp] theorem units_nil : units [] = [] := rfl

@[simp] theorem units_append (ps qs : List Text) : units (ps ++ qs) = units ps ++ units qs := by
  simp [units]

theorem units_singleton (p : Text) : units [p] = if blank p then [] else [trim p] := by
  have h := trim_eq_nil_iff p
  cases hb : blank p <;> simp_all [units]

theorem units_cons (p : Text) (ps : List Text) : units (p :: ps) = units [p] ++ units ps :=
  units_append [p] ps

/-- A message does what its units do. -/
theorem foldl_execute (parts : List Text) (dev : Device) :
    parts.foldl Device.execute dev = (units parts).foldl Device.executeUnit dev := by
  induction parts generalizing dev with
  | nil => rfl
  | cons p ps ih =>
      rw [List.foldl_cons, ih, units_cons, List.foldl_append, Device.execute]
      by_cases h : trim p = []
      · simp [units_singleton, (trim_eq_nil_iff p).mp h, h]
      · have hb : blank p = false := by simpa [trim_eq_nil_iff] using h
        simp [units_singleton, hb, h]

/-- Blanks at either end of a part make no difference. -/
theorem units_blank_right {w : Text} (h : blank w = true) (p : Text) : units [p ++ w] = units [p] := by
  simp [units, trim_append_right h]

theorem units_blank_left {w : Text} (h : blank w = true) (p : Text) : units [w ++ p] = units [p] := by
  simp [units, trim_append_left h]

/-- Nor does the end of the line. -/
theorem units_messageUnits (message : List UInt8) :
    units (messageUnits message) = units ((fromUtf8Lossy message).splitOnP (· = ';')) := by
  rw [messageUnits]
  generalize fromUtf8Lossy message = text
  have hcut := @List.rdropWhile_append_rtakeWhile _ (fun c => c = '\n' || c = '\r') text
  have hend (c : Char) (hc : c ∈ text.rtakeWhile fun c => c = '\n' || c = '\r') :
      c = '\n' ∨ c = '\r' := by
    simpa using List.mem_rtakeWhile_imp hc
  generalize text.rdropWhile (fun c => c = '\n' || c = '\r') = body at *
  generalize text.rtakeWhile (fun c => c = '\n' || c = '\r') = eol at *
  have hblank : blank eol = true := by
    rw [blank, List.all_eq_true]
    intro c hc
    rcases hend c hc with rfl | rfl <;> decide
  have hone : eol.splitOnP (· = ';') = [eol] := by
    refine List.splitOnP_eq_singleton fun c hc => ?_
    rcases hend c hc with rfl | rfl <;> decide
  obtain ⟨init, last, head, tail, hbody, heol, hboth⟩ := splitOnP_append (· = ';') body eol
  obtain ⟨rfl, rfl⟩ := List.cons.inj (hone.symm.trans heol)
  rw [← hcut, hboth, hbody, units_append, units_append, units_blank_right hblank]

/-! ## What units leave alone -/

/-- The device with an MSS noted. -/
def Device.note (dev : Device) (mss : Bool) : Device := { dev with lastMss := mss }

/-- The device with its own MSS noted. -/
def Device.noteMss (dev : Device) : Device := dev.note dev.mss

/-- Bit 6 itself requests service, whatever the masks. -/
theorem mss_setUserStb (dev : Device) : (dev.setUserStb stbMss).mss = true := by
  simp only [Device.mss, Device.stb, Device.setUserStb]
  by_cases ho : dev.output = [] <;> by_cases he : dev.esr &&& dev.ese = 0 <;>
    simp only [ho, he, ne_eq, not_true_eq_false, not_false_eq_true, if_true, if_false] <;>
    split <;> decide

/-- Nothing a unit does depends on the MSS last noted. -/
theorem executeUnit_note (dev : Device) (noted : Bool) (unit : Text) :
    (dev.note noted).executeUnit unit = (dev.executeUnit unit).note noted := by
  rcases hu : Device.headAndArg unit with ⟨head, arg⟩
  have hresponses : (dev.note noted).responses = dev.responses := rfl
  simp only [Device.executeUnit, hu, hresponses]
  cases dev.responses.lookup (toAsciiUppercase head) with
  | some canned => rfl
  | none =>
      cases Command.ofHeader (toAsciiUppercase head) with
      | sre | ese =>
          simp only [Device.perform]
          cases parseU8 arg <;> rfl
      | errQuery =>
          have herrors : (dev.note noted).errors = dev.errors := rfl
          simp only [Device.perform, herrors]
          cases dev.errors <;> rfl
      | _ => rfl

theorem foldl_executeUnit_note (us : List Text) (dev : Device) (noted : Bool) :
    us.foldl Device.executeUnit (dev.note noted) = (us.foldl Device.executeUnit dev).note noted := by
  induction us generalizing dev with
  | nil => rfl
  | cons u us ih => rw [List.foldl_cons, List.foldl_cons, executeUnit_note, ih]

/-- No message notes an MSS. -/
theorem foldl_execute_lastMss (parts : List Text) (dev : Device) :
    (parts.foldl Device.execute dev).lastMss = dev.lastMss := by
  have hself := congrArg Device.lastMss (foldl_executeUnit_note (units parts) dev dev.lastMss)
  rw [foldl_execute]
  exact hself

/-- No unit brings input. -/
theorem executeUnit_input {dev : Device} (h : dev.input = []) (unit : Text) :
    (dev.executeUnit unit).input = [] := by
  rcases hu : Device.headAndArg unit with ⟨head, arg⟩
  simp only [Device.executeUnit, hu]
  cases dev.responses.lookup (toAsciiUppercase head) with
  | some canned => exact h
  | none =>
      cases Command.ofHeader (toAsciiUppercase head) with
      | sre | ese =>
          simp only [Device.perform]
          cases parseU8 arg <;> exact h
      | errQuery =>
          simp only [Device.perform]
          cases dev.errors <;> exact h
      | rst => rfl
      | _ => exact h

theorem foldl_executeUnit_input (us : List Text) {dev : Device} (h : dev.input = []) :
    (us.foldl Device.executeUnit dev).input = [] := by
  induction us generalizing dev with
  | nil => exact h
  | cons u us ih => exact ih (executeUnit_input h u)

end TestGear.Instrument
