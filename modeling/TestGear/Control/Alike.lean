import TestGear.Control

/-!
# TestGear.Control.Alike

What cannot be told from outside.  A device is known by its `face`, all of it
but the remote state, the counters and the scripts, and by what it answers to
the headers it can be asked (`Device.answer`); a bus by its devices and its
own `face`.

* `step_alike` — a call shows the same of servers that are alike, and leaves
  them alike;
* `trace_eq_of_alike` — so does every sequence of calls.
-/

namespace TestGear

open Instrument Runs

/-! ## Headers -/

/-- A text that a unit can have for a header, in upper case. -/
structure Instrument.IsHeader (key : Text) : Prop where
  nonempty : key ≠ []
  upper : toAsciiUppercase key = key
  plain : ∀ c ∈ key, isWhitespace c = false ∧ c ≠ ';'

namespace Instrument

/-- The conditions, to be tried by evaluation. -/
theorem isHeader_of_all {key : Text} (hne : key ≠ []) (hupper : toAsciiUppercase key = key)
    (h : (key.all fun c => !isWhitespace c && c ≠ ';') = true) : IsHeader key := by
  refine ⟨hne, hupper, fun c hc => ?_⟩
  simpa using List.all_eq_true.mp h c hc

/-- The header of a unit is not empty, has no white space, and is part of the
unit. -/
theorem headAndArg_head {unit part : Text} (h : unit = trim part) (hne : unit ≠ []) :
    (Device.headAndArg unit).1 ≠ [] ∧
      ∀ c ∈ (Device.headAndArg unit).1, isWhitespace c = false ∧ c ∈ unit := by
  obtain ⟨c, cs, hunit⟩ := List.exists_cons_of_ne_nil hne
  have hc : isWhitespace c = false := head_trim (h.symm.trans hunit)
  have htake : ∀ d ∈ unit.takeWhile (!isWhitespace ·), isWhitespace d = false ∧ d ∈ unit := by
    intro d hd
    exact ⟨by simpa using List.mem_takeWhile_imp hd, (List.takeWhile_prefix _).subset hd⟩
  have hfirst : unit.takeWhile (!isWhitespace ·) ≠ [] := by
    rw [hunit, List.takeWhile_cons_of_pos (by simp [hc])]
    exact List.cons_ne_nil _ _
  have hhead : (Device.headAndArg unit).1 = unit.takeWhile (!isWhitespace ·) := by
    simp only [Device.headAndArg, splitOnce]
    cases hd : unit.dropWhile (!isWhitespace ·) with
    | nil =>
        have hboth := @List.takeWhile_append_dropWhile _ (!isWhitespace ·) unit
        rw [hd, List.append_nil] at hboth
        exact hboth.symm
    | cons d ds => exact trim_of_not_isWhitespace fun d hd => (htake d hd).1
  rw [hhead]
  exact ⟨hfirst, htake⟩

/-- Upper case makes no separator. -/
theorem toUpper_ne_semicolon {c : Char} (h : c ≠ ';') : c.toUpper ≠ ';' := by
  by_cases hl : c.isLower = true
  · intro heq
    have halpha : c.toUpper.isAlpha = true := by simp [Char.isAlpha, hl]
    rw [heq] at halpha
    exact absurd halpha (by decide)
  · rwa [Char.toUpper_eq_of_not_isLower hl]

/-- The header of a unit without separators is one. -/
theorem isHeader_headAndArg {unit part : Text} (h : unit = trim part) (hne : unit ≠ [])
    (hsep : ∀ c ∈ part, c ≠ ';') : IsHeader (toAsciiUppercase (Device.headAndArg unit).1) := by
  obtain ⟨hhead, hchars⟩ := headAndArg_head h hne
  have hmem : ∀ c ∈ unit, c ∈ part := by
    intro c hc
    rw [h, trim] at hc
    exact (List.dropWhile_suffix _).subset ((List.rdropWhile_prefix _ _).subset hc)
  refine ⟨by simpa [toAsciiUppercase] using hhead, by simp [toAsciiUppercase], ?_⟩
  intro c hc
  obtain ⟨d, hd, rfl⟩ := List.mem_map.mp hc
  obtain ⟨hspace, hin⟩ := hchars d hd
  exact ⟨by rw [isWhitespace_toUpper, hspace], toUpper_ne_semicolon (hsep d (hmem d hin))⟩

/-! ## Devices -/

namespace Device

/-- The replies of the command set that are always the same. -/
def constant (dev : Device) (key : Text) : Option Text :=
  match Command.ofHeader key with
  | .idnQuery => some dev.idn
  | .opcQuery => some "1".toList
  | .tstQuery => some "0".toList
  | _ => none

/-- The reply to a header that is always the same: a script, or a constant. -/
def answer (dev : Device) (key : Text) : Option Text :=
  (dev.responses.lookup key).or (dev.constant key)

/-- The part of a device that its replies and its status depend on. -/
def face (dev : Device) : Device :=
  { dev with responses := [], remote := false, lockout := false, triggers := 0, clears := 0 }

/-- Devices that nothing tells apart. -/
structure Alike (d e : Device) : Prop where
  face : d.face = e.face
  answers : ∀ key, IsHeader key → d.answer key = e.answer key

/-- A unit is answered from what the device answers to its header, or performed. -/
theorem executeUnit_eq_answer (dev : Device) (unit : Text) :
    dev.executeUnit unit =
      (dev.answer (toAsciiUppercase (headAndArg unit).1)).elim
        (dev.perform (headAndArg unit).1 (headAndArg unit).2
          (Command.ofHeader (toAsciiUppercase (headAndArg unit).1)))
        dev.reply := by
  simp only [executeUnit, answer, constant]
  cases dev.responses.lookup (toAsciiUppercase (headAndArg unit).1) with
  | some canned => rfl
  | none => cases Command.ofHeader (toAsciiUppercase (headAndArg unit).1) <;> rfl

/-- A command changes the face by the face alone. -/
theorem perform_face (dev : Device) (head arg : Text) (command : Command) :
    (dev.perform head arg command).face = (dev.face.perform head arg command).face := by
  cases command with
  | sre | ese =>
      simp only [perform]
      cases parseU8 arg <;> rfl
  | errQuery =>
      have herrors : dev.face.errors = dev.errors := rfl
      simp only [perform, herrors]
      cases dev.errors <;> rfl
  | _ => rfl

/-- It changes no answer. -/
theorem perform_answer (dev : Device) (head arg : Text) (command : Command) (key : Text) :
    (dev.perform head arg command).answer key = dev.answer key := by
  cases command with
  | sre | ese =>
      simp only [perform]
      cases parseU8 arg <;> rfl
  | errQuery =>
      simp only [perform]
      cases dev.errors <;> rfl
  | _ => rfl

namespace Alike

variable {d e : Device}

/-- A change that goes by the face and leaves the answers alone. -/
theorem map (f : Device → Device) (hface : ∀ d, (f d).face = (f d.face).face)
    (hanswer : ∀ d key, (f d).answer key = d.answer key) (d e : Device) (h : d.Alike e) :
    (f d).Alike (f e) where
  face := by rw [hface d, hface e, h.face]
  answers key hkey := by rw [hanswer, hanswer, h.answers key hkey]

/-- A unit leaves devices alike. -/
theorem executeUnit (h : d.Alike e) {unit : Text}
    (hunit : IsHeader (toAsciiUppercase (headAndArg unit).1)) :
    (d.executeUnit unit).Alike (e.executeUnit unit) := by
  rw [executeUnit_eq_answer, executeUnit_eq_answer, h.answers _ hunit]
  cases e.answer (toAsciiUppercase (headAndArg unit).1) with
  | some text => exact map (fun dev => dev.reply text) (fun _ => rfl) (fun _ _ => rfl) d e h
  | none =>
      exact map (fun dev => dev.perform _ _ _) (fun dev => perform_face dev _ _ _)
        (fun dev => perform_answer dev _ _ _) d e h

/-- So does a message unit with blanks around it. -/
theorem execute (h : d.Alike e) {part : Text} (hsep : ∀ c ∈ part, c ≠ ';') :
    (d.execute part).Alike (e.execute part) := by
  simp only [Device.execute]
  split
  · exact h
  · next hne => exact h.executeUnit (isHeader_headAndArg rfl hne hsep)

/-- So does a message. -/
theorem foldl_execute (h : d.Alike e) {parts : List Text}
    (hsep : ∀ part ∈ parts, ∀ c ∈ part, c ≠ ';') :
    (parts.foldl Device.execute d).Alike (parts.foldl Device.execute e) := by
  induction parts generalizing d e with
  | nil => exact h
  | cons p ps ih =>
      exact ih (h.execute (hsep p List.mem_cons_self)) fun part hp =>
        hsep part (List.mem_cons_of_mem p hp)

/-- What can be read off the face agrees. -/
theorem eq_of_face {α : Type*} {f : Device → α} (h : d.Alike e) (hf : ∀ d, f d = f d.face) :
    f d = f e := by
  rw [hf d, hf e, h.face]

/-- Devices alike have the same status byte. -/
theorem stb (h : d.Alike e) : d.stb = e.stb := h.eq_of_face fun _ => rfl

/-- Devices alike have the same summary bit. -/
theorem mss (h : d.Alike e) : d.mss = e.mss := h.eq_of_face fun _ => rfl

/-- A reset leaves them alike. -/
theorem reset (h : d.Alike e) : d.reset.Alike e.reset :=
  map Device.reset (fun _ => rfl) (fun _ _ => rfl) d e h

/-- So does noting the summary bit. -/
theorem noteMss (h : d.Alike e) : d.noteMss.Alike e.noteMss :=
  map Device.noteMss (fun _ => rfl) (fun _ _ => rfl) d e h

/-- So does taking in the same input. -/
theorem setInput (h : d.Alike e) (input : List UInt8) :
    ({ d with input } : Device).Alike { e with input } :=
  map (fun dev => { dev with input }) (fun _ => rfl) (fun _ _ => rfl) d e h

/-- And so does queueing the same output. -/
theorem setOutput (h : d.Alike e) (output : List UInt8) :
    ({ d with output } : Device).Alike { e with output } :=
  map (fun dev => { dev with output }) (fun _ => rfl) (fun _ _ => rfl) d e h

end Alike

end Device

/-! ## Scripts -/

/-- Leaving a key out of a list leaves out that key only. -/
theorem lookup_filter_ne (key : Text) (entries : List (Text × Text)) (k : Text) :
    (entries.filter fun entry => entry.1 ≠ key).lookup k =
      if k = key then none else entries.lookup k := by
  induction entries with
  | nil => simp
  | cons e es ih =>
      obtain ⟨a, b⟩ := e
      rw [List.filter_cons]
      by_cases ha : a = key
      · simp only [ha, ne_eq, not_true_eq_false, decide_false, Bool.false_eq_true, if_false, ih]
        split
        · rfl
        · next hk => rw [List.lookup_cons, beq_eq_false_iff_ne.mpr hk]
      · simp only [ha, ne_eq, not_false_eq_true, decide_true, if_true, List.lookup_cons, ih]
        by_cases hk : k = a
        · have hkey : k ≠ key := hk ▸ ha
          simp only [if_neg hkey]
        · rw [beq_eq_false_iff_ne.mpr hk]

/-- A script is found under its key, and hides no other. -/
theorem lookup_setResponse (dev : Device) (query : Text) (response : Option Text) (k : Text) :
    (dev.setResponse query response).responses.lookup k =
      if k = toAsciiUppercase (trim query) then response else dev.responses.lookup k := by
  cases response with
  | none => exact lookup_filter_ne _ _ _
  | some text =>
      simp only [Device.setResponse, List.lookup_cons, lookup_filter_ne]
      by_cases hk : k = toAsciiUppercase (trim query)
      · simp [hk]
      · simp [hk, beq_eq_false_iff_ne.mpr hk]

/-- A scripted answer, the same for both, leaves them alike. -/
theorem Device.Alike.setResponse {d e : Device} (h : d.Alike e) (query : Text)
    (response : Option Text) : (d.setResponse query response).Alike (e.setResponse query response) where
  face := by
    have hface (dev : Device) : (dev.setResponse query response).face = dev.face := by
      cases response <;> rfl
    rw [hface, hface, h.face]
  answers key hkey := by
    have hconstant (dev : Device) : (dev.setResponse query response).constant key = dev.constant key := by
      cases response <;> rfl
    have heq : d.constant key = e.constant key := h.eq_of_face (f := fun dev => dev.constant key) fun _ => rfl
    have hans := h.answers key hkey
    simp only [Device.answer, lookup_setResponse, hconstant, heq] at hans ⊢
    split
    · rfl
    · exact hans

/-! ## Buses -/

namespace VirtualInstrument

/-- The part of a bus that shows, the devices apart. -/
def face (vi : VirtualInstrument) : VirtualInstrument :=
  { vi with devices := fun _ => none, timeoutMs := 0, ren := false }

structure Alike (v w : VirtualInstrument) : Prop where
  devices : ∀ pad, Option.Rel Device.Alike (v.devices pad) (w.devices pad)
  face : v.face = w.face

namespace Alike

variable {v w : VirtualInstrument}

/-- What depends on the face alone is the same. -/
theorem eq_of_face {α : Type*} {f : VirtualInstrument → α} (h : v.Alike w)
    (hf : ∀ v, f v = f v.face) : f v = f w := by
  rw [hf v, hf w, h.face]

/-- A change that goes by the face and leaves the devices alone. -/
theorem congr {f : VirtualInstrument → VirtualInstrument} (h : v.Alike w)
    (hface : ∀ v, (f v).face = (f v.face).face) (hdevices : ∀ v, (f v).devices = v.devices) :
    (f v).Alike (f w) where
  devices := by
    rw [hdevices, hdevices]
    exact h.devices
  face := by rw [hface v, hface w, h.face]

/-- An event, the same for both, leaves buses alike. -/
theorem push (h : v.Alike w) (event : Event) : (v.push event).Alike (w.push event) :=
  h.congr (f := fun v => v.push event) (fun _ => rfl) fun _ => rfl

/-- Whoever is at an address is there on both. -/
theorem cases (h : v.Alike w) (pad : UInt8) :
    (v.devices pad = none ∧ w.devices pad = none) ∨
      ∃ d e, v.devices pad = some d ∧ w.devices pad = some e ∧ d.Alike e := by
  have hpad := h.devices pad
  cases hv : v.devices pad with
  | none =>
      cases hw : w.devices pad with
      | none => exact .inl ⟨rfl, rfl⟩
      | some e => rw [hv, hw] at hpad; cases hpad
  | some d =>
      cases hw : w.devices pad with
      | none => rw [hv, hw] at hpad; cases hpad
      | some e =>
          rw [hv, hw] at hpad
          cases hpad with
          | some hde => exact .inr ⟨d, e, rfl, rfl, hde⟩

/-- So do devices alike, put at the same address. -/
theorem setDevice (h : v.Alike w) {d e : Device} (hde : d.Alike e) (pad : UInt8) :
    (v.setDevice pad d).Alike (w.setDevice pad e) where
  devices p := by
    rw [setDevice_devices, setDevice_devices, Function.update_apply, Function.update_apply]
    split
    · exact .some hde
    · exact h.devices p
  face := h.face

/-- So does what leaves every device alike. -/
theorem mapDevices (h : v.Alike w) {f : Device → Device}
    (hf : ∀ d e : Device, d.Alike e → (f d).Alike (f e)) : (v.mapDevices f).Alike (w.mapDevices f) where
  devices p := by
    simp only [VirtualInstrument.mapDevices]
    rcases h.cases p with ⟨hv, hw⟩ | ⟨d, e, hv, hw, hde⟩
    · rw [hv, hw]
      exact .none
    · rw [hv, hw]
      exact .some (hf d e hde)
  face := h.face

theorem mss (h : v.Alike w) (pad : UInt8) : v.mss pad = w.mss pad := by
  simp only [VirtualInstrument.mss]
  rcases h.cases pad with ⟨hv, hw⟩ | ⟨d, e, hv, hw, hde⟩
  · rw [hv, hw]
  · rw [hv, hw, Option.map_some, Option.map_some, hde.mss]

/-- So the line is asserted on both or on neither. -/
theorem anyMss (h : v.Alike w) : v.anyMss = w.anyMss := by
  simp only [VirtualInstrument.anyMss, h.mss]

/-- Both lines are recomputed alike. -/
theorem srqLine (h : v.Alike w) :
    ({ v with srqLine := v.anyMss } : VirtualInstrument).Alike { w with srqLine := w.anyMss } := by
  rw [h.anyMss]
  exact h.congr (f := fun v => { v with srqLine := w.anyMss }) (fun _ => rfl) fun _ => rfl

/-- The edge on the line is the same. -/
theorem updateSrq (h : v.Alike w) (pad : UInt8) :
    (v.updateSrq pad).1.Alike (w.updateSrq pad).1 ∧ (v.updateSrq pad).2 = (w.updateSrq pad).2 := by
  simp only [VirtualInstrument.updateSrq]
  rcases h.cases pad with ⟨hv, hw⟩ | ⟨d, e, hv, hw, hde⟩
  · rw [hv, hw]
    exact ⟨h.srqLine, rfl⟩
  · have hlast : d.lastMss = e.lastMss := hde.eq_of_face fun _ => rfl
    rw [hv, hw]
    simp only
    rw [hde.mss, hlast]
    refine ⟨?_, rfl⟩
    have hboth := (h.setDevice hde.noteMss pad).srqLine
    simpa only [Device.noteMss, Device.note, hde.mss] using hboth

end Alike

end VirtualInstrument

/-! ## Operations -/

/-- Outcomes that show the same and leave buses alike. -/
structure Outcome.Alike {α : Type} (o p : Outcome α) : Prop where
  bus : o.bus.Alike p.bus
  result : o.result = p.result
  notified : o.notified = p.notified

namespace VirtualInstrument.Alike

variable {v w : VirtualInstrument}

/-- And so is a call that ends with it. -/
theorem thenUpdateSrq {α : Type} (h : v.Alike w) (pad : UInt8) (value : α) :
    (v.thenUpdateSrq pad value).Alike (w.thenUpdateSrq pad value) :=
  ⟨(h.updateSrq pad).1, rfl, (h.updateSrq pad).2⟩

/-- A write shows the same. -/
theorem write (h : v.Alike w) (pad : UInt8) (data : List UInt8) (sendEoi : Bool) :
    (v.write pad data sendEoi).Alike (w.write pad data sendEoi) := by
  have hpush := h.push (.write pad data sendEoi)
  have hfault : (v.push (.write pad data sendEoi)).faults = (w.push (.write pad data sendEoi)).faults :=
    hpush.eq_of_face fun _ => rfl
  simp only [VirtualInstrument.write, hfault]
  split
  · exact ⟨hpush.congr (f := fun v => { v with faults := _ }) (fun _ => rfl) fun _ => rfl, rfl, rfl⟩
  rcases hpush.cases pad with ⟨hv, hw⟩ | ⟨d, e, hv, hw, hde⟩
  · rw [hv, hw]
    exact ⟨hpush, rfl, rfl⟩
  have hinput : d.input = e.input := hde.eq_of_face fun _ => rfl
  rw [hv, hw]
  simp only [hinput, foldlM_execute]
  split
  · exact ⟨hpush.setDevice (hde.setInput _) pad, rfl, rfl⟩
  · refine (hpush.setDevice ((hde.setInput []).foldl_execute ?_) pad).thenUpdateSrq pad ()
    intro part hpart c hc
    simpa using not_of_mem_splitOnP hpart c hc

/-- So does a read. -/
theorem read (h : v.Alike w) (pad : UInt8) (maxLen : Nat) :
    (v.read pad maxLen).Alike (w.read pad maxLen) := by
  simp only [VirtualInstrument.read]
  rcases h.cases pad with ⟨hv, hw⟩ | ⟨d, e, hv, hw, hde⟩
  · rw [hv, hw]
    exact ⟨h, rfl, rfl⟩
  have houtput : d.output = e.output := hde.eq_of_face fun _ => rfl
  have hsilence : d.silence = e.silence := hde.eq_of_face fun _ => rfl
  have heos : v.eos = w.eos := h.eq_of_face fun _ => rfl
  rw [hv, hw]
  simp only [houtput, heos]
  split
  · exact ⟨h.push _, by simp only [hsilence], rfl⟩
  · generalize (if w.eos.2 = true then _ else _ : Nat) = take
    have hupdate := (h.setDevice (hde.setOutput (e.output.drop take)) pad).updateSrq pad
    exact ⟨hupdate.1.push _, rfl, hupdate.2⟩

/-- So does a serial poll. -/
theorem serialPoll (h : v.Alike w) (pad : UInt8) : (v.serialPoll pad).Alike (w.serialPoll pad) := by
  have hforced : v.faults.forced = w.faults.forced := h.eq_of_face (f := fun v => v.faults.forced) fun _ => rfl
  simp only [VirtualInstrument.serialPoll, hforced]
  cases w.faults.forced with
  | some forced => exact ⟨h.push _, rfl, rfl⟩
  | none =>
      rcases h.cases pad with ⟨hv, hw⟩ | ⟨d, e, hv, hw, hde⟩
      · rw [hv, hw]
        exact ⟨h, rfl, rfl⟩
      rw [hv, hw]
      simp only [hde.stb]
      exact ⟨(h.setDevice hde.noteMss pad).srqLine.push _, rfl, rfl⟩

/-- An operation on one device, logged first, that shows nothing of it. -/
theorem onDevice (h : v.Alike w) (pad : UInt8) {f : Device → Device}
    (hf : ∀ d e : Device, d.Alike e → (f d).Alike (f e))
    {g : VirtualInstrument → Outcome Unit}
    (hg : ∀ {v w : VirtualInstrument}, v.Alike w → (g v).Alike (g w)) :
    Outcome.Alike
      (match v.devices pad with
        | none => { bus := v, result := .error (noInstrument pad) }
        | some dev => g (v.setDevice pad (f dev)))
      (match w.devices pad with
        | none => { bus := w, result := .error (noInstrument pad) }
        | some dev => g (w.setDevice pad (f dev))) := by
  rcases h.cases pad with ⟨hv, hw⟩ | ⟨d, e, hv, hw, hde⟩
  · rw [hv, hw]
    exact ⟨h, rfl, rfl⟩
  · rw [hv, hw]
    exact hg (h.setDevice (hf d e hde) pad)

/-- A change to the bus that returns nothing. -/
theorem unit (h : v.Alike w) {f : VirtualInstrument → VirtualInstrument}
    (hface : ∀ v, (f v).face = (f v.face).face) (hdevices : ∀ v, (f v).devices = v.devices)
    (value : Value) :
    Outcome.Alike { bus := f v, result := .ok value } { bus := f w, result := .ok value } :=
  ⟨h.congr hface hdevices, rfl, rfl⟩

/-- Something read off the bus. -/
theorem get (h : v.Alike w) {f : VirtualInstrument → Value} (hf : ∀ v, f v = f v.face) :
    Outcome.Alike { bus := v, result := .ok (f v) } { bus := w, result := .ok (f w) } :=
  ⟨h, congrArg Except.ok (h.eq_of_face hf), rfl⟩

end VirtualInstrument.Alike

/-- A reply without data is the same. -/
theorem Outcome.Alike.done {o p : Outcome Unit} (h : o.Alike p) : o.done.Alike p.done :=
  ⟨h.bus, congrArg (Except.map fun _ => Value.done) h.result, h.notified⟩

/-- And so is one with data. -/
theorem Outcome.Alike.data {o p : Outcome (List UInt8 × Bool)} (h : o.Alike p) :
    o.data.Alike p.data :=
  ⟨h.bus, congrArg (Except.map fun r : List UInt8 × Bool => Value.data r.1 r.2) h.result, h.notified⟩

/-- **A backend operation** shows the same of buses that are alike. -/
theorem VirtualInstrument.Alike.perform {v w : VirtualInstrument} (h : v.Alike w) (op : Op) :
    (v.perform op).Alike (w.perform op) := by
  have hremote (b : Bool) := Device.Alike.map (fun dev => { dev with remote := b }) (fun _ => rfl)
    fun _ _ => rfl
  cases op with
  | write pad data sendEoi => exact (h.write pad data sendEoi).done
  | read pad maxLen => exact (h.read pad maxLen).data
  | serialPoll pad =>
      obtain ⟨hbus, hresult, hnotified⟩ := h.serialPoll pad
      exact ⟨hbus, congrArg (Except.map Value.byte) hresult, hnotified⟩
  | deviceClear pad =>
      have hclear := Device.Alike.map (fun dev => { dev with clears := dev.clears + 1 }.clearIo)
        (fun _ => rfl) fun _ _ => rfl
      exact ((h.push _).onDevice (g := fun v => v.thenUpdateSrq pad ()) pad hclear
        fun h => h.thenUpdateSrq pad ()).done
  | trigger pad =>
      have htrigger := Device.Alike.map (fun dev => { dev with triggers := dev.triggers + 1 }.error
        (-211) "Trigger ignored".toList) (fun _ => rfl) fun _ _ => rfl
      exact ((h.push _).onDevice (g := fun v => v.thenUpdateSrq pad ()) pad htrigger
        fun h => h.thenUpdateSrq pad ()).done
  | goToRemote pad =>
      have hren := (h.push (.goToRemote pad)).congr (f := fun v => { v with ren := true })
        (fun _ => rfl) fun _ => rfl
      exact (hren.onDevice (g := fun v => { bus := v, result := .ok () }) pad (hremote true)
        fun h => ⟨h, rfl, rfl⟩).done
  | goToLocal pad =>
      exact ((h.push _).onDevice (g := fun v => { bus := v, result := .ok () }) pad (hremote false)
        fun h => ⟨h, rfl, rfl⟩).done
  | ifc => exact ⟨(h.push _).mapDevices (hremote false), rfl, rfl⟩
  | ren enable =>
      have hmap := (h.push (.ren enable)).mapDevices (Device.Alike.map
        (fun dev => { dev with remote := enable, lockout := enable && dev.lockout })
        (fun _ => rfl) fun _ _ => rfl)
      exact ⟨hmap.congr (f := fun v => { v with ren := enable }) (fun _ => rfl) fun _ => rfl, rfl, rfl⟩
  | localLockout =>
      have hlock := Device.Alike.map (fun dev => { dev with lockout := true }) (fun _ => rfl)
        fun _ _ => rfl
      exact ⟨(h.push _).mapDevices hlock, rfl, rfl⟩
  | sendDataUnaddressed data sendEoi => exact ⟨h.push _, rfl, rfl⟩
  | readUnaddressed maxLen => exact ⟨h.push _, rfl, rfl⟩
  | srqAsserted => exact h.get (f := fun v => .flag v.srqLine) fun _ => rfl
  | listenOnly => exact h.get (f := fun v => .flag v.listenOnly) fun _ => rfl
  | deviceAddress => exact h.get (f := fun v => .address v.deviceAddress) fun _ => rfl
  | controllerPad => exact h.get (f := fun v => .byte v.controllerPad) fun _ => rfl
  | eos => exact h.get (f := fun v => .eos v.eos.1 v.eos.2) fun _ => rfl
  | init pad | setControllerPad pad =>
      exact h.unit (f := fun v => v.setControllerPad pad) (fun _ => rfl) (fun _ => rfl) .done
  | setListenOnly enable =>
      exact h.unit (f := fun v => v.setListenOnly enable) (fun _ => rfl) (fun _ => rfl) .done
  | setDeviceMode address =>
      exact h.unit (f := fun v => v.setDeviceMode address) (fun _ => rfl) (fun _ => rfl) .done
  | setEos eosChar enabled =>
      exact h.unit (f := fun v => v.setEos eosChar enabled) (fun _ => rfl) (fun _ => rfl) .done
  | setTimeout timeoutMs =>
      exact h.unit (f := fun v => v.setTimeout timeoutMs) (fun _ => rfl) (fun _ => rfl) .done
  | busLines | sendBusCommand _ | setAtn _ => exact ⟨h, rfl, rfl⟩

end Instrument

/-! ## Servers -/

namespace Control

/-- Servers that nothing tells apart. -/
structure Alike (s t : Control) : Prop where
  ports : s.ports = t.ports
  instrument : s.instrument.Alike t.instrument
  vxi11 : s.vxi11 = t.vxi11
  hislip : s.hislip = t.hislip

variable {s t : Control}

/-- Buses alike, put into servers that are. -/
theorem Alike.setInstrument (h : s.Alike t) {v w : VirtualInstrument} (hvw : v.Alike w) :
    (s.setInstrument v).Alike (t.setInstrument w) :=
  { h with instrument := hvw }

/-- What leaves devices alike leaves the servers alike. -/
theorem Alike.withDevice (h : s.Alike t) (pad : UInt8) {f : Device → Device}
    (hf : ∀ d e : Device, d.Alike e → (f d).Alike (f e)) :
    (s.withDevice pad f).1.Alike (t.withDevice pad f).1 ∧
      (s.withDevice pad f).2 = (t.withDevice pad f).2 := by
  simp only [Control.withDevice]
  rcases h.instrument.cases pad with ⟨hs, ht⟩ | ⟨d, e, hs, ht, hde⟩
  · rw [hs, ht]
    exact ⟨h, rfl⟩
  · rw [hs, ht]
    exact ⟨h.setInstrument (h.instrument.setDevice (hf d e hde) pad), rfl⟩

/-- A reset of the bus. -/
theorem Alike.reset (h : s.Alike t) : s.reset.Alike t.reset where
  ports := h.ports
  instrument := by
    have hcleared := h.instrument.congr
      (f := fun v => { v with faults := v.faults.reset, observed := [] }) (fun _ => rfl) fun _ => rfl
    have hdevices := hcleared.mapDevices (Device.Alike.map Device.reset (fun _ => rfl) fun _ _ => rfl)
    exact hdevices.congr (f := fun v => { v with srqLine := false }) (fun _ => rfl) fun _ => rfl
  vxi11 := congrArg Vxi11.Tracker.clear h.vxi11
  hislip := congrArg Hislip.Tracker.clear h.hislip

/-- **A control request** shows the same of servers that are alike. -/
theorem Alike.handle (h : s.Alike t) (request : Request) :
    (s.handle request).1.Alike (t.handle request).1 ∧
      (s.handle request).2 = (t.handle request).2 := by
  cases request with
  | ping => exact ⟨h, rfl⟩
  | ports => exact ⟨h, by simp only [Control.handle, Control.answer, h.ports]⟩
  | faults config =>
      have hfaults : s.instrument.faults = t.instrument.faults :=
        h.instrument.eq_of_face fun _ => rfl
      simp only [Control.handle, Control.answer, hfaults]
      exact ⟨h.setInstrument (h.instrument.congr (f := fun v => { v with faults := _ }) (fun _ => rfl)
        fun _ => rfl), trivial⟩
  | reset => exact ⟨h.reset, rfl⟩
  | observed =>
      have hobserved : s.instrument.observed = t.instrument.observed :=
        h.instrument.eq_of_face fun _ => rfl
      exact ⟨h, by simp only [Control.handle, Control.answer, hobserved]⟩
  | clearObserved =>
      exact ⟨h.setInstrument (h.instrument.congr (f := fun v => { v with observed := [] })
        (fun _ => rfl) fun _ => rfl), rfl⟩
  | respond pad query response =>
      exact h.withDevice pad fun d e hde => hde.setResponse query response
  | bigReply pad bytes =>
      exact h.withDevice pad (Device.Alike.map (fun dev => dev.setBigReplyLen bytes) (fun _ => rfl)
        fun _ _ => rfl)
  | setStb pad bits =>
      simp only [Control.handle]
      rcases h.instrument.cases pad with ⟨hs, ht⟩ | ⟨d, e, hs, ht, hde⟩
      · rw [hs, ht]
        exact ⟨h, rfl⟩
      · have hset := Device.Alike.map (fun dev => dev.setUserStb bits) (fun _ => rfl)
          (fun _ _ => rfl) d e hde
        obtain ⟨hbus, hnotified⟩ := (h.instrument.setDevice hset pad).updateSrq pad
        rw [hs, ht]
        exact ⟨h.setInstrument hbus, congrArg (Output.mk _) hnotified⟩
  | vxi11Faults config => exact ⟨{ h with vxi11 := congrArg (·.set config) h.vxi11 }, rfl⟩
  | hislipFaults config => exact ⟨{ h with hislip := congrArg (·.set config) h.hislip }, rfl⟩
  | hislipMessages => exact ⟨h, by simp only [Control.handle, Control.answer, h.hislip]⟩
  | vxi11Calls => exact ⟨h, by simp only [Control.handle, Control.answer, h.vxi11]⟩

/-- **A call** shows the same of servers that are alike, and leaves them alike. -/
theorem step_alike (h : s.Alike t) (act : Action) :
    Option.Rel (fun p q => p.1.Alike q.1 ∧ p.2 = q.2) (s.step act) (t.step act) := by
  cases act with
  | op op =>
      obtain ⟨hbus, hresult, hnotified⟩ := h.instrument.perform op
      refine .some ⟨h.setInstrument hbus, ?_⟩
      rw [hresult, hnotified]
  | request request => exact .some (h.handle request)
  | observeCalls buf =>
      exact .some ⟨{ h with vxi11 := congrArg (·.observeCalls buf) h.vxi11 }, rfl⟩
  | rewriteReplies buf =>
      simp only [step, h.vxi11]
      exact .some ⟨{ h with vxi11 := rfl }, rfl⟩
  | observe buf side =>
      simp only [step, h.hislip]
      cases t.hislip.observe buf side with
      | none => exact .none
      | some hislip => exact .some ⟨{ h with hislip := rfl }, rfl⟩
  | rewrite buf =>
      simp only [step, h.hislip]
      cases t.hislip.rewrite buf with
      | none => exact .none
      | some r => exact .some ⟨{ h with hislip := rfl }, rfl⟩

/-- **Servers that are alike** show the same to every sequence of calls. -/
theorem trace_eq_of_alike (h : s.Alike t) (acts : List Action) :
    trace step s acts = trace step t acts :=
  trace_eq_of_simulation (R := Alike) (fun _ _ act h => step_alike h act) h acts

end Control

end TestGear
