import TestGear.Control.Touches

/-!
# TestGear.Control.Operations

What the backend trait promises of its operations.

A failed operation changes no instrument: either it fails before it looks a
device up, or there is none at the address (`perform_failed`).  So a program
message is executed as a whole or not at all.

Reads conserve the output queue: as long as nothing but a read touches it,
what was returned and what is still queued are what was queued at first
(`exec_conserves`).
-/

namespace TestGear

open Instrument

namespace Instrument

/-! ## Failed operations -/

/-- What no failed operation may change. -/
structure Untouched (vi vi' : VirtualInstrument) : Prop where
  devices : vi'.devices = vi.devices
  eos : vi'.eos = vi.eos
  srqLine : vi'.srqLine = vi.srqLine

namespace VirtualInstrument

theorem error_of_map {α β : Type} {r : Except Text α} {f : α → β} {e : Text}
    (h : r.map f = .error e) : r = .error e := by
  cases r with
  | error e' => exact congrArg Except.error (Except.error.inj h)
  | ok a => cases h

/-- On a present address, only an armed failure fails a write. -/
theorem write_error_iff {vi : VirtualInstrument} {pad : UInt8} {dev : Device}
    (hd : vi.devices pad = some dev) (data : List UInt8) (eoi : Bool) :
    (∃ e, (vi.write pad data eoi).result = .error e) ↔ vi.faults.failNextWrite = true := by
  cases hf : vi.faults.failNextWrite with
  | false => simp [(write_present hf hd data eoi).1]
  | true =>
      have hf' : (vi.push (.write pad data eoi)).faults.failNextWrite = true := hf
      simp [write, hf']

/-- Why an operation fails. -/
inductive Fails (vi : VirtualInstrument) : Op → Text → Prop where
  | absent (op : Op) (pad : UInt8) : Fails vi op (noInstrument pad)
  | injected {pad : UInt8} {data : List UInt8} {eoi : Bool}
      (hf : vi.faults.failNextWrite = true) :
      Fails vi (.write pad data eoi) "injected bus write failure".toList
  | lines : Fails vi .busLines "virtual cannot read the GPIB control lines".toList
  | command (cmds : List UInt8) :
      Fails vi (.sendBusCommand cmds) "virtual cannot send raw bus commands".toList
  | atn (assert : Bool) : Fails vi (.setAtn assert) "virtual cannot drive ATN directly".toList

theorem write_failed {vi : VirtualInstrument} {pad : UInt8} {data : List UInt8} {eoi : Bool}
    {e : Text} (h : (vi.write pad data eoi).result = .error e) :
    Untouched vi (vi.write pad data eoi).bus ∧ vi.Fails (.write pad data eoi) e := by
  cases hf : vi.faults.failNextWrite with
  | true =>
      have hf' : (vi.push (.write pad data eoi)).faults.failNextWrite = true := hf
      simp only [write, hf', if_true] at h ⊢
      exact ⟨⟨rfl, rfl, rfl⟩, Except.error.inj h ▸ .injected hf⟩
  | false =>
      cases hd : vi.devices pad with
      | some dev =>
          rw [(write_present hf hd data eoi).1] at h
          cases h
      | none =>
          have hf' : (vi.push (.write pad data eoi)).faults.failNextWrite = false := hf
          have hd' : (vi.push (.write pad data eoi)).devices pad = none := hd
          simp only [write, hf', hd', Bool.false_eq_true, if_false] at h ⊢
          exact ⟨⟨rfl, rfl, rfl⟩, Except.error.inj h ▸ .absent _ pad⟩

theorem read_failed {vi : VirtualInstrument} {pad : UInt8} {maxLen : Nat} {e : Text}
    (h : (vi.read pad maxLen).result = .error e) :
    Untouched vi (vi.read pad maxLen).bus ∧ vi.Fails (.read pad maxLen) e := by
  simp only [read, thenUpdateSrq] at h ⊢
  cases hd : vi.devices pad with
  | none => rw [hd] at h; exact ⟨⟨rfl, rfl, rfl⟩, Except.error.inj h ▸ .absent _ pad⟩
  | some dev =>
      simp only [hd] at h
      split at h <;> cases h

theorem serialPoll_failed {vi : VirtualInstrument} {pad : UInt8} {e : Text}
    (h : (vi.serialPoll pad).result = .error e) :
    Untouched vi (vi.serialPoll pad).bus ∧ vi.Fails (.serialPoll pad) e := by
  simp only [serialPoll] at h ⊢
  cases hf : vi.faults.forced with
  | some forced => rw [hf] at h; cases h
  | none =>
      cases hd : vi.devices pad with
      | none => rw [hf, hd] at h; exact ⟨⟨rfl, rfl, rfl⟩, Except.error.inj h ▸ .absent _ pad⟩
      | some dev => rw [hf, hd] at h; cases h

/-- **A failed operation** changes no instrument. -/
theorem perform_failed {vi : VirtualInstrument} {op : Op} {e : Text}
    (h : (vi.perform op).result = .error e) :
    Untouched vi (vi.perform op).bus ∧ vi.Fails op e := by
  cases op with
  | write pad data sendEoi => exact write_failed (error_of_map h)
  | read pad maxLen => exact read_failed (error_of_map h)
  | serialPoll pad => exact serialPoll_failed (error_of_map h)
  | deviceClear pad | trigger pad | goToRemote pad | goToLocal pad =>
      have herror := error_of_map h
      simp only [perform, deviceClear, trigger, goToRemote, goToLocal, Outcome.done, push]
        at herror ⊢
      cases hd : vi.devices pad with
      | none =>
          rw [hd] at herror
          exact ⟨⟨rfl, rfl, rfl⟩, Except.error.inj herror ▸ .absent _ pad⟩
      | some dev =>
          rw [hd] at herror
          cases herror
  | busLines => exact ⟨⟨rfl, rfl, rfl⟩, Except.error.inj h ▸ .lines⟩
  | sendBusCommand cmds => exact ⟨⟨rfl, rfl, rfl⟩, Except.error.inj h ▸ .command cmds⟩
  | setAtn assert => exact ⟨⟨rfl, rfl, rfl⟩, Except.error.inj h ▸ .atn assert⟩
  | _ => cases h

/-- A write that did not fail reached its device as a whole. -/
theorem write_ok {vi : VirtualInstrument} {pad : UInt8} {dev : Device} {data : List UInt8}
    {eoi : Bool} (hd : vi.devices pad = some dev) (h : (vi.write pad data eoi).result = .ok ()) :
    (vi.write pad data eoi).bus.devices =
      Function.update vi.devices pad (some (dev.receive data eoi)) := by
  cases hf : vi.faults.failNextWrite with
  | false => exact (write_present hf hd data eoi).2.1
  | true =>
      obtain ⟨e, he⟩ := (write_error_iff hd data eoi).mpr hf
      rw [he] at h
      cases h

/-- **Failures are clean**: an operation that fails leaves every instrument, the
EOS setting and the SRQ line as they were; and where there is an instrument, a
write fails just when a failure is armed, and is otherwise received whole. -/
theorem failures_clean (vi : VirtualInstrument) :
    (∀ op e, (vi.perform op).result = .error e → Untouched vi (vi.perform op).bus) ∧
      ∀ pad dev data eoi, vi.devices pad = some dev →
        ((∃ e, (vi.write pad data eoi).result = .error e) ↔ vi.faults.failNextWrite = true) ∧
        ((vi.write pad data eoi).result = .ok () →
          (vi.write pad data eoi).bus.devices =
            Function.update vi.devices pad (some (dev.receive data eoi))) :=
  ⟨fun _ _ h => (perform_failed h).1,
    fun _ _ data eoi hd => ⟨write_error_iff hd data eoi, write_ok hd⟩⟩

/-- One instrument, and a failure armed. -/
def armed : VirtualInstrument :=
  { VirtualInstrument.new [5] with faults := { Faults.new with failNextWrite := true } }

theorem failures_clean_armed :
    Untouched armed (armed.perform (.write 5 (asBytes "*SRE 4;*RST".toList) true)).bus :=
  (failures_clean armed).1 _ "injected bus write failure".toList (by rfl)

/-! ## One read -/

/-- What a read of `maxLen` returns from `queue`, and what it leaves. -/
structure ReadLaw (eos : UInt8 × Bool) (maxLen : Nat) (queue data left : List UInt8) (eoi : Bool) :
    Prop where
  conserves : data ++ left = queue
  atMost : data.length ≤ maxLen
  atLeast : 0 < maxLen → queue ≠ [] → data ≠ []
  /-- The EOS character comes once, and last. -/
  eosLast : eos.2 = true → ∀ i, data[i]? = some eos.1 → i + 1 = data.length
  early : data.length < maxLen → left ≠ [] → eos.2 = true ∧ data.getLast? = some eos.1
  eoi : queue ≠ [] → (eoi = true ↔ left = [])

/-- The length of a read. -/
def readLen (eos : UInt8 × Bool) (maxLen : Nat) (queue : List UInt8) : Nat :=
  let take := min maxLen queue.length
  if eos.2 then ((queue.take take).findIdx? (· == eos.1)).elim take (· + 1) else take

/-- Where a read ends: at its limit or the end of the queue, or behind the first
EOS character. -/
theorem readLen_cases (eos : UInt8 × Bool) (maxLen : Nat) (queue : List UInt8) :
    (readLen eos maxLen queue = min maxLen queue.length ∧
      (eos.2 = true → ∀ i < min maxLen queue.length, queue[i]? ≠ some eos.1)) ∨
    ∃ k < min maxLen queue.length, readLen eos maxLen queue = k + 1 ∧ eos.2 = true ∧
      queue[k]? = some eos.1 ∧ ∀ i < k, queue[i]? ≠ some eos.1 := by
  cases hon : eos.2 with
  | false => exact .inl ⟨by simp [readLen, hon], Bool.noConfusion⟩
  | true =>
      simp only [readLen, hon, if_true]
      cases hfind : (queue.take (min maxLen queue.length)).findIdx? (· == eos.1) with
      | none =>
          refine .inl ⟨rfl, fun _ i hi heos => ?_⟩
          have hmem : eos.1 ∈ queue.take (min maxLen queue.length) :=
            List.mem_of_getElem? ((List.getElem?_take_of_lt hi).trans heos)
          simpa using List.findIdx?_eq_none_iff.mp hfind _ hmem
      | some k =>
          obtain ⟨hk, hat, hbefore⟩ := List.findIdx?_eq_some_iff_getElem.mp hfind
          simp only [List.length_take] at hk
          refine .inr ⟨k, by omega, rfl, trivial, ?_, fun i hi heos => ?_⟩
          · rw [List.getElem_take, beq_iff_eq] at hat
            rw [← hat]
            exact List.getElem?_eq_getElem _
          · refine hbefore i hi ?_
            rw [List.getElem_take, beq_iff_eq]
            exact (List.getElem_eq_iff _).mpr heos

/-- **One read** keeps the law. -/
theorem readLen_law (eos : UInt8 × Bool) (maxLen : Nat) (queue : List UInt8) :
    ReadLaw eos maxLen queue (queue.take (readLen eos maxLen queue))
      (queue.drop (readLen eos maxLen queue)) (queue.drop (readLen eos maxLen queue)).isEmpty := by
  obtain ⟨hlen, hnone⟩ | ⟨k, hk, hlen, hon, hat, hbefore⟩ := readLen_cases eos maxLen queue <;>
    rw [hlen]
  · refine ⟨List.take_append_drop .., by simp, fun hpos hq => ?_, fun hon i hi => ?_,
      fun hshort hleft => ?_, by simp⟩
    · have := List.length_pos_iff.mpr hq
      exact List.ne_nil_of_length_pos (by rw [List.length_take]; omega)
    · rw [List.getElem?_take] at hi
      split at hi
      · next hlt => exact absurd hi (hnone hon i hlt)
      · cases hi
    · -- nothing is left unless the limit was reached
      rw [List.length_take] at hshort
      exact absurd (List.drop_eq_nil_of_le (by omega)) hleft
  · have hq : k + 1 ≤ queue.length := by omega
    refine ⟨List.take_append_drop .., by simp; omega, fun hpos hq' => ?_, fun _ i hi => ?_,
      fun _ _ => ⟨hon, ?_⟩, by simp⟩
    · exact List.ne_nil_of_length_pos (by rw [List.length_take]; omega)
    · rw [List.getElem?_take] at hi
      split at hi
      · next hlt =>
          have hge : ¬ i < k := fun hik => hbefore i hik hi
          rw [List.length_take]
          omega
      · cases hi
    · rw [List.getLast?_eq_getElem?, List.length_take, Nat.min_eq_left hq, Nat.add_sub_cancel,
        List.getElem?_take_of_lt (Nat.lt_succ_self k), hat]

/-- What a read does to the device, and returns. -/
theorem read_present {vi : VirtualInstrument} {pad : UInt8} {dev : Device}
    (hd : vi.devices pad = some dev) (maxLen : Nat) :
    ∃ data eoi left mss, (vi.read pad maxLen).result = .ok (data, eoi) ∧
      (vi.read pad maxLen).bus.devices pad = some ({ dev with output := left }.note mss) ∧
      ReadLaw vi.eos maxLen dev.output data left eoi := by
  by_cases hq : dev.output = []
  · have hread : vi.read pad maxLen = { bus := vi.push (.readTimeout pad)
                                        result := .ok ([], dev.silence = .emptyMessage) } := by
      simp only [read, hd, hq, if_true]
    have hsame : { dev with output := [] }.note dev.lastMss = dev := by
      rw [← hq]
      rfl
    rw [hread]
    refine ⟨_, _, [], dev.lastMss, rfl, by rw [hsame]; exact hd, ?_⟩
    rw [hq]
    exact ⟨rfl, Nat.zero_le _, fun _ h => absurd rfl h, fun _ i hi => by simp at hi,
      fun _ h => absurd rfl h, fun h => absurd rfl h⟩
  · refine ⟨_, _, dev.output.drop (readLen vi.eos maxLen dev.output),
      { dev with output := dev.output.drop (readLen vi.eos maxLen dev.output) }.mss, ?_, ?_,
      readLen_law vi.eos maxLen dev.output⟩
    · simp only [read, hd, hq, if_false]
      rfl
    · simp only [read, hd, hq, if_false, thenUpdateSrq, updateSrq_setDevice]
      exact Function.update_self ..

end VirtualInstrument

end Instrument

/-- What a trigger does to the device. -/
theorem Instrument.VirtualInstrument.trigger_present {vi : VirtualInstrument} {pad : UInt8}
    {dev : Device} (hd : vi.devices pad = some dev) :
    (vi.trigger pad).bus.devices pad =
      some ({ dev with triggers := dev.triggers + 1 }.error (-211)
        "Trigger ignored".toList).noteMss := by
  have hd' : (vi.push (.trigger pad)).devices pad = some dev := hd
  simp only [trigger, hd', thenUpdateSrq, updateSrq_setDevice]
  exact Function.update_self ..

/-- Is this a read on `pad`? -/
def Action.reads (pad : UInt8) : Action → Bool
  | .op (.read p _) => p == pad
  | _ => false

/-- Can this change the output queue at `pad` other than by reading it? -/
def Action.disturbs (pad : UInt8) : Action → Bool
  | .op (.write p _ _) | .op (.deviceClear p) => p == pad
  | .request .reset => true
  | _ => false

/-- The bytes a read returned. -/
def Output.bytes : Output → List UInt8
  | ⟨.value (.ok (.data bytes _)), _⟩ => bytes
  | _ => []

/-! ### What a call leaves alone -/

/-- Does this work on the device at `pad` itself, rather than on its bus state,
its script or what it was forced to? -/
def Action.works (pad : UInt8) : Action → Bool
  | .op (.write p _ _) | .op (.read p _) | .op (.deviceClear p) | .op (.trigger p) => p == pad
  | .request .reset => true
  | _ => false

theorem works_cases {act : Action} {pad : UInt8} (h : act.works pad = true) :
    (∃ data eoi, act = .op (.write pad data eoi)) ∨ (∃ maxLen, act = .op (.read pad maxLen)) ∨
      act = .op (.deviceClear pad) ∨ act = .op (.trigger pad) ∨ act = .request .reset := by
  cases act with
  | op op =>
      cases op with
      | write p data eoi => exact .inl ⟨data, eoi, by rw [beq_iff_eq.mp h]⟩
      | read p maxLen => exact .inr (.inl ⟨maxLen, by rw [beq_iff_eq.mp h]⟩)
      | deviceClear p => exact .inr (.inr (.inl (by rw [beq_iff_eq.mp h])))
      | trigger p => exact .inr (.inr (.inr (.inl (by rw [beq_iff_eq.mp h]))))
      | _ => cases h
  | request request =>
      cases request with
      | reset => simp
      | _ => cases h
  | _ => cases h

/-- `f` tells nothing of the state that other calls change. -/
structure Inert {α : Type*} (f : Device → α) : Prop where
  note : ∀ dev mss, f (Device.note dev mss) = f dev
  bus : ∀ dev remote lockout, f { dev with remote, lockout } = f dev
  respond : ∀ dev query response, f (Device.setResponse dev query response) = f dev
  bigReply : ∀ dev bytes, f (Device.setBigReplyLen dev bytes) = f dev
  userStb : ∀ dev bits, f (Device.setUserStb dev bits) = f dev

section

variable {α : Type*} {f : Device → α} {vi vi' : VirtualInstrument} {pad : UInt8}

/-- A call on another address. -/
theorem Effect.view_elsewhere {act : Action} {notified : Bool} (h : Effect act vi vi' notified)
    (hf : Inert f) (hpad : act.pad ≠ some pad) : vi'.view f pad = vi.view f pad := by
  have hother {p : UInt8} (hp : act.pad = some p) : pad ≠ p := by
    rintro rfl
    exact hpad hp
  cases h with
  | none hdevices => rw [VirtualInstrument.view_congr hdevices]
  | each remote lockout hwide hdevices =>
      rw [VirtualInstrument.view_of_map hdevices fun dev => hf.bus dev (remote dev) (lockout dev)]
  | one hp _ hdevices | update hp _ hdevices | poll hp _ hdevices =>
      rw [VirtualInstrument.view_of_update hdevices, Function.update_of_ne (hother hp)]

/-- A change to one device that `f` does not tell. -/
theorem view_update {p : UInt8} {dev : Device} (dev' : Device)
    (h : vi'.devices = Function.update vi.devices p (some dev')) (hd : vi.devices p = some dev)
    (hdev' : f dev' = f dev) : vi'.view f pad = vi.view f pad :=
  congrFun (VirtualInstrument.view_of_update_still h hd hdev') pad

/-- A backend operation that does not work on the device. -/
theorem perform_view (vi : VirtualInstrument) (hf : Inert f) {op : Op}
    (hworks : (Action.op op).works pad = false) :
    (vi.perform op).bus.view f pad = vi.view f pad := by
  cases op with
  | write p | read p | deviceClear p | trigger p =>
      refine (vi.perform_effect _).view_elsewhere hf fun hp => ?_
      exact absurd (Option.some.inj hp) (beq_eq_false_iff_ne.mp hworks)
  | goToRemote p =>
      simp only [VirtualInstrument.perform, VirtualInstrument.goToRemote, Outcome.done]
      cases hd : (vi.push (.goToRemote p)).devices p with
      | none => rfl
      | some dev => exact view_update { dev with remote := true } rfl hd (hf.bus dev _ _)
  | goToLocal p =>
      simp only [VirtualInstrument.perform, VirtualInstrument.goToLocal, Outcome.done]
      cases hd : (vi.push (.goToLocal p)).devices p with
      | none => rfl
      | some dev => exact view_update { dev with remote := false } rfl hd (hf.bus dev _ _)
  | serialPoll p =>
      simp only [VirtualInstrument.perform, VirtualInstrument.serialPoll]
      cases vi.faults.forced with
      | some forced => rfl
      | none =>
          cases hd : vi.devices p with
          | none => rfl
          | some dev => exact view_update dev.noteMss rfl hd (hf.note dev _)
  | ifc | ren | localLockout =>
      refine congrFun (VirtualInstrument.view_mapDevices _ ?_) pad
      exact fun dev => hf.bus dev _ _
  | _ => rfl

end

namespace Control

section

variable {α : Type*} {f : Device → α} {ctl ctl' : Control} {pad : UInt8}

theorem withDevice_view (ctl : Control) (p : UInt8) {g : Device → Device}
    (hg : ∀ dev, f (g dev) = f dev) :
    (ctl.withDevice p g).1.instrument.view f = ctl.instrument.view f := by
  simp only [withDevice]
  cases hd : ctl.instrument.devices p with
  | none => rfl
  | some dev => exact VirtualInstrument.view_setDevice_still hd (hg dev)

/-- A control request other than a reset. -/
theorem handle_view (ctl : Control) (hf : Inert f) {request : Request} (h : request ≠ .reset) :
    (ctl.handle request).1.instrument.view f = ctl.instrument.view f := by
  cases request with
  | reset => exact absurd rfl h
  | respond p query response => exact withDevice_view ctl p fun dev => hf.respond dev query response
  | bigReply p bytes => exact withDevice_view ctl p fun dev => hf.bigReply dev bytes
  | setStb p bits =>
      simp only [handle]
      cases hd : ctl.instrument.devices p with
      | none => rfl
      | some dev =>
          simp only [VirtualInstrument.updateSrq_setDevice, setInstrument]
          refine VirtualInstrument.view_of_update_still rfl hd ?_
          exact (hf.note _ _).trans (hf.userStb dev bits)
  | _ => rfl

/-- **A call** that does not work on the device. -/
theorem step_view (hf : Inert f) {act : Action} {out : Output} (hworks : act.works pad = false)
    (h : ctl.step act = some (ctl', out)) :
    ctl'.instrument.view f pad = ctl.instrument.view f pad := by
  cases act with
  | op op =>
      obtain ⟨rfl, -⟩ := Prod.mk.inj (Option.some.inj h)
      exact perform_view ctl.instrument hf hworks
  | request request =>
      have heq : ctl.handle request = (ctl', out) := Option.some.inj h
      have hreset : request ≠ .reset := by
        rintro rfl
        cases hworks
      have hview := ctl.handle_view hf hreset
      rw [heq] at hview
      exact congrFun hview pad
  | _ => refine (step_effect ?_ h).view_elsewhere hf ?_ <;> rintro ⟨⟩

/-- The same, of a device known to be there. -/
theorem step_device (hf : Inert f) {act : Action} {out : Output} {dev : Device}
    (hworks : act.works pad = false) (h : ctl.step act = some (ctl', out))
    (hd : ctl.instrument.devices pad = some dev) :
    ∃ dev', ctl'.instrument.devices pad = some dev' ∧ f dev' = f dev := by
  have hview := step_view hf hworks h
  rw [VirtualInstrument.view_eq_some hd, VirtualInstrument.view, Option.map_eq_some_iff] at hview
  exact hview

end

theorem inert_output : Inert Device.output where
  note _ _ := rfl
  bus _ _ _ := rfl
  respond _ _ response := by cases response <;> rfl
  bigReply _ _ := rfl
  userStb _ _ := rfl

/-- A call that neither reads the queue nor disturbs it. -/
theorem step_output {ctl ctl' : Control} {act : Action} {out : Output} {pad : UInt8} {dev : Device}
    (hdisturbs : act.disturbs pad = false) (hreads : act.reads pad = false)
    (h : ctl.step act = some (ctl', out)) (hd : ctl.instrument.devices pad = some dev) :
    ∃ dev', ctl'.instrument.devices pad = some dev' ∧ dev'.output = dev.output := by
  cases hworks : act.works pad with
  | false => exact step_device inert_output hworks h hd
  | true =>
      -- of the calls that work on the device, only the trigger is left
      obtain ⟨data, eoi, rfl⟩ | ⟨maxLen, rfl⟩ | rfl | rfl | rfl := works_cases hworks
      · exact absurd rfl (beq_eq_false_iff_ne.mp hdisturbs)
      · exact absurd rfl (beq_eq_false_iff_ne.mp hreads)
      · exact absurd rfl (beq_eq_false_iff_ne.mp hdisturbs)
      · obtain ⟨rfl, -⟩ := Prod.mk.inj (Option.some.inj h)
        exact ⟨_, VirtualInstrument.trigger_present hd, rfl⟩
      · cases hdisturbs

/-- What the reads on `pad` returned in a run. -/
def returned (pad : UInt8) (ctl : Control) (acts : List Action) : List UInt8 :=
  (Runs.answers step (Action.reads pad) ctl acts).flatMap Output.bytes

/-- If the call is a read on `pad`, it keeps the law. -/
def ReadsLawful (pad : UInt8) (ctl : Control) (act : Action) : Prop :=
  ∀ maxLen, act = .op (.read pad maxLen) → ∃ dev data eoi dev',
    ctl.instrument.devices pad = some dev ∧
    (ctl.instrument.read pad maxLen).result = .ok (data, eoi) ∧
    (ctl.instrument.read pad maxLen).bus.devices pad = some dev' ∧
    VirtualInstrument.ReadLaw ctl.instrument.eos maxLen dev.output data dev'.output eoi

section

variable {ctl ctl' : Control} {pad : UInt8} {dev : Device}

theorem readsLawful (hd : ctl.instrument.devices pad = some dev) (act : Action) :
    ReadsLawful pad ctl act := by
  rintro maxLen rfl
  obtain ⟨data, eoi, left, mss, hresult, hdev', hlaw⟩ := VirtualInstrument.read_present hd maxLen
  exact ⟨dev, data, eoi, _, hd, hresult, hdev', hlaw⟩

/-- One call that does not disturb the queue. -/
theorem step_conserves {act : Action} {out : Output} (hd : ctl.instrument.devices pad = some dev)
    (hact : act.disturbs pad = false) (h : ctl.step act = some (ctl', out)) :
    ∃ dev', ctl'.instrument.devices pad = some dev' ∧
      (if act.reads pad then out.bytes else []) ++ dev'.output = dev.output := by
  cases hreads : act.reads pad with
  | false => exact step_output hact hreads h hd
  | true =>
      -- only a read reads
      obtain ⟨maxLen, rfl⟩ : ∃ maxLen, act = .op (.read pad maxLen) := by
        revert hreads
        unfold Action.reads
        split
        · intro hp
          exact ⟨_, by rw [beq_iff_eq.mp hp]⟩
        · exact Bool.noConfusion
      obtain ⟨rfl, rfl⟩ := Prod.mk.inj (Option.some.inj h)
      obtain ⟨data, eoi, left, mss, hresult, hdev', hlaw⟩ := VirtualInstrument.read_present hd maxLen
      refine ⟨_, hdev', ?_⟩
      simp only [VirtualInstrument.perform, Outcome.data, hresult]
      exact hlaw.conserves

/-- **Reads conserve the queue.**  In a run with no write to the device, clear of
it or reset, what the reads returned and what is still queued are what was
queued at first; and each read keeps the law. -/
theorem reads_conserve {acts : List Action} (hd : ctl.instrument.devices pad = some dev)
    (hacts : ∀ act ∈ acts, act.disturbs pad = false)
    (h : Runs.exec step ctl acts = some ctl') :
    ∃ dev', ctl'.instrument.devices pad = some dev' ∧
      returned pad ctl acts ++ dev'.output = dev.output ∧
      Runs.Throughout step (ReadsLawful pad) ctl acts := by
  induction acts generalizing ctl dev with
  | nil =>
      rw [Runs.exec, Option.some.injEq] at h
      exact ⟨dev, h ▸ hd, rfl, Runs.throughout_nil⟩
  | cons act acts ih =>
      obtain ⟨next, out, hone, hrest⟩ := Runs.exec_cons_eq_some.mp h
      obtain ⟨dev₁, hd₁, hfirst⟩ := step_conserves hd (hacts act List.mem_cons_self) hone
      obtain ⟨dev', hd', hreturned, hlawful⟩ :=
        ih hd₁ (fun a ha => hacts a (List.mem_cons_of_mem act ha)) hrest
      refine ⟨dev', hd', ?_, Runs.throughout_cons hone (readsLawful hd act) hlawful⟩
      have hcons : returned pad ctl (act :: acts) =
          (if act.reads pad then out.bytes else []) ++ returned pad next acts := by
        simp only [returned, Runs.answers, hone, Option.elim_some]
        cases act.reads pad <;> simp
      rw [hcons, List.append_assoc, hreturned, hfirst]

end

/-- A server with two lines queued at address 5. -/
def twoLines : Control :=
  (Control.new somePorts []).setInstrument
    ((VirtualInstrument.new []).setDevice 5 { output := asBytes "A\nB\n".toList })

/-- Read one line, then some of the next. -/
def lineReads : List Action :=
  [.op (.setEos 0x0A true), .op (.read 5 100), .op (.setEos 0x0A false), .op (.read 5 1)]

theorem reads_conserve_lines :
    ∃ ctl' dev', Runs.exec step twoLines lineReads = some ctl' ∧
      ctl'.instrument.devices 5 = some dev' ∧
      returned 5 twoLines lineReads ++ dev'.output = asBytes "A\nB\n".toList := by
  obtain ⟨dev', hd', hreturned, -⟩ := @reads_conserve twoLines _ 5 _ lineReads rfl (by decide) rfl
  exact ⟨_, dev', rfl, hd', hreturned⟩

end Control

end TestGear
