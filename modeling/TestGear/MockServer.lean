import TestGear.Control

/-!
# TestGear.MockServer

The Python side of the control channel, `MockServer` of `server.py`, as far as
the fault knobs go: `set_faults`, and the `faults` blocks that put back what
they found.  A config is a JSON object on its way to the server and a snapshot
is one on its way back, so a field is absent, null or has a value.

A block is left by sending back the snapshot it was entered with, whether its
body ended or raised.  So only what a call sends matters, and a session is a
sequence of calls, in which blocks are properly `Nested`.
-/

namespace TestGear.MockServer

open Instrument

/-! ## Configs on the wire -/

/-- A field of a JSON object. -/
inductive Field (α : Type) where
  | absent
  | null
  | value (a : α)
deriving DecidableEq, Repr

namespace Field

variable {α : Type}

/-- An `Option` field, as serde reads it: a null is as good as absent. -/
def plain : Field α → Option α
  | value a => some a
  | _ => none

/-- The same behind `explicit_null`. -/
def nullable : Field α → Option (Option α)
  | absent => none
  | null => some none
  | value a => some (some a)

/-- An `Option`, as serde writes it. -/
def ofOption : Option α → Field α
  | none => null
  | some a => value a

end Field

/-- The knobs, as a JSON object. -/
structure WireConfig where
  readDelayMs : Field UInt32 := .absent
  writeDelayMs : Field UInt32 := .absent
  failNextWrite : Field Bool := .absent
  forcedStb : Field UInt8 := .absent
  dropAfterBytes : Field UInt64 := .absent
  stallAfterBytes : Field UInt64 := .absent
  dribble : Field Bool := .absent
  latencyMs : Field UInt32 := .absent
deriving DecidableEq, Repr

namespace WireConfig

def deserialize (w : WireConfig) : FaultConfig where
  readDelayMs := w.readDelayMs.plain
  writeDelayMs := w.writeDelayMs.plain
  failNextWrite := w.failNextWrite.plain
  forcedStb := w.forcedStb.nullable
  dropAfterBytes := w.dropAfterBytes.nullable
  stallAfterBytes := w.stallAfterBytes.nullable
  dribble := w.dribble.plain
  latencyMs := w.latencyMs.plain

def serialize (config : FaultConfig) : WireConfig where
  readDelayMs := .ofOption config.readDelayMs
  writeDelayMs := .ofOption config.writeDelayMs
  failNextWrite := .ofOption config.failNextWrite
  forcedStb := .ofOption config.forcedStb.join
  dropAfterBytes := .ofOption config.dropAfterBytes.join
  stallAfterBytes := .ofOption config.stallAfterBytes.join
  dribble := .ofOption config.dribble
  latencyMs := .ofOption config.latencyMs

end WireConfig

/-! ## Sessions -/

/-- A server with a control channel to it.  `blocks` has what the open `faults`
blocks will send when they are left, innermost first. -/
structure Session where
  control : Control
  /-- `TESTGEAR_DISABLE_FAULTS`: every arming call is a no-op. -/
  faultsDisabled : Bool := false
  blocks : List WireConfig := []

/-- The config in an answer. -/
def snapshotOf : Reply → WireConfig
  | .response (.faults config) => .serialize config
  | _ => {}

/-- What is done in a session. -/
inductive Call where
  | setFaults (config : WireConfig)
  /-- Enter a `faults` block, or leave the innermost one. -/
  | enter (config : WireConfig)
  | leave
  /-- An operation that reaches the backend meanwhile. -/
  | op (op : Op)

namespace Session

def faults (s : Session) : Faults := s.control.instrument.faults

/-- Send a config and take the answer. -/
def setFaults (s : Session) (config : WireConfig) : Session × WireConfig :=
  let sent : WireConfig := if s.faultsDisabled then {} else config
  let (control, out) := s.control.handle (.faults sent.deserialize)
  ({ s with control }, snapshotOf out.reply)

/-- One call, and what an operation returned.  There is no leaving a block that
was not entered. -/
def step (s : Session) : Call → Option (Session × Option (Except Text Value))
  | .setFaults config => some ((s.setFaults config).1, none)
  | .enter config =>
      let (s, before) := s.setFaults {}
      let (s, _) := s.setFaults config
      some ({ s with blocks := before :: s.blocks }, none)
  | .leave =>
      match s.blocks with
      | [] => none
      | before :: blocks => some ({ (s.setFaults before).1 with blocks }, none)
  | .op op =>
      let o := s.control.instrument.perform op
      some ({ s with control := s.control.setInstrument o.bus }, some o.result)

end Session

/-- Blocks that are entered and left in the right order. -/
inductive Nested : List Call → Prop where
  | nil : Nested []
  | setFaults (config : WireConfig) {calls : List Call} (h : Nested calls) :
      Nested (.setFaults config :: calls)
  | op (op : Op) {calls : List Call} (h : Nested calls) : Nested (.op op :: calls)
  | block (config : WireConfig) {body calls : List Call} (hbody : Nested body) (h : Nested calls) :
      Nested (.enter config :: (body ++ .leave :: calls))

/-! ## What a config does to the knobs -/

/-- A knob that cannot be cleared. -/
def Field.Sets {α : Type} (before after : α) : Field α → Prop
  | .absent => after = before
  | .null => True
  | .value a => after = a

/-- A knob that can. -/
def Field.SetsNullable {α : Type} (before after : Option α) : Field α → Prop
  | .absent => after = before
  | .null => after = none
  | .value a => after = some a

/-- What the knobs should be after a config. -/
structure WireConfig.Sets (w : WireConfig) (f f' : Faults) : Prop where
  readDelayMs : w.readDelayMs.Sets f.readDelayMs f'.readDelayMs
  writeDelayMs : w.writeDelayMs.Sets f.writeDelayMs f'.writeDelayMs
  failNextWrite : w.failNextWrite.Sets f.failNextWrite f'.failNextWrite
  forcedStb : w.forcedStb.SetsNullable f.forced f'.forced
  dropAfterBytes : w.dropAfterBytes.SetsNullable f.dropAfter f'.dropAfter
  stallAfterBytes : w.stallAfterBytes.SetsNullable f.stallAfter f'.stallAfter
  dribble : w.dribble.Sets f.dribble f'.dribble
  latencyMs : w.latencyMs.Sets f.latencyMs f'.latencyMs

/-- No byte count is the sentinel for unset. -/
structure WireConfig.Representable (w : WireConfig) : Prop where
  dropAfterBytes : w.dropAfterBytes ≠ .value unset
  stallAfterBytes : w.stallAfterBytes ≠ .value unset

theorem Field.sets_plain {α : Type} (field : Field α) (before : α) :
    field.Sets before (field.plain.getD before) := by
  cases field <;> trivial

/-- A byte count reads as it was set, unless it is the sentinel. -/
theorem Field.sets_nullable {field : Field UInt64} {word : UInt64} :
    field.SetsNullable (Faults.opt word)
        (Faults.opt ((field.nullable.map (·.getD unset)).getD word)) ↔ field ≠ .value unset := by
  cases field with
  | absent => simp [SetsNullable, nullable]
  | null => simp [SetsNullable, nullable, Faults.opt]
  | value a =>
      by_cases ha : a = unset <;> simp [SetsNullable, nullable, Faults.opt, ha]

theorem toUInt64_ne_unset (b : UInt8) : b.toUInt64 ≠ unset := by
  decide +kernel +revert

/-- A status byte always reads as it was set. -/
theorem Field.sets_forced (field : Field UInt8) (word : UInt64) :
    field.SetsNullable ((Faults.opt word).map UInt64.toUInt8)
      ((Faults.opt ((field.nullable.map fun v => (v.map UInt8.toUInt64).getD unset).getD word)).map
        UInt64.toUInt8) := by
  cases field with
  | absent => simp [SetsNullable, nullable]
  | null => simp [SetsNullable, nullable, Faults.opt]
  | value b => simp [SetsNullable, nullable, Faults.opt, toUInt64_ne_unset]

/-- **A config** does what its fields say just when no byte count in it is the
sentinel. -/
theorem WireConfig.sets_iff (w : WireConfig) :
    (∀ f : Faults, w.Sets f (f.apply w.deserialize)) ↔ w.Representable := by
  constructor
  · intro h
    exact ⟨Field.sets_nullable.mp (h .new).dropAfterBytes,
      Field.sets_nullable.mp (h .new).stallAfterBytes⟩
  · intro h f
    exact {
      readDelayMs := w.readDelayMs.sets_plain _
      writeDelayMs := w.writeDelayMs.sets_plain _
      failNextWrite := w.failNextWrite.sets_plain _
      forcedStb := w.forcedStb.sets_forced _
      dropAfterBytes := Field.sets_nullable.mpr h.dropAfterBytes
      stallAfterBytes := Field.sets_nullable.mpr h.stallAfterBytes
      dribble := w.dribble.sets_plain _
      latencyMs := w.latencyMs.sets_plain _ }

/-! ## Putting back -/

/-- The states of the knobs that configs lead to. -/
def Reached (f : Faults) : Prop := ∃ configs : List FaultConfig, f = configs.foldl Faults.apply .new

/-- A forced status byte is one. -/
def Tidy (f : Faults) : Prop := ∀ word, Faults.opt f.forcedStb = some word → word.toNat < 256

theorem Tidy.apply {f : Faults} (h : Tidy f) (config : FaultConfig) : Tidy (f.apply config) := by
  intro word hword
  simp only [Faults.apply] at hword
  cases hforced : config.forcedStb with
  | none =>
      rw [hforced] at hword
      exact h word hword
  | some v =>
      rw [hforced] at hword
      cases v with
      | none => simp [Faults.opt] at hword
      | some b =>
          simp only [Faults.opt, Option.map_some, Option.getD_some, toUInt64_ne_unset, if_false,
            Option.some.injEq] at hword
          rw [← hword, UInt8.toNat_toUInt64]
          exact b.toNat_lt

theorem Reached.tidy {f : Faults} (h : Reached f) : Tidy f := by
  obtain ⟨configs, rfl⟩ := h
  have hnew : Tidy .new := by
    intro word hword
    cases hword
  generalize Faults.new = f at hnew
  induction configs generalizing f with
  | nil => exact hnew
  | cons config configs ih => exact ih _ (hnew.apply config)

/-- A byte count with its sentinel, there and back. -/
theorem nullable_opt (word g : UInt64) :
    ((Field.ofOption (Faults.opt word)).nullable.map (·.getD unset)).getD g = word := by
  by_cases h : word = unset <;> simp [Faults.opt, h, Field.ofOption, Field.nullable]

/-- A status byte, there and back. -/
theorem nullable_forced {word : UInt64} (h : ∀ w, Faults.opt word = some w → w.toNat < 256)
    (g : UInt64) :
    ((Field.ofOption ((Faults.opt word).map UInt64.toUInt8)).nullable.map fun v =>
      (v.map UInt8.toUInt64).getD unset).getD g = word := by
  by_cases hu : word = unset
  · simp [Faults.opt, hu, Field.ofOption, Field.nullable]
  · have hsmall : word.toNat < 256 := h word (by simp [Faults.opt, hu])
    simp only [Faults.opt, hu, if_false, Option.map_some, Field.ofOption, Field.nullable,
      Option.getD_some]
    rw [← UInt64.toNat_inj, UInt8.toNat_toUInt64, UInt64.toNat_toUInt8]
    exact Nat.mod_eq_of_lt hsmall

/-- **A snapshot put back** on any knobs gives the knobs it was taken of. -/
theorem apply_snapshot {f : Faults} (h : Tidy f) (g : Faults) :
    g.apply (WireConfig.serialize f.snapshot).deserialize = f := by
  have hforced := nullable_forced h g.forcedStb
  have hdrop := nullable_opt f.dropAfterBytes g.dropAfterBytes
  have hstall := nullable_opt f.stallAfterBytes g.stallAfterBytes
  simp only [Faults.apply, WireConfig.deserialize, WireConfig.serialize, Faults.snapshot,
    Option.join_some, hforced, hdrop, hstall]
  rfl

/-- Nothing said, nothing changed. -/
theorem apply_empty (f : Faults) : f.apply (WireConfig.deserialize {}) = f := rfl

namespace Session

section

variable (s : Session) (config : WireConfig)

theorem setFaults_faults :
    (s.setFaults config).1.faults =
      s.faults.apply (if s.faultsDisabled then {} else config : WireConfig).deserialize := rfl

theorem setFaults_snapshot :
    (s.setFaults config).2 = .serialize (s.setFaults config).1.faults.snapshot := rfl

@[simp] theorem setFaults_blocks : (s.setFaults config).1.blocks = s.blocks := rfl

@[simp] theorem setFaults_disabled :
    (s.setFaults config).1.faultsDisabled = s.faultsDisabled := rfl

/-- Asking with nothing to say only takes a snapshot. -/
theorem setFaults_empty : (s.setFaults {}).1.faults = s.faults := by
  rw [setFaults_faults, ite_self, apply_empty]

end

end Session

/-! ## What a call does to the knobs -/

theorem updateSrq_faults (vi : VirtualInstrument) (pad : UInt8) :
    (vi.updateSrq pad).1.faults = vi.faults := by
  unfold VirtualInstrument.updateSrq
  cases vi.devices pad <;> rfl

/-- Is this a write? -/
def isWrite : Op → Bool
  | .write _ _ _ => true
  | _ => false

theorem write_faults (vi : VirtualInstrument) (pad : UInt8) (data : List UInt8) (eoi : Bool) :
    (vi.write pad data eoi).bus.faults = { vi.faults with failNextWrite := false } := by
  cases hf : vi.faults.failNextWrite with
  | true =>
      have hf' : (vi.push (.write pad data eoi)).faults.failNextWrite = true := hf
      simp only [VirtualInstrument.write, hf', if_true]
      rfl
  | false =>
      have hsame : { vi.faults with failNextWrite := false } = vi.faults := by rw [← hf]
      cases hd : vi.devices pad with
      | some dev => rw [hsame, (VirtualInstrument.write_present hf hd data eoi).2.2]
      | none =>
          have hf' : (vi.push (.write pad data eoi)).faults.failNextWrite = false := hf
          have hd' : (vi.push (.write pad data eoi)).devices pad = none := hd
          simp only [VirtualInstrument.write, hf', hd', Bool.false_eq_true, if_false]
          exact hsame.symm

/-- A write takes the failure armed for it; nothing else touches a knob. -/
theorem perform_faults (vi : VirtualInstrument) (op : Op) :
    (vi.perform op).bus.faults =
      if isWrite op then { vi.faults with failNextWrite := false } else vi.faults := by
  cases op with
  | write pad data sendEoi => exact write_faults vi pad data sendEoi
  | read pad maxLen =>
      simp only [VirtualInstrument.perform, VirtualInstrument.read, Outcome.data]
      cases vi.devices pad with
      | none => rfl
      | some dev =>
          simp only
          split
          · rfl
          · exact updateSrq_faults ..
  | deviceClear pad | trigger pad =>
      simp only [VirtualInstrument.perform, VirtualInstrument.deviceClear,
        VirtualInstrument.trigger, VirtualInstrument.push, Outcome.done]
      cases vi.devices pad with
      | none => rfl
      | some dev => exact updateSrq_faults ..
  | goToRemote pad | goToLocal pad =>
      simp only [VirtualInstrument.perform, VirtualInstrument.goToRemote,
        VirtualInstrument.goToLocal, VirtualInstrument.push, Outcome.done]
      cases vi.devices pad <;> rfl
  | serialPoll pad =>
      simp only [VirtualInstrument.perform, VirtualInstrument.serialPoll]
      cases vi.faults.forced with
      | some forced => rfl
      | none => cases vi.devices pad <;> rfl
  | _ => rfl

namespace Session

/-- What is sent for a config. -/
def sent (s : Session) (config : WireConfig) : WireConfig := if s.faultsDisabled then {} else config

/-- Everything a call does to the knobs and the blocks. -/
inductive Moves (s t : Session) : Call → Option (Except Text Value) → Prop where
  | setFaults (config : WireConfig) (hfaults : t.faults = s.faults.apply (s.sent config).deserialize)
      (hblocks : t.blocks = s.blocks) : Moves s t (.setFaults config) none
  | enter (config : WireConfig) (hfaults : t.faults = s.faults.apply (s.sent config).deserialize)
      (hblocks : t.blocks = .serialize s.faults.snapshot :: s.blocks) : Moves s t (.enter config) none
  | leave {before : WireConfig} {blocks : List WireConfig} (hopen : s.blocks = before :: blocks)
      (hfaults : t.faults = s.faults.apply (s.sent before).deserialize)
      (hblocks : t.blocks = blocks) : Moves s t .leave none
  | op (op : Op)
      (hfaults : t.faults =
        if isWrite op then { s.faults with failNextWrite := false } else s.faults)
      (hblocks : t.blocks = s.blocks) :
      Moves s t (.op op) (some (s.control.instrument.perform op).result)

theorem step_enter (s : Session) (config : WireConfig) :
    s.step (.enter config) =
      some ({ ((s.setFaults {}).1.setFaults config).1 with
        blocks := (s.setFaults {}).2 :: s.blocks }, none) := rfl

theorem step_moves {s t : Session} {call : Call} {out : Option (Except Text Value)}
    (h : s.step call = some (t, out)) :
    Moves s t call out ∧ t.faultsDisabled = s.faultsDisabled := by
  cases call with
  | setFaults config =>
      obtain ⟨rfl, rfl⟩ := Prod.mk.inj (Option.some.inj h)
      exact ⟨.setFaults config rfl rfl, rfl⟩
  | enter config =>
      rw [step_enter] at h
      obtain ⟨rfl, rfl⟩ := Prod.mk.inj (Option.some.inj h)
      refine ⟨.enter config ?_ ?_, rfl⟩
      · show ((s.setFaults {}).1.setFaults config).1.faults = _
        rw [setFaults_faults, setFaults_empty]
        rfl
      · show (s.setFaults {}).2 :: s.blocks = _
        rw [setFaults_snapshot, setFaults_empty]
  | leave =>
      simp only [step] at h
      split at h
      · cases h
      · next before blocks hopen =>
          obtain ⟨rfl, rfl⟩ := Prod.mk.inj (Option.some.inj h)
          exact ⟨.leave hopen rfl rfl, rfl⟩
  | op op =>
      obtain ⟨rfl, rfl⟩ := Prod.mk.inj (Option.some.inj h)
      exact ⟨.op op (perform_faults _ op) rfl, rfl⟩

/-! ## Blocks -/

/-- No armed failure is taken by a write. -/
def Keeps (s : Session) (call : Call) : Prop :=
  ∀ op, call = .op op → isWrite op = true → s.faults.failNextWrite = false

/-- What a session keeps to: its knobs are tidy, and so will be what its blocks
put back. -/
theorem tidy_step {s t : Session} {call : Call} {out : Option (Except Text Value)}
    (h : s.step call = some (t, out)) (hs : Tidy s.faults) : Tidy t.faults := by
  cases (step_moves h).1 with
  | setFaults config hfaults | enter config hfaults | leave _ hfaults =>
      rw [hfaults]
      exact hs.apply _
  | op op hfaults =>
      rw [hfaults]
      split <;> exact hs

/-- Nested calls leave the blocks around them open. -/
theorem exec_nested_blocks {calls : List Call} (hn : Nested calls) {s t : Session}
    (h : Runs.exec step s calls = some t) : t.blocks = s.blocks := by
  induction hn generalizing s t with
  | nil =>
      rw [Runs.exec, Option.some.injEq] at h
      rw [h]
  | setFaults config _ ih =>
      obtain ⟨u, out, hone, hrest⟩ := Runs.exec_cons_eq_some.mp h
      cases (step_moves hone).1 with
      | setFaults _ _ hblocks => rw [ih hrest, hblocks]
  | op op _ ih =>
      obtain ⟨u, out, hone, hrest⟩ := Runs.exec_cons_eq_some.mp h
      cases (step_moves hone).1 with
      | op _ _ hblocks => rw [ih hrest, hblocks]
  | block config _ _ ihbody ih =>
      obtain ⟨u, out, hone, hrest⟩ := Runs.exec_cons_eq_some.mp h
      rw [Runs.exec_append, Option.bind_eq_some_iff] at hrest
      obtain ⟨v, hbody, hrest⟩ := hrest
      obtain ⟨w, out', hleave, hrest⟩ := Runs.exec_cons_eq_some.mp hrest
      cases (step_moves hone).1 with
      | enter _ _ hentered =>
          cases (step_moves hleave).1 with
          | leave hopen _ hleft =>
              rw [ihbody hbody, hentered] at hopen
              rw [ih hrest, hleft, (List.cons.inj hopen).2]

/-- Nested calls return. -/
theorem exec_nested {calls : List Call} (hn : Nested calls) (s : Session) :
    ∃ t, Runs.exec step s calls = some t := by
  induction hn generalizing s with
  | nil => exact ⟨s, rfl⟩
  | setFaults config _ ih => exact ih _
  | op op _ ih => exact ih _
  | @block config body calls hbody _ ihbody ih =>
      obtain ⟨v, hv⟩ := ihbody { ((s.setFaults {}).1.setFaults config).1 with
        blocks := (s.setFaults {}).2 :: s.blocks }
      -- the block is still open behind its body
      have hopen : v.blocks = (s.setFaults {}).2 :: s.blocks := exec_nested_blocks hbody hv
      have hleave : v.step .leave =
          some ({ (v.setFaults (s.setFaults {}).2).1 with blocks := s.blocks }, none) := by
        simp only [step, hopen]
      obtain ⟨t, ht⟩ := ih { (v.setFaults (s.setFaults {}).2).1 with blocks := s.blocks }
      refine ⟨t, ?_⟩
      rw [Runs.exec_cons_eq_some]
      refine ⟨_, none, step_enter s config, ?_⟩
      rw [Runs.exec_append, hv, Option.bind_some, Runs.exec_cons_eq_some]
      exact ⟨_, none, hleave, ht⟩

/-- With faults disabled, nothing but a write that takes a failure changes a
knob. -/
theorem exec_disabled {s t : Session} {calls : List Call} (hdisabled : s.faultsDisabled = true)
    (hkeep : Runs.Throughout step Keeps s calls) (h : Runs.exec step s calls = some t) :
    t.faults = s.faults := by
  have hstep (u : Session) (call : Call) (v : Session) (out : Option (Except Text Value))
      (hu : u.faults = s.faults ∧ u.faultsDisabled = true) (hkeep : Keeps u call)
      (hone : u.step call = some (v, out)) : v.faults = s.faults ∧ v.faultsDisabled = true := by
    obtain ⟨hmoves, hsame⟩ := step_moves hone
    refine ⟨?_, hsame.trans hu.2⟩
    cases hmoves with
    | setFaults config hfaults | enter config hfaults | leave _ hfaults =>
        rw [hfaults, sent, hu.2, hu.1]
        rfl
    | op op hfaults =>
        rw [hfaults, ← hu.1]
        split
        · next hwrite => rw [← hkeep op rfl hwrite]
        · rfl
  have hall := Runs.always_of_throughout hstep ⟨rfl, hdisabled⟩ hkeep
  exact (hall calls t List.prefix_rfl h).1

/-- **A block** puts back what it found. -/
theorem block_restores {s t : Session} {config : WireConfig} {body : List Call}
    (hs : Tidy s.faults) (hn : Nested body)
    (hkeep : Runs.Throughout step Keeps s (.enter config :: (body ++ [.leave])))
    (h : Runs.exec step s (.enter config :: (body ++ [.leave])) = some t) :
    t.faults = s.faults := by
  cases hdisabled : s.faultsDisabled with
  | true => exact exec_disabled hdisabled hkeep h
  | false =>
      obtain ⟨u, out, henter, hrest⟩ := Runs.exec_cons_eq_some.mp h
      obtain ⟨v, out', hbody, hleave⟩ := Runs.exec_concat_eq_some.mp hrest
      have hopen := exec_nested_blocks hn hbody
      obtain ⟨hentered, hu⟩ := step_moves henter
      have hv : v.faultsDisabled = false := by
        refine Runs.exec_invariant (P := fun w => w.faultsDisabled = false) ?_ (hu.trans hdisabled) hbody
        exact fun w call w' o hw hone => (step_moves hone).2.trans hw
      cases hentered with
      | enter _ _ hblocks =>
          cases (step_moves hleave).1 with
          | leave hinner hfaults =>
              rw [hopen, hblocks] at hinner
              rw [hfaults, sent, hv, ← (List.cons.inj hinner).1]
              exact apply_snapshot hs v.faults

/-- Every block in a run puts back what it found. -/
def Restores (s : Session) (calls : List Call) : Prop :=
  ∀ pre config body u t, pre ++ .enter config :: (body ++ [.leave]) <+: calls → Nested body →
    Runs.exec step s pre = some u →
    Runs.exec step u (.enter config :: (body ++ [.leave])) = some t → t.faults = u.faults

theorem restores {s : Session} {calls : List Call} (hs : Reached s.faults)
    (hkeep : Runs.Throughout step Keeps s calls) : Restores s calls := by
  intro pre config body u t hpre hn hu ht
  have htidy : Tidy u.faults :=
    Runs.exec_invariant (P := fun w => Tidy w.faults)
      (fun _ _ _ _ hw hone => tidy_step hone hw) hs.tidy hu
  refine block_restores htidy hn ?_ ht
  intro pre' call w hpre' hw
  refine hkeep (pre ++ pre') call w ?_ ?_
  · rw [List.append_assoc]
    exact ((List.prefix_append_right_inj pre).mpr hpre').trans hpre
  · rw [Runs.exec_append, hu]
    exact hw

end Session

/-- The configs a sequence of calls passes. -/
def configs : List Call → List WireConfig
  | [] => []
  | .setFaults config :: calls | .enter config :: calls => config :: configs calls
  | _ :: calls => configs calls

/-- **Fault blocks.**  In properly nested calls from knobs that configs led to,
with no one-shot failure taken, every block puts back what it found.  And every
config sets just the knobs it has a value for and clears those it nulls, unless
it gives the sentinel for a byte count. -/
theorem blocks_restore_iff {s : Session} {calls : List Call} (hs : Reached s.faults)
    (hn : Nested calls) (hkeep : Runs.Throughout Session.step Session.Keeps s calls) :
    ((∃ t, Runs.exec Session.step s calls = some t) ∧ s.Restores calls ∧
        ∀ config ∈ configs calls, ∀ f : Faults, config.Sets f (f.apply config.deserialize)) ↔
      ∀ config ∈ configs calls, config.Representable := by
  constructor
  · rintro ⟨-, -, hsets⟩ config hconfig
    exact config.sets_iff.mp (hsets config hconfig)
  · intro hrep
    exact ⟨Session.exec_nested hn s, Session.restores hs hkeep,
      fun config hconfig => config.sets_iff.mpr (hrep config hconfig)⟩

/-- A server with one instrument, and no faults. -/
def fresh : Session := { control := .new somePorts [5] }

/-- Stall connections, and inside that dribble on ones that do not stall. -/
def dribbleInStall : List Call :=
  [.enter { stallAfterBytes := .value 64 },
    .enter { stallAfterBytes := .null, dribble := .value true }, .leave, .leave]

theorem nested_dribbleInStall : Nested dribbleInStall :=
  .block _ (.block _ .nil .nil) .nil

theorem keeps_dribbleInStall : Runs.Throughout Session.step Session.Keeps fresh dribbleInStall := by
  rintro pre call u hpre - op rfl
  have hmem : .op op ∈ dribbleInStall := hpre.subset (by simp)
  simp [dribbleInStall] at hmem

theorem blocks_restore_dribbleInStall :
    Reached fresh.faults ∧ fresh.Restores dribbleInStall := by
  have hs : Reached fresh.faults := ⟨[], rfl⟩
  refine ⟨hs, ((blocks_restore_iff hs nested_dribbleInStall keeps_dribbleInStall).mpr ?_).2.1⟩
  intro config hconfig
  simp only [dribbleInStall, configs, List.mem_cons, List.not_mem_nil, or_false] at hconfig
  rcases hconfig with rfl | rfl <;> exact ⟨by decide, by decide⟩

/-- The largest byte count there is. -/
def dropLast : WireConfig := { dropAfterBytes := .value 0xFFFFFFFFFFFFFFFF }

/-- It reads as no count at all. -/
theorem dropLast_clears :
    Nested [.enter dropLast, .leave] ∧
      ¬ ∀ config ∈ configs [.enter dropLast, .leave],
        ∀ f : Faults, config.Sets f (f.apply config.deserialize) := by
  refine ⟨.block _ .nil .nil, fun h => ?_⟩
  have hdrop : (Faults.new.apply dropLast.deserialize).dropAfter = some 0xFFFFFFFFFFFFFFFF :=
    (h dropLast (by simp [configs]) .new).dropAfterBytes
  exact absurd hdrop (by decide)

end TestGear.MockServer
