import TestGear.Control.Operations
import TestGear.MockServer

/-!
# TestGear.MockServer.OneShot

`fail_next_write` over a session.  A write takes the failure that is armed for
it, but a block puts back what it found: entered with a failure armed, it arms
it again once a write inside has taken it.

`outstanding` is what can still fail a write without another arming.  As long
as no write takes a failure inside a block that was entered with one armed, no
write fails that nobody asked for (`failures_le_armings`).
-/

namespace TestGear.MockServer

open Instrument

/-- The error of an injected failure. -/
def injected : Text := "injected bus write failure".toList

/-- Did an operation fail because of the knob? -/
def isInjected : Option (Except Text Value) → Bool
  | some (.error e) => e = injected
  | _ => false

/-- The writes that failed in a session because of the knob. -/
def failures (s : Session) (calls : List Call) : Nat :=
  (Runs.trace Session.step s calls).countP isInjected

/-- Does a config arm the failure? -/
def WireConfig.arms (config : WireConfig) : Bool := config.failNextWrite == .value true

/-- Does a call pass `fail_next_write = true`? -/
def Call.arms : Call → Bool
  | .setFaults config | .enter config => config.arms
  | _ => false

def armings (calls : List Call) : Nat := calls.countP Call.arms

/-! ## What fails a write -/

theorem noInstrument_ne_injected (pad : UInt8) : noInstrument pad ≠ injected := by
  intro h
  have hhead : some 'n' = some 'i' := congrArg List.head? h
  exact absurd hhead (by decide)

/-- Only a write that takes a failure fails for it. -/
theorem isInjected_perform {vi : VirtualInstrument} {op : Op}
    (h : isInjected (some (vi.perform op).result) = true) :
    isWrite op = true ∧ vi.faults.failNextWrite = true := by
  cases hr : (vi.perform op).result with
  | ok v => rw [hr] at h; cases h
  | error e =>
      rw [hr] at h
      have he : e = injected := by simpa [isInjected] using h
      cases (VirtualInstrument.perform_failed hr).2 with
      | absent _ pad => exact absurd he (noInstrument_ne_injected pad)
      | injected hf => exact ⟨rfl, hf⟩
      | lines | command | atn => exact absurd he (by decide)

namespace Session

/-- Is a failure armed, or will one be when a block is left? -/
def outstanding (s : Session) : Bool := s.faults.failNextWrite || s.blocks.any WireConfig.arms

/-- No write takes a failure inside a block that was entered with one armed. -/
def Calm (s : Session) (call : Call) : Prop :=
  ∀ op, call = .op op → isWrite op = true → s.faults.failNextWrite = true →
    ∀ before ∈ s.blocks, before.arms = false

/-- A config can arm the failure only by saying so. -/
theorem failNextWrite_sent (s : Session) (config : WireConfig)
    (h : (s.faults.apply (s.sent config).deserialize).failNextWrite = true) :
    config.arms = true ∨ s.faults.failNextWrite = true := by
  have hknob : (s.sent config).failNextWrite.plain.getD s.faults.failNextWrite = true := h
  unfold sent at hknob
  split at hknob
  · exact .inr hknob
  · cases hfield : config.failNextWrite with
    | value b =>
        rw [hfield] at hknob
        exact .inl (by simp [WireConfig.arms, hfield, show b = true from hknob])
    | _ => rw [hfield] at hknob; exact .inr hknob

/-- A knob that is on was on, or was just armed. -/
theorem toNat_or_le {now before arms : Bool} (h : now = true → arms = true ∨ before = true)
    (rest : Bool) : (now || rest).toNat ≤ arms.toNat + (before || rest).toNat := by
  revert now before arms rest
  decide

/-- A write takes what was armed, and inside no block that would arm it again. -/
theorem op_outstanding {s : Session} {op : Op} (hcalm : s.Calm (.op op)) :
    (isInjected (some (s.control.instrument.perform op).result)).toNat +
        ((!isWrite op && s.faults.failNextWrite) || s.blocks.any WireConfig.arms).toNat ≤
      s.outstanding.toNat := by
  have htaken := @isInjected_perform s.control.instrument op
  generalize isInjected (some (s.control.instrument.perform op).result) = failed at *
  unfold outstanding
  cases hw : isWrite op with
  | false => cases failed <;> simp_all
  | true =>
      cases hs : s.faults.failNextWrite with
      | false =>
          have hnone : failed = false := by
            by_contra hfailed
            have harmed : s.faults.failNextWrite = true := (htaken (by simpa using hfailed)).2
            rw [hs] at harmed
            cases harmed
          simp [hnone]
      | true =>
          have hquiet : s.blocks.any WireConfig.arms = false := by
            rw [List.any_eq_false]
            intro before hbefore
            simp [hcalm op rfl hw hs before hbefore]
          rw [hquiet]
          cases failed <;> decide

/-- One call: what it fails and what it leaves outstanding was outstanding, or is
armed by it. -/
theorem step_outstanding {s t : Session} {call : Call} {out : Option (Except Text Value)}
    (hcalm : s.Calm call) (h : s.step call = some (t, out)) :
    (isInjected out).toNat + t.outstanding.toNat ≤ call.arms.toNat + s.outstanding.toNat := by
  cases (step_moves h).1 with
  | setFaults config hfaults hblocks =>
      have hknob := s.failNextWrite_sent config
      rw [← hfaults] at hknob
      simp only [isInjected, outstanding, hblocks, Call.arms, Bool.toNat_false, Nat.zero_add]
      exact toNat_or_le hknob _
  | enter config hfaults hblocks =>
      have hknob := s.failNextWrite_sent config
      rw [← hfaults] at hknob
      have hsnap : (WireConfig.serialize s.faults.snapshot).arms = s.faults.failNextWrite := by
        simp only [WireConfig.arms, WireConfig.serialize, Faults.snapshot, Field.ofOption]
        cases s.faults.failNextWrite <;> rfl
      simp only [isInjected, outstanding, hblocks, Call.arms, List.any_cons, hsnap, Bool.toNat_false,
        Nat.zero_add]
      -- what was armed before is kept for the end of the block
      have hkept := toNat_or_le hknob (s.faults.failNextWrite || s.blocks.any WireConfig.arms)
      rwa [← Bool.or_assoc s.faults.failNextWrite, Bool.or_self] at hkept
  | @leave before blocks hopen hfaults hblocks =>
      have hknob := s.failNextWrite_sent before
      rw [← hfaults] at hknob
      simp only [isInjected, outstanding, hopen, hblocks, Call.arms, List.any_cons, Bool.toNat_false,
        Nat.zero_add]
      have hput := @toNat_or_le _ (s.faults.failNextWrite || before.arms) false
        (fun hnow => .inr (by rw [Bool.or_comm, Bool.or_eq_true]; exact hknob hnow))
        (blocks.any WireConfig.arms)
      rwa [Bool.or_assoc, Bool.toNat_false, Nat.zero_add] at hput
  | op op hfaults hblocks =>
      have hknob : t.faults.failNextWrite = (!isWrite op && s.faults.failNextWrite) := by
        rw [hfaults]
        cases isWrite op <;> rfl
      have hop := op_outstanding hcalm
      rw [outstanding, hknob, hblocks]
      exact Nat.le_trans hop (Nat.le_add_left _ _)

end Session

/-- **A session**: what failed was armed in it, or outstanding at first. -/
theorem failures_bound {s : Session} {calls : List Call}
    (hcalm : Runs.Throughout Session.step Session.Calm s calls) :
    failures s calls ≤ armings calls + s.outstanding.toNat := by
  induction calls generalizing s with
  | nil => exact Nat.zero_le _
  | cons call calls ih =>
      cases hone : s.step call with
      | none =>
          have hnone : failures s (call :: calls) = 0 := by simp [failures, Runs.trace, hone]
          omega
      | some r =>
          obtain ⟨t, out⟩ := r
          have hfirst := Session.step_outstanding (Runs.throughout_head hcalm) hone
          have hrest := ih (Runs.throughout_tail hone hcalm)
          have hfailures : failures s (call :: calls) =
              (isInjected out).toNat + failures t calls := by
            simp only [failures, Runs.trace, hone, Option.elim_some, List.countP_cons]
            cases isInjected out <;> simp [Nat.add_comm]
          have harmings : armings (call :: calls) = call.arms.toNat + armings calls := by
            simp only [armings, List.countP_cons]
            cases call.arms <;> simp [Nat.add_comm]
          omega

/-- **One failure an arming.**  From a state with the knob off, if no write takes a
failure inside a block that was entered with one armed, then at no time have
more writes failed than callers passed `fail_next_write = true`. -/
theorem failures_le_armings {s : Session} {calls : List Call}
    (hknob : s.faults.failNextWrite = false) (hblocks : s.blocks = [])
    (hcalm : Runs.Throughout Session.step Session.Calm s calls) :
    ∀ pre, pre <+: calls → failures s pre ≤ armings pre := by
  intro pre hpre
  have hbound := failures_bound (Runs.throughout_prefix hpre hcalm)
  have hnone : s.outstanding = false := by simp [Session.outstanding, hknob, hblocks]
  rw [hnone] at hbound
  exact hbound

/-- A write with nothing special about it. -/
def someWrite : Call := .op (.write 5 (asBytes "*RST".toList) true)

/-- One failure armed in a block, and two writes. -/
def armedInside : List Call := [.enter { failNextWrite := .value true }, someWrite, .leave, someWrite]

theorem calm_armedInside : Runs.Throughout Session.step Session.Calm fresh armedInside := by
  -- inside the block, which found the knob off; behind it, no block is open
  refine Runs.throughout_cons rfl (by rintro op ⟨⟩) ?_
  refine Runs.throughout_cons rfl (fun _ _ _ _ => by decide) ?_
  refine Runs.throughout_cons rfl (by rintro op ⟨⟩) ?_
  refine Runs.throughout_cons rfl (fun _ _ _ _ => by simp [fresh]) ?_
  exact Runs.throughout_nil

theorem failures_armedInside :
    failures fresh armedInside = 1 ∧ failures fresh armedInside ≤ armings armedInside :=
  ⟨by decide +kernel,
    failures_le_armings rfl rfl calm_armedInside armedInside List.prefix_rfl⟩

/-- The failure is armed outside a block, and taken inside it. -/
def armedOutside : List Call :=
  [.setFaults { failNextWrite := .value true }, .enter {}, someWrite, .leave, someWrite]

/-- Two writes fail, for one arming. -/
theorem armedOutside_fails_twice :
    fresh.faults.failNextWrite = false ∧ Nested armedOutside ∧ armings armedOutside = 1 ∧
      failures fresh armedOutside = 2 := by
  refine ⟨rfl, ?_, by decide, by decide +kernel⟩
  exact .setFaults _ (.block _ (.op _ .nil) (.op _ .nil))

end TestGear.MockServer
