import TestGear.Frontend.Registry
import TestGear.Frontend.Sessions
import TestGear.Frontend.Links
import TestGear.Vxi11.Messages

/-!
# TestGear.Frontend.Daemon

Both front-ends over one lock registry: HiSLIP sessions lock and unlock on
their asynchronous channels, VXI-11 links on their core connections, and either
loses its locks with the channel it came over.  The steps of all the tasks are
interleaved in any order.

* `daemon_tables_are_sound` — ids, owners and limits, in every run;
* `every_lock_has_a_live_owner` — a lock is held by a session or a link that is
  there, on its own resource, as long as clients keep to their own;
* `links_lock_alone` — a link's lock excludes everybody, and one unlock ends it.
-/

namespace TestGear.Frontend

open Runs Grants
open Vxi11 (ErrorCode)

structure DaemonConfig where
  maxSessions : ℕ
  maxLinks : ℕ

structure Daemon where
  locks : LockRegistry := .new
  sessions : Sessions := {}
  links : Links := {}

/-- A step of one of the tasks. -/
inductive Event where
  /-- Initialize, for a device with this resource key; does its response get out? -/
  | openSession (resource : String) (answered : Bool)
  /-- AsyncInitialize finds the session. -/
  | findSession (id : UInt16)
  /-- AsyncInitialize binds it. -/
  | bindAsync (conn : ℕ)
  /-- One attempt of an AsyncLock request. -/
  | asyncLock (conn : ℕ) (lockString : String)
  /-- AsyncLock, releasing. -/
  | asyncUnlock (conn : ℕ)
  | closeAsync (conn : ℕ)
  | closeSync (conn : ℕ)
  /-- The task a closed synchronous channel leaves behind. -/
  | forget (id : UInt16)
  | accept
  | createLink (conn : ℕ) (resource : String) (lockDevice : Bool)
  | deviceLock (conn : ℕ) (lid : Int32)
  /-- One attempt of the call that waits for its lock. -/
  | attempt (conn : ℕ)
  /-- The call that waits runs out of time, or is aborted; a create_link only runs
  out of time. -/
  | giveUp (conn : ℕ) (aborted : Bool)
  | deviceUnlock (conn : ℕ) (lid : Int32)
  | destroyLink (conn : ℕ) (lid : Int32)
  | hangup (conn : ℕ)
  /-- The connection breaks inside a record. -/
  | breakOff (conn : ℕ)
deriving DecidableEq, Repr

/-- What the client is told by the end of the step, if anything. -/
inductive Told where
  | nothing
  | session (result : OpenResult)
  | bound (success : Bool)
  | lock (response : LockResponse)
  | link (lid : Option Int32)
  | error (code : ErrorCode)
deriving DecidableEq

namespace Daemon

variable (d : Daemon)

/-- Locks that go with what held them. -/
def releaseEach (locks : LockRegistry) (ids : List HolderId) : LockRegistry :=
  ids.foldl (fun locks id => (locks.releaseAll id).1) locks

def asyncLock (conn : ℕ) (lockString : String) : Daemon × Told :=
  match d.sessions.asyncs.get? conn with
  | none => (d, .nothing)
  | some entry =>
      let (locks, granted) := d.locks.tryRequest entry.resource (hislipId entry.id) lockString
      ({ d with locks }, granted.elim .nothing .lock)

def asyncUnlock (conn : ℕ) : Daemon × Told :=
  match d.sessions.asyncs.get? conn with
  | none => (d, .nothing)
  | some entry =>
      let (locks, response, _) := d.locks.release entry.resource (hislipId entry.id)
      ({ d with locks }, .lock response)

/-- The guard of a synchronous channel is dropped: locks go first. -/
def closeSync (conn : ℕ) : Daemon × Told :=
  let (sessions, closed) := d.sessions.closeSync conn
  ({ d with
      sessions
      locks := closed.elim d.locks fun id => (d.locks.releaseAll (hislipId id)).1 }, .nothing)

/-- The answer of a create_link that need not wait. -/
def createLink (c : DaemonConfig) (conn : ℕ) (resource : String) (lockDevice : Bool) : Daemon × Told :=
  match d.links.idle conn with
  | none => (d, .nothing)
  | some core =>
      let (links, lid) := d.links.createLink c.maxLinks conn core resource lockDevice
      ({ d with links },
        if lid.isNone then .error .outOfResources else if lockDevice then .nothing else .link lid)

def deviceLock (conn : ℕ) (lid : Int32) : Daemon × Told :=
  match d.links.idle conn with
  | none => (d, .nothing)
  | some core =>
      match d.links.table.get? lid with
      | none => (d, .error .invalidLinkIdentifier)
      | some resource =>
          -- locks of a link do not nest
          if d.locks.holds resource (vxi11Id lid) then (d, .error .deviceLockedByAnotherLink)
          else ({ d with links := d.links.await conn core lid resource }, .nothing)

def attempt (conn : ℕ) : Daemon × Told :=
  match d.links.conns.get? conn with
  | none => (d, .nothing)
  | some core =>
      match core.pending with
      | none => (d, .nothing)
      | some p =>
          let (locks, granted) := d.locks.tryRequest p.resource (vxi11Id p.lid) ""
          if granted.isNone then ({ d with locks }, .nothing)
          else
            ({ d with locks, links := d.links.granted conn core },
              match p.wait with
              | .create => .link (some p.lid)
              | .lock => .error .noError)

def giveUp (conn : ℕ) (aborted : Bool) : Daemon × Told :=
  match d.links.conns.get? conn with
  | none => (d, .nothing)
  | some core =>
      match core.pending with
      | none => (d, .nothing)
      | some p =>
          ({ d with links := d.links.refused conn core p },
            match p.wait, aborted with
            | .lock, true => .error .abort
            | _, _ => .error .deviceLockedByAnotherLink)

def deviceUnlock (conn : ℕ) (lid : Int32) : Daemon × Told :=
  match d.links.idle conn with
  | none => (d, .nothing)
  | some _ =>
      match d.links.table.get? lid with
      | none => (d, .error .invalidLinkIdentifier)
      | some resource =>
          if d.locks.holds resource (vxi11Id lid) then
            ({ d with locks := (d.locks.release resource (vxi11Id lid)).1 }, .error .noError)
          else (d, .error .noLockHeldByThisLink)

def destroyLink (conn : ℕ) (lid : Int32) : Daemon × Told :=
  match d.links.idle conn with
  | none => (d, .nothing)
  | some core =>
      match d.links.table.get? lid with
      | none => (d, .error .invalidLinkIdentifier)
      | some _ =>
          ({ d with
              links := d.links.destroyLink conn core lid
              locks := (d.locks.releaseAll (vxi11Id lid)).1 }, .error .noError)

def hangup (conn : ℕ) : Daemon × Told :=
  match d.links.idle conn with
  | none => (d, .nothing)
  | some core =>
      let (links, removed) := d.links.hangup conn core
      ({ d with links, locks := releaseEach d.locks (removed.map vxi11Id) }, .nothing)

def breakOff (conn : ℕ) : Daemon × Told :=
  match d.links.idle conn with
  | none => (d, .nothing)
  | some _ => ({ d with links := d.links.breakOff conn }, .nothing)

/-- One step of one of the tasks; what cannot happen now changes nothing. -/
def step (c : DaemonConfig) (d : Daemon) : Event → Daemon × Told
  | .openSession resource answered =>
      let (sessions, result) := d.sessions.openSession c.maxSessions resource answered
      ({ d with sessions }, .session result)
  | .findSession id => ({ d with sessions := (d.sessions.findSession id).1 }, .nothing)
  | .bindAsync conn =>
      let (sessions, success) := d.sessions.bindAsync conn
      ({ d with sessions }, .bound success)
  | .asyncLock conn lockString => d.asyncLock conn lockString
  | .asyncUnlock conn => d.asyncUnlock conn
  | .closeAsync conn => ({ d with sessions := d.sessions.closeAsync conn }, .nothing)
  | .closeSync conn => d.closeSync conn
  | .forget id => ({ d with sessions := d.sessions.forget id }, .nothing)
  | .accept => ({ d with links := d.links.accept.1 }, .nothing)
  | .createLink conn resource lockDevice => d.createLink c conn resource lockDevice
  | .deviceLock conn lid => d.deviceLock conn lid
  | .attempt conn => d.attempt conn
  | .giveUp conn aborted => d.giveUp conn aborted
  | .deviceUnlock conn lid => d.deviceUnlock conn lid
  | .destroyLink conn lid => d.destroyLink conn lid
  | .hangup conn => d.hangup conn
  | .breakOff conn => d.breakOff conn

/-- What the step asks of the lock registry. -/
def lockOps : Event → List LockOp
  | .asyncLock conn lockString =>
      (d.sessions.asyncs.get? conn).elim [] fun entry =>
        [.request entry.resource (hislipId entry.id) lockString]
  | .asyncUnlock conn =>
      (d.sessions.asyncs.get? conn).elim [] fun entry => [.release entry.resource (hislipId entry.id)]
  | .closeSync conn => (d.sessions.syncs.get? conn).elim [] fun id => [.releaseAll (hislipId id)]
  | .attempt conn =>
      ((d.links.conns.get? conn).bind CoreConn.pending).elim [] fun p =>
        [.request p.resource (vxi11Id p.lid) ""]
  | .deviceUnlock conn lid =>
      ((d.links.idle conn).bind fun _ => d.links.table.get? lid).elim [] fun resource =>
        if d.locks.holds resource (vxi11Id lid) then [.release resource (vxi11Id lid)] else []
  | .destroyLink conn lid =>
      ((d.links.idle conn).bind fun _ => d.links.table.get? lid).elim [] fun _ =>
        [.releaseAll (vxi11Id lid)]
  | .hangup conn =>
      (d.links.idle conn).elim [] fun core =>
        (d.links.hangup conn core).2.map fun lid => .releaseAll (vxi11Id lid)
  | _ => []

section

variable {c : DaemonConfig} {m n : ℕ} {d : Daemon} {s : Outstanding}

/-- The registry is the one of the operations asked of it. -/
theorem locks_step (c : DaemonConfig) (d : Daemon) (e : Event) :
    (step c d e).1.locks = final LockRegistry.step d.locks (d.lockOps e) := by
  cases e with
  | asyncLock conn lockString =>
      simp only [step, asyncLock, lockOps]
      cases d.sessions.asyncs.get? conn <;> rfl
  | asyncUnlock conn =>
      simp only [step, asyncUnlock, lockOps]
      cases d.sessions.asyncs.get? conn <;> rfl
  | closeSync conn =>
      simp only [step, closeSync, lockOps, Sessions.closeSync]
      cases d.sessions.syncs.get? conn <;> rfl
  | createLink conn resource lockDevice =>
      simp only [step, createLink, lockOps]
      cases d.links.idle conn <;> rfl
  | deviceLock conn lid =>
      simp only [step, deviceLock, lockOps]
      grind [final_nil]
  | attempt conn =>
      simp only [step, attempt, lockOps]
      cases d.links.conns.get? conn with
      | none => rfl
      | some core =>
          simp only [Option.bind_some]
          cases core.pending with
          | none => rfl
          | some p =>
              simp only
              split <;> rfl
  | giveUp conn aborted =>
      simp only [step, giveUp, lockOps]
      grind [final_nil]
  | deviceUnlock conn lid =>
      simp only [step, deviceUnlock, lockOps]
      cases d.links.idle conn with
      | none => rfl
      | some core =>
          simp only [Option.bind_some]
          cases d.links.table.get? lid with
          | none => rfl
          | some resource =>
              simp only [Option.elim_some]
              split <;> rfl
  | destroyLink conn lid =>
      simp only [step, destroyLink, lockOps]
      cases d.links.idle conn with
      | none => rfl
      | some core =>
          simp only [Option.bind_some]
          cases d.links.table.get? lid <;> rfl
  | hangup conn =>
      simp only [step, hangup, lockOps]
      cases d.links.idle conn with
      | none => rfl
      | some core =>
          simp only [Option.elim_some, releaseEach, final, List.foldl_map]
          rfl
  | breakOff conn =>
      simp only [step, breakOff, lockOps]
      cases d.links.idle conn <;> rfl
  | openSession resource answered => rfl
  | findSession id => rfl
  | bindAsync conn => rfl
  | closeAsync conn => rfl
  | forget id => rfl
  | accept => rfl

/-- A step asks for one thing at most, but for the locks that go with a connection. -/
theorem lockOps_cases (d : Daemon) (e : Event) :
    (∃ op, d.lockOps e = [op]) ∨ ∃ ids : List HolderId, d.lockOps e = ids.map .releaseAll := by
  have hnil : ∃ ids : List HolderId, [] = ids.map LockOp.releaseAll := ⟨[], rfl⟩
  have hopt {α : Type} (x : Option α) (f : α → LockOp) :
      (∃ op, x.elim [] (fun a => [f a]) = [op]) ∨
        ∃ ids : List HolderId, x.elim [] (fun a => [f a]) = ids.map .releaseAll := by
    cases x with
    | none => exact .inr hnil
    | some a => exact .inl ⟨f a, rfl⟩
  cases e with
  | asyncLock conn lockString => exact hopt _ _
  | asyncUnlock conn => exact hopt _ _
  | closeSync conn => exact hopt _ _
  | attempt conn => exact hopt _ _
  | destroyLink conn lid => exact hopt _ _
  | deviceUnlock conn lid =>
      simp only [lockOps]
      cases (d.links.idle conn).bind fun _ => d.links.table.get? lid with
      | none => exact .inr hnil
      | some resource =>
          rw [Option.elim_some]
          split
          · exact .inl ⟨_, rfl⟩
          · exact .inr hnil
  | hangup conn =>
      simp only [lockOps]
      cases d.links.idle conn with
      | none => exact .inr hnil
      | some core => exact .inr ⟨(d.links.hangup conn core).2.map vxi11Id, by simp [Function.comp_def]⟩
  | openSession resource answered => exact .inr hnil
  | findSession id => exact .inr hnil
  | bindAsync conn => exact .inr hnil
  | closeAsync conn => exact .inr hnil
  | forget id => exact .inr hnil
  | accept => exact .inr hnil
  | createLink conn resource lockDevice => exact .inr hnil
  | deviceLock conn lid => exact .inr hnil
  | giveUp conn aborted => exact .inr hnil
  | breakOff conn => exact .inr hnil

/-- Releases of all a holder has, one after the other, are those of the ledger. -/
theorem represents_releaseAll {locks : LockRegistry} (h : locks.Represents n s) (ids : List HolderId) :
    (final LockRegistry.step locks (ids.map .releaseAll)).Represents n
      (final specStep s (ids.map .releaseAll)) := by
  induction ids generalizing locks s with
  | nil => exact h
  | cons id ids ih => exact ih (h.releaseAll id).1

/-- What an event does to the locks is what it does to the ledger. -/
theorem represents_lockOps (h : d.locks.Represents (n + 1) s) (e : Event) :
    (final LockRegistry.step d.locks (d.lockOps e)).Represents n (final specStep s (d.lockOps e)) := by
  cases lockOps_cases d e with
  | inl hone =>
      obtain ⟨op, hop⟩ := hone
      rw [hop]
      exact (h.step op).1
  | inr hall =>
      obtain ⟨ids, hids⟩ := hall
      rw [hids]
      exact represents_releaseAll (h.mono (Nat.le_succ n)) ids

/-! ## Ids, owners and limits -/

/-- No event breaks the table of sessions. -/
theorem sessions_step (h : d.sessions.WellFormed c.maxSessions) (e : Event) :
    (step c d e).1.sessions.WellFormed c.maxSessions := by
  cases e with
  | openSession resource answered => exact h.openSession resource answered
  | findSession id => exact h.findSession id
  | bindAsync conn => exact h.bindAsync conn
  | closeAsync conn => exact h.closeAsync conn
  | closeSync conn => exact h.closeSync conn
  | forget id => exact h.forget id
  | asyncLock conn lockString =>
      simp only [step, asyncLock]
      split <;> exact h
  | asyncUnlock conn =>
      simp only [step, asyncUnlock]
      split <;> exact h
  | accept => exact h
  | createLink conn resource lockDevice =>
      simp only [step, createLink]
      split <;> exact h
  | deviceLock conn lid =>
      simp only [step, deviceLock]
      repeat' split
      all_goals exact h
  | attempt conn =>
      simp only [step, attempt]
      repeat' split
      all_goals exact h
  | giveUp conn aborted =>
      simp only [step, giveUp]
      repeat' split
      all_goals exact h
  | deviceUnlock conn lid =>
      simp only [step, deviceUnlock]
      repeat' split
      all_goals exact h
  | destroyLink conn lid =>
      simp only [step, destroyLink]
      repeat' split
      all_goals exact h
  | hangup conn =>
      simp only [step, hangup]
      split <;> exact h
  | breakOff conn =>
      simp only [step, breakOff]
      split <;> exact h

/-- Nor that of links. -/
theorem links_step (h : d.links.WellFormed c.maxLinks (n + 1)) (e : Event) :
    (step c d e).1.links.WellFormed c.maxLinks n := by
  have hmono := h.mono (Nat.le_succ n)
  have hidle {conn : ℕ} {core : CoreConn} (hget : d.links.idle conn = some core) :=
    (Links.idle_eq_some_iff.mp hget).1
  cases e with
  | accept => exact hmono.accept
  | createLink conn resource lockDevice =>
      simp only [step, createLink]
      split
      · exact hmono
      · next core hget => exact h.createLink (hidle hget) resource lockDevice
  | deviceLock conn lid =>
      simp only [step, deviceLock]
      split
      · exact hmono
      · next core hget =>
          split
          · exact hmono
          · split
            · exact hmono
            · exact hmono.await (hidle hget) _ _
  | attempt conn =>
      simp only [step, attempt]
      split
      · exact hmono
      · next core hget =>
          split
          · exact hmono
          · split
            · exact hmono
            · exact hmono.granted hget
  | giveUp conn aborted =>
      simp only [step, giveUp]
      split
      · exact hmono
      · next core hget =>
          split
          · exact hmono
          · exact hmono.refused hget _
  | deviceUnlock conn lid =>
      simp only [step, deviceUnlock]
      repeat' split
      all_goals exact hmono
  | destroyLink conn lid =>
      simp only [step, destroyLink]
      split
      · exact hmono
      · next core hget =>
          split
          · exact hmono
          · exact hmono.destroyLink (hidle hget) lid
  | hangup conn =>
      simp only [step, hangup]
      split
      · exact hmono
      · exact hmono.hangup _ _
  | breakOff conn =>
      simp only [step, breakOff]
      split
      · exact hmono
      · exact hmono.breakOff _
  | asyncLock conn lockString =>
      simp only [step, asyncLock]
      split <;> exact hmono
  | asyncUnlock conn =>
      simp only [step, asyncUnlock]
      split <;> exact hmono
  | openSession resource answered => exact hmono
  | findSession id => exact hmono
  | bindAsync conn => exact hmono
  | closeAsync conn => exact hmono
  | closeSync conn => exact hmono
  | forget id => exact hmono

/-- The tables are well formed, the locks represent grants, and `n` more steps
can be taken before a count wraps. -/
structure Sound (c : DaemonConfig) (n : ℕ) (d : Daemon) (s : Outstanding) : Prop where
  sessions : d.sessions.WellFormed c.maxSessions
  links : d.links.WellFormed c.maxLinks n
  locks : d.locks.Represents n s

/-- Every event keeps the daemon sound, with one less of the budget. -/
theorem Sound.step (h : Sound c (n + 1) d s) (e : Event) :
    Sound c n (Daemon.step c d e).1 (final specStep s (d.lockOps e)) where
  sessions := sessions_step h.sessions e
  links := links_step h.links e
  locks := locks_step c d e ▸ represents_lockOps h.locks e

/-! ## Locks and those who hold them -/

/-- A session with its synchronous channel, or a link in the table, on its own
resource. -/
def Tenant (d : Daemon) (resource : String) (id : HolderId) : Prop :=
  (∃ conn session entry, d.sessions.syncs.get? conn = some session ∧
      d.sessions.registry.get? session = some entry ∧ entry.resource = resource ∧
        id = hislipId session) ∨
    ∃ lid, d.links.table.get? lid = some resource ∧ id = vxi11Id lid

/-- Locks are held by tenants, those of links exclusively and once. -/
structure Kept (d : Daemon) (s : Outstanding) : Prop where
  links : d.links.Kept
  tenant : ∀ resource, ∀ g ∈ s resource, d.Tenant resource g.holder
  exclusive : ∀ resource lid name, ⟨vxi11Id lid, name⟩ ∈ s resource → name = none
  single : ∀ resource lid, held (s resource) (vxi11Id lid) ≤ 1
  pending : ∀ conn core p, d.links.conns.get? conn = some core → core.pending = some p →
    held (s p.resource) (vxi11Id p.lid) = 0

/-- A step that keeps to its own: an asynchronous channel locks while its
session is there, and calls name links of their own connection, which does not
break with links on it. -/
def Own (d : Daemon) : Event → Prop
  | .asyncLock conn _ => ∀ entry ∈ d.sessions.asyncs.get? conn,
      d.sessions.syncs.get? entry.opener = some entry.id
  | .deviceLock conn lid => ∀ core ∈ d.links.conns.get? conn,
      d.links.table.get? lid ≠ none → lid ∈ core.owned
  | .destroyLink conn lid => ∀ core ∈ d.links.conns.get? conn,
      d.links.table.get? lid ≠ none → lid ∈ core.owned
  | .breakOff conn => ∀ core ∈ d.links.conns.get? conn, core.owned = []
  | _ => True

instance (d : Daemon) (e : Event) : Decidable (d.Own e) := by
  cases e <;> simp only [Own] <;> infer_instance

/-- Who holds no more grants holds no more of any kind. -/
theorem held_mono {s t : Multiset (Grant HolderId String)} (h : s ≤ t) (id : HolderId) :
    held s id ≤ held t id := Multiset.countP_le_of_le _ h

/-- A step that takes no lock. -/
theorem Kept.next {d' : Daemon} {s' : Outstanding} (h : Kept d s) (hlinks : d'.links.Kept)
    (hle : ∀ r, s' r ≤ s r)
    (htenant : ∀ r, ∀ g ∈ s' r, d.Tenant r g.holder → d'.Tenant r g.holder)
    (hpending : ∀ conn core p, d'.links.conns.get? conn = some core → core.pending = some p →
      held (s p.resource) (vxi11Id p.lid) = 0) : Kept d' s' where
  links := hlinks
  tenant r g hg := htenant r g hg (h.tenant r g (Multiset.mem_of_le (hle r) hg))
  exclusive r lid name hg := h.exclusive r lid name (Multiset.mem_of_le (hle r) hg)
  single r lid := (held_mono (hle r) _).trans (h.single r lid)
  pending conn core p hget hp :=
    Nat.le_zero.mp ((held_mono (hle _) _).trans (hpending conn core p hget hp).le)

/-- A step that gives a grant to a tenant. -/
theorem Kept.grant {d' : Daemon} (h : Kept d s) (hlinks : d'.links.Kept) {resource : String}
    {g : Grant HolderId String} (htable : d'.links.table = d.links.table)
    (hsessions : d'.sessions = d.sessions) (htenant : d.Tenant resource g.holder)
    (hlink : ∀ lid, g.holder = vxi11Id lid → g.name = none ∧ held (s resource) (vxi11Id lid) = 0)
    (hpending : ∀ conn core p, d'.links.conns.get? conn = some core → core.pending = some p →
      held (s p.resource) (vxi11Id p.lid) = 0 ∧ g.holder ≠ vxi11Id p.lid) :
    Kept d' (Function.update s resource (g ::ₘ s resource)) := by
  have hsame (r : String) (id : HolderId) : d'.Tenant r id ↔ d.Tenant r id := by
    rw [Tenant, Tenant, htable, hsessions]
  have hmem {r : String} {g' : Grant HolderId String}
      (hg : g' ∈ Function.update s resource (g ::ₘ s resource) r) : g' ∈ s r ∨ r = resource ∧ g' = g := by
    by_cases hr : r = resource
    · subst hr
      rw [Function.update_self, Multiset.mem_cons] at hg
      exact hg.symm.imp_right fun heq => ⟨rfl, heq⟩
    · rw [Function.update_of_ne hr] at hg
      exact .inl hg
  have hheld (r : String) (id : HolderId) :
      held (Function.update s resource (g ::ₘ s resource) r) id =
        held (s r) id + if r = resource ∧ g.holder = id then 1 else 0 := by
    by_cases hr : r = resource
    · subst hr
      simp [held_cons]
    · simp [hr]
  refine ⟨hlinks, fun r g' hg => ?_, fun r lid name hg => ?_, fun r lid => ?_,
    fun conn core p hget hp => ?_⟩
  · rw [hsame]
    rcases hmem hg with hold | ⟨rfl, rfl⟩
    · exact h.tenant r g' hold
    · exact htenant
  · rcases hmem hg with hold | ⟨-, rfl⟩
    · exact h.exclusive r lid name hold
    · exact (hlink lid rfl).1
  · rw [hheld]
    have hold := h.single r lid
    split
    · next heq => rw [heq.1, (hlink lid heq.2).2]
    · exact hold
  · obtain ⟨hzero, hne⟩ := hpending conn core p hget hp
    rw [hheld, hzero, if_neg fun heq => hne heq.2]

/-- A tenant stays one while its session or link does. -/
theorem Tenant.mono {d' : Daemon} {r : String} {id : HolderId} (h : d.Tenant r id)
    (hsession : ∀ conn session entry, d.sessions.syncs.get? conn = some session →
      d.sessions.registry.get? session = some entry → id = hislipId session →
        d'.sessions.syncs.get? conn = some session ∧ d'.sessions.registry.get? session = some entry)
    (hlink : ∀ lid, d.links.table.get? lid = some r → id = vxi11Id lid →
      d'.links.table.get? lid = some r) : d'.Tenant r id := by
  cases h with
  | inl h =>
      obtain ⟨conn, session, entry, hsync, hentry, hr, hid⟩ := h
      obtain ⟨hsync', hentry'⟩ := hsession conn session entry hsync hentry hid
      exact .inl ⟨conn, session, entry, hsync', hentry', hr, hid⟩
  | inr h =>
      obtain ⟨lid, hlid, hid⟩ := h
      exact .inr ⟨lid, hlink lid hlid hid, hid⟩

/-- The id of a link is a tenant just where the link is. -/
theorem tenant_vxi11_iff {r : String} {lid : Int32} :
    d.Tenant r (vxi11Id lid) ↔ d.links.table.get? lid = some r := by
  constructor
  · intro h
    cases h with
    | inl h =>
        obtain ⟨_, session, _, _, _, _, hid⟩ := h
        exact absurd hid.symm (hislipId_ne_vxi11Id session lid)
    | inr h =>
        obtain ⟨lid', hlid, hid⟩ := h
        rwa [vxi11Id_inj.mp hid]
  · exact fun h => .inr ⟨lid, h, rfl⟩

/-- A link that is not there, or is there on another resource, holds no lock. -/
theorem Kept.held_eq_zero (h : Kept d s) {r : String} {lid : Int32}
    (hlid : d.links.table.get? lid ≠ some r) : held (s r) (vxi11Id lid) = 0 := by
  by_contra hne
  obtain ⟨g, hg, hid⟩ := held_pos_iff.mp (Nat.pos_of_ne_zero hne)
  exact hlid (tenant_vxi11_iff.mp (hid ▸ h.tenant r g hg))

/-- A step of the session registry. -/
theorem Kept.sessions (h : Kept d s) {sessions : Sessions}
    (hsession : ∀ conn session entry, d.sessions.syncs.get? conn = some session →
      d.sessions.registry.get? session = some entry →
        sessions.syncs.get? conn = some session ∧ sessions.registry.get? session = some entry) :
    Kept { d with sessions } s :=
  h.next h.links (fun _ => le_rfl)
    (fun _ _ _ ht => ht.mono (fun conn session entry hsync hentry _ =>
      hsession conn session entry hsync hentry) fun _ hlid _ => hlid) h.pending

/-- A new session takes nobody's grants. -/
theorem Kept.openSession (h : Kept d s) (hs : Sound c n d s) (resource : String) (answered : Bool) :
    Kept (Daemon.step c d (.openSession resource answered)).1 s := by
  show Kept { d with sessions := (d.sessions.openSession c.maxSessions resource answered).1 } s
  refine h.sessions fun conn session entry hsync hentry => ?_
  simp only [Sessions.openSession]
  split
  · exact ⟨hsync, hentry⟩
  · split
    · exact ⟨hsync, hentry⟩
    · next id hfree =>
        -- the new session has an id and a connection of its own
        have hnone : d.sessions.registry.get? id = none := by simpa using not_taken_of_freeId hfree
        obtain ⟨-, entry', hentry', hopener⟩ := hs.sessions.entry_of_sync conn session hsync
        have hlt := hs.sessions.opener_lt session entry' hentry'
        have hid : session ≠ id := by
          rintro rfl
          rw [hnone] at hentry
          cases hentry
        have hconn : conn ≠ d.sessions.nextConn := by omega
        refine ⟨?_, by rw [Dict.get?_set, if_neg hid, hentry]⟩
        cases answered with
        | false => exact hsync
        | true => rw [if_pos rfl, Dict.get?_set, if_neg hconn, hsync]

/-- A session is forgotten where it never got a synchronous channel, so it holds
nothing. -/
theorem Kept.forget (h : Kept d s) (hs : Sound c n d s) (id : UInt16) :
    Kept (Daemon.step c d (.forget id)).1 s := by
  refine h.sessions fun conn session entry hsync hentry => ?_
  obtain ⟨hnot, -⟩ := hs.sessions.entry_of_sync conn session hsync
  rw [Sessions.forget]
  split
  · next hmem =>
      have hne : session ≠ id := fun heq => hnot (heq ▸ hmem)
      exact ⟨hsync, by rw [Dict.get?_erase, if_neg hne, hentry]⟩
  · exact ⟨hsync, hentry⟩

/-- A session that goes gives back what it holds. -/
theorem Kept.closeSync (h : Kept d s) (conn : ℕ) :
    Kept (Daemon.step c d (.closeSync conn)).1 (final specStep s (d.lockOps (.closeSync conn))) := by
  simp only [Daemon.step, Daemon.closeSync, lockOps, Sessions.closeSync]
  cases hsync : d.sessions.syncs.get? conn with
  | none => exact h
  | some id =>
      refine h.next h.links (fun r => Multiset.filter_le _ _) (fun r g hg ht => ?_) h.pending
      refine ht.mono (fun conn' session entry hsync' hentry hid => ⟨?_, hentry⟩) fun _ hlid _ => hlid
      have hne : conn' ≠ conn := by
        rintro rfl
        rw [hsync, Option.some.injEq] at hsync'
        exact (Multiset.mem_filter.mp hg).2 (hsync' ▸ hid)
      rw [Dict.get?_erase, if_neg hne, hsync']

/-- What is taken away is taken from everybody who held it. -/
theorem specStep_le_of_release (r r' : String) (id : HolderId) :
    (specStep s (.release r id)).1 r' ≤ s r' := by
  obtain ⟨_, _, hop, -⟩ | ⟨hle, -⟩ := next_cases s (LockOp.release r id).toOp r'
  · cases hop
  · exact hle

/-- Who is a tenant does not depend on the locks. -/
theorem Kept.locks (h : Kept d s) (locks : LockRegistry) : Kept { d with locks } s :=
  h.next h.links (fun _ => le_rfl)
    (fun _ _ _ ht => ht.mono (fun _ _ _ hsync hentry _ => ⟨hsync, hentry⟩) fun _ hlid _ => hlid) h.pending

/-- Giving back leaves fewer grants to account for. -/
theorem Kept.release (h : Kept d s) {locks : LockRegistry} (r : String) (id : HolderId) :
    Kept { d with locks } (specStep s (.release r id)).1 :=
  h.next h.links (fun r' => specStep_le_of_release r r' id)
    (fun _ _ _ ht => ht.mono (fun _ _ _ hsync hentry _ => ⟨hsync, hentry⟩) fun _ hlid _ => hlid) h.pending

/-- So an unlock keeps every grant with a tenant. -/
theorem Kept.asyncUnlock (h : Kept d s) (conn : ℕ) :
    Kept (Daemon.step c d (.asyncUnlock conn)).1 (final specStep s (d.lockOps (.asyncUnlock conn))) := by
  simp only [Daemon.step, Daemon.asyncUnlock, lockOps]
  cases d.sessions.asyncs.get? conn with
  | none => exact h
  | some entry => exact h.release _ _

/-- The same for a link. -/
theorem Kept.deviceUnlock (h : Kept d s) (conn : ℕ) (lid : Int32) :
    Kept (Daemon.step c d (.deviceUnlock conn lid)).1
      (final specStep s (d.lockOps (.deviceUnlock conn lid))) := by
  simp only [Daemon.step, Daemon.deviceUnlock, lockOps]
  cases d.links.idle conn with
  | none => exact h
  | some core =>
      simp only [Option.bind_some]
      cases d.links.table.get? lid with
      | none => exact h
      | some resource =>
          simp only [Option.elim_some]
          split
          · exact h.release _ _
          · exact h

/-- A session asks for its own resource. -/
theorem Kept.asyncLock (h : Kept d s) (hs : Sound c n d s) {conn : ℕ} {lockString : String}
    (hown : d.Own (.asyncLock conn lockString)) :
    Kept (Daemon.step c d (.asyncLock conn lockString)).1
      (final specStep s (d.lockOps (.asyncLock conn lockString))) := by
  simp only [Daemon.step, Daemon.asyncLock, lockOps]
  cases hget : d.sessions.asyncs.get? conn with
  | none => exact h
  | some entry =>
      have hsync := hown entry hget
      -- the registry has no other session of this opener
      obtain ⟨-, entry', hentry, hopener⟩ := hs.sessions.entry_of_sync _ _ hsync
      obtain rfl := (hs.sessions.known_async conn entry hget).2 _ entry' hentry hopener
      have htenant : d.Tenant entry'.resource (hislipId entry'.id) :=
        .inl ⟨_, _, entry', hsync, hentry, rfl, rfl⟩
      show Kept { d with locks := _ }
        (specStep s (.request entry'.resource (hislipId entry'.id) lockString)).1
      rw [specStep, LockOp.toOp]
      by_cases hadmits : Admits (s entry'.resource) ⟨hislipId entry'.id, lockName lockString⟩
      · rw [next_request_of_admits hadmits]
        have hgrant := h.grant (g := ⟨hislipId entry'.id, lockName lockString⟩) h.links rfl rfl htenant
          (fun lid hid => absurd hid (hislipId_ne_vxi11Id _ _))
          fun conn core p hget hp => ⟨h.pending conn core p hget hp, hislipId_ne_vxi11Id _ _⟩
        exact hgrant.locks _
      · rw [next_request_of_not_admits hadmits]
        exact h.locks _

/-- A step that leaves the links of the table where they are. -/
theorem Kept.conns (h : Kept d s) {links : Links} (hlinks : links.Kept)
    (htable : ∀ lid r, d.links.table.get? lid = some r → links.table.get? lid = some r)
    (hpending : ∀ conn core p, links.conns.get? conn = some core → core.pending = some p →
      held (s p.resource) (vxi11Id p.lid) = 0) : Kept { d with links } s :=
  h.next hlinks (fun _ => le_rfl)
    (fun r _ _ ht => ht.mono (fun _ _ _ hsync hentry _ => ⟨hsync, hentry⟩)
      fun lid hlid _ => htable lid r hlid) hpending

/-- A new connection has no links yet. -/
theorem Kept.accept (h : Kept d s) (hs : Sound c n d s) : Kept (Daemon.step c d .accept).1 s := by
  refine h.conns (h.links.accept hs.links) (fun _ _ hlid => hlid) fun conn core p hget hp => ?_
  rcases Links.get?_conns_set hget with ⟨-, rfl⟩ | ⟨-, hget⟩
  · cases hp
  · exact h.pending conn core p hget hp

/-- A new link takes an id that is not in use. -/
theorem Kept.createLink (h : Kept d s) (hs : Sound c (n + 1) d s) (conn : ℕ) (resource : String)
    (lockDevice : Bool) : Kept (Daemon.step c d (.createLink conn resource lockDevice)).1 s := by
  simp only [Daemon.step, Daemon.createLink]
  split
  · exact h
  next core hidle =>
    have hconn := (Links.idle_eq_some_iff.mp hidle).1
    have hfresh := hs.links.nextLid_fresh.1
    refine h.conns (h.links.createLink hs.links hconn resource lockDevice) (fun lid r hlid => ?_)
      fun conn' core' p hget hp => ?_
    · rw [Links.createLink]
      split
      · exact hlid
      · have hne : lid ≠ d.links.nextLid := by
          rintro rfl
          rw [hfresh] at hlid
          cases hlid
        rw [Dict.get?_set, if_neg hne, hlid]
    · rw [Links.createLink] at hget
      split at hget
      · exact h.pending conn' core' p hget hp
      · rcases Links.get?_conns_set hget with ⟨-, rfl⟩ | ⟨-, hget⟩
        · cases lockDevice with
          | false => cases hp
          | true =>
              cases hp
              exact h.held_eq_zero (by simp [hfresh])
        · exact h.pending conn' core' p hget hp

/-- A link asks for its own resource. -/
theorem Kept.deviceLock (h : Kept d s) (hs : Sound c n d s) {conn : ℕ} {lid : Int32}
    (hown : d.Own (.deviceLock conn lid)) : Kept (Daemon.step c d (.deviceLock conn lid)).1 s := by
  simp only [Daemon.step, Daemon.deviceLock]
  split
  · exact h
  next core hidle =>
    have hconn := (Links.idle_eq_some_iff.mp hidle).1
    split
    · exact h
    next resource hlid =>
      split
      · exact h
      next hholds =>
        have hmem : lid ∈ core.owned := hown core hconn (by simp [hlid])
        refine h.conns (h.links.await hconn hmem hlid) (fun _ _ hlid => hlid)
          fun conn' core' p hget hp => ?_
        rcases Links.get?_conns_set hget with ⟨-, rfl⟩ | ⟨-, hget⟩
        · cases hp
          exact Nat.eq_zero_of_not_pos (mt hs.locks.holds_iff.mpr hholds)
        · exact h.pending conn' core' p hget hp

/-- Giving up takes nothing. -/
theorem Kept.giveUp (h : Kept d s) (hs : Sound c n d s) (conn : ℕ) (aborted : Bool) :
    Kept (Daemon.step c d (.giveUp conn aborted)).1 s := by
  simp only [Daemon.step, Daemon.giveUp]
  split
  · exact h
  next core hconn =>
    split
    · exact h
    next p hp =>
      have hlid := (h.links.pending conn core p hconn hp).2
      have hzero := h.pending conn core p hconn hp
      refine h.next (h.links.refused hs.links hconn hp) (fun _ => le_rfl) (fun r g hg ht => ?_)
        fun conn' core' p' hget hp' => ?_
      · refine ht.mono (fun _ _ _ hsync hentry _ => ⟨hsync, hentry⟩) fun lid hget hid => ?_
        rw [Links.refused]
        cases p.wait with
        | lock => exact hget
        | create =>
            -- the link that goes holds nothing
            have hne : lid ≠ p.lid := by
              rintro rfl
              rw [hlid, Option.some.injEq] at hget
              have := held_pos_iff.mpr ⟨g, hg, hid⟩
              rw [← hget, hzero] at this
              omega
            rw [Dict.get?_erase, if_neg hne, hget]
      · have hset : ∃ core₁, core₁.pending = none ∧
            (d.links.refused conn core p).conns = d.links.conns.set conn core₁ := by
          rw [Links.refused]
          cases p.wait with
          | lock => exact ⟨_, rfl, rfl⟩
          | create => exact ⟨_, rfl, rfl⟩
        obtain ⟨core₁, hnone, hset⟩ := hset
        rw [hset] at hget
        rcases Links.get?_conns_set hget with ⟨-, rfl⟩ | ⟨-, hget⟩
        · rw [hnone] at hp'
          cases hp'
        · exact h.pending conn' core' p' hget hp'

/-- A waiting call asks for its link's resource. -/
theorem Kept.attempt (h : Kept d s) (hs : Sound c (n + 1) d s) (conn : ℕ) :
    Kept (Daemon.step c d (.attempt conn)).1 (final specStep s (d.lockOps (.attempt conn))) := by
  simp only [Daemon.step, Daemon.attempt, lockOps]
  cases hconn : d.links.conns.get? conn with
  | none => exact h
  | some core =>
      simp only [Option.bind_some]
      cases hp : core.pending with
      | none => exact h
      | some p =>
          obtain ⟨hmem, hlid⟩ := h.links.pending conn core p hconn hp
          have hrefuses : d.locks.refuses p.resource (vxi11Id p.lid) "" = true ↔ _ :=
            hs.locks.refuses_iff
          rw [LockRegistry.refuses] at hrefuses
          show Kept _ (specStep s (.request p.resource (vxi11Id p.lid) "")).1
          rw [specStep, LockOp.toOp]
          dsimp only
          by_cases hadmits : Admits (s p.resource) ⟨vxi11Id p.lid, lockName ""⟩
          · rw [next_request_of_admits hadmits, if_neg (mt hrefuses.mp (not_not.mpr hadmits))]
            refine (h.locks _).grant (g := ⟨vxi11Id p.lid, lockName ""⟩) (h.links.granted hconn) rfl rfl
              (tenant_vxi11_iff.mpr hlid) (fun lid hid => ?_) fun conn' core' p' hget hp' => ?_
            · obtain rfl := vxi11Id_inj.mp hid
              exact ⟨rfl, h.pending conn core p hconn hp⟩
            · rcases Links.get?_conns_set hget with ⟨-, rfl⟩ | ⟨hne, hget⟩
              · cases hp'
              · refine ⟨h.pending conn' core' p' hget hp', fun hid => hne ?_⟩
                have hmem' := (h.links.pending conn' core' p' hget hp').1
                rw [← vxi11Id_inj.mp hid] at hmem'
                exact hs.links.owner_unique conn' conn core' core p.lid hget hconn hmem' hmem
          · rw [next_request_of_not_admits hadmits, if_pos (hrefuses.mpr hadmits)]
            exact h.locks _

/-- A link goes, with its locks. -/
theorem Kept.destroyLink (h : Kept d s) (hs : Sound c n d s) {conn : ℕ} {lid : Int32}
    (hown : d.Own (.destroyLink conn lid)) :
    Kept (Daemon.step c d (.destroyLink conn lid)).1
      (final specStep s (d.lockOps (.destroyLink conn lid))) := by
  simp only [Daemon.step, Daemon.destroyLink, lockOps]
  cases hidle : d.links.idle conn with
  | none => exact h
  | some core =>
      have hconn := (Links.idle_eq_some_iff.mp hidle).1
      simp only [Option.bind_some]
      cases hlid : d.links.table.get? lid with
      | none => exact h
      | some resource =>
          have hmem : lid ∈ core.owned := hown core hconn (by simp [hlid])
          refine h.next (h.links.destroyLink hs.links hidle hmem) (fun r => Multiset.filter_le _ _)
            (fun r g hg ht => ?_) fun conn' core' p hget hp => ?_
          · refine ht.mono (fun _ _ _ hsync hentry _ => ⟨hsync, hentry⟩) fun lid' hget hid => ?_
            have hne : lid' ≠ lid := by
              rintro rfl
              exact (Multiset.mem_filter.mp hg).2 hid
            show (d.links.table.erase lid).get? lid' = some r
            rw [Dict.get?_erase, if_neg hne, hget]
          · rcases Links.get?_conns_set hget with ⟨-, rfl⟩ | ⟨-, hget⟩
            · rw [(Links.idle_eq_some_iff.mp hidle).2] at hp
              cases hp
            · exact h.pending conn' core' p hget hp

/-- All that the holders had is gone from the ledger, and nothing else. -/
theorem final_specStep_releaseAll (s : Outstanding) (ids : List HolderId) :
    final specStep s (ids.map .releaseAll) = fun r => (s r).filter (·.holder ∉ ids) := by
  induction ids generalizing s with
  | nil => simp
  | cons id ids ih =>
      rw [List.map_cons, final_cons, ih]
      funext r
      simp only [specStep, LockOp.toOp, next, Multiset.filter_filter, List.mem_cons, not_or, and_comm]

/-- A connection that hangs up gives back what its links hold. -/
theorem Kept.hangup (h : Kept d s) (hs : Sound c n d s) (conn : ℕ) :
    Kept (Daemon.step c d (.hangup conn)).1 (final specStep s (d.lockOps (.hangup conn))) := by
  simp only [Daemon.step, Daemon.hangup, lockOps]
  cases hidle : d.links.idle conn with
  | none => exact h
  | some core =>
      have hconn := (Links.idle_eq_some_iff.mp hidle).1
      have hops : (d.links.hangup conn core).2.map (fun lid => LockOp.releaseAll (vxi11Id lid)) =
          (core.owned.map vxi11Id).map .releaseAll := by
        rw [h.links.hangup_snd hconn, List.map_map]
        rfl
      simp only [Option.elim_some, hops, final_specStep_releaseAll]
      refine h.next (h.links.hangup hs.links hconn) (fun r => Multiset.filter_le _ _)
        (fun r g hg ht => ?_) fun conn' core' p hget hp => ?_
      · refine ht.mono (fun _ _ _ hsync hentry _ => ⟨hsync, hentry⟩) fun lid hget hid => ?_
        have hnot : lid ∉ core.owned := fun hmem =>
          (Multiset.mem_filter.mp hg).2 (hid ▸ List.mem_map_of_mem hmem)
        show (Links.eraseAll d.links.table core.owned).get? lid = some r
        rw [Links.get?_eraseAll, if_neg hnot, hget]
      · have hget : (d.links.conns.erase conn).get? conn' = some core' := hget
        rw [Dict.get?_erase] at hget
        split at hget
        · cases hget
        · exact h.pending conn' core' p hget hp

/-- One that breaks off gives nothing back, and had nothing to. -/
theorem Kept.breakOff (h : Kept d s) {conn : ℕ} (hown : d.Own (.breakOff conn)) :
    Kept (Daemon.step c d (.breakOff conn)).1 s := by
  simp only [Daemon.step, Daemon.breakOff]
  split
  · exact h
  next core hidle =>
    have hconn := (Links.idle_eq_some_iff.mp hidle).1
    refine h.conns (h.links.breakOff hconn (hown core hconn)) (fun _ _ hlid => hlid)
      fun conn' core' p hget hp => ?_
    have hget : (d.links.conns.erase conn).get? conn' = some core' := hget
    rw [Dict.get?_erase] at hget
    split at hget
    · cases hget
    · exact h.pending conn' core' p hget hp

/-- What a step that keeps to its own keeps. -/
theorem Kept.step (h : Kept d s) (hs : Sound c (n + 1) d s) {e : Event} (hown : d.Own e) :
    Kept (Daemon.step c d e).1 (final specStep s (d.lockOps e)) := by
  cases e with
  | openSession resource answered => exact h.openSession hs resource answered
  | findSession id =>
      refine h.sessions fun conn session entry hsync hentry => ?_
      rw [Sessions.findSession]
      split <;> exact ⟨hsync, hentry⟩
  | bindAsync conn =>
      show Kept { d with sessions := (d.sessions.bindAsync conn).1 } s
      refine h.sessions fun conn' session entry hsync hentry => ?_
      simp only [Sessions.bindAsync]
      split
      · exact ⟨hsync, hentry⟩
      · split <;> exact ⟨hsync, hentry⟩
  | asyncLock conn lockString => exact h.asyncLock hs hown
  | asyncUnlock conn => exact h.asyncUnlock conn
  | closeAsync conn => exact h.sessions fun _ _ _ hsync hentry => ⟨hsync, hentry⟩
  | closeSync conn => exact h.closeSync conn
  | forget id => exact h.forget hs id
  | accept => exact h.accept hs
  | createLink conn resource lockDevice => exact h.createLink hs conn resource lockDevice
  | deviceLock conn lid => exact h.deviceLock hs hown
  | attempt conn => exact h.attempt hs conn
  | giveUp conn aborted => exact h.giveUp hs conn aborted
  | deviceUnlock conn lid => exact h.deviceUnlock conn lid
  | destroyLink conn lid => exact h.destroyLink hs hown
  | hangup conn => exact h.hangup hs conn
  | breakOff conn => exact h.breakOff hown

end

end Daemon

/-! ## Every run -/

section

variable (c : DaemonConfig) (events : List Event)

/-- The daemon after a run from the start. -/
def daemonAfter : Daemon := final (Daemon.step c) {} events

/-- Every step of the run keeps to its own. -/
def KeepsToOwn : Prop := Guarded (Daemon.step c) Daemon.Own {} events

instance : Decidable (KeepsToOwn c events) := inferInstanceAs (Decidable (Guarded _ _ _ _))

/-- A new daemon is sound. -/
theorem Daemon.Sound.new {n : ℕ} (h : n < 2 ^ 32) : Sound c n {} fun _ => 0 where
  sessions := {
    bound := Nat.zero_le _
    entry_id _ _ h := by cases h
    entry_of_sync _ _ h := by cases h
    forgetting_nodup := List.nodup_nil
    entry_of_forgetting _ h := by cases h
    opener_inj _ _ _ _ h := by cases h
    opener_lt _ _ h := by cases h
    known_found _ _ h := by cases h
    known_async _ _ h := by cases h
    bound_of_async _ _ h := by cases h
    async_inj _ _ _ _ h := by cases h }
  links := {
    bound := Nat.zero_le _
    conn_lt _ _ h := by cases h
    owner_unique _ _ _ _ _ h := by cases h
    issued := ⟨0, rfl, by simpa using h, fun lid hlid => by
      cases hlid with
      | inl h => exact absurd rfl h
      | inr h =>
          obtain ⟨_, _, h, -⟩ := h
          cases h⟩ }
  locks := .new h

/-- And nothing is held. -/
theorem Daemon.Kept.new : Kept {} fun _ => 0 where
  links := {
    table_iff _ := ⟨fun h => absurd rfl h, fun ⟨_, _, h, _⟩ => by cases h⟩
    pending _ _ _ h := by cases h }
  tenant _ _ h := absurd h (Multiset.notMem_zero _)
  exclusive _ _ _ h := absurd h (Multiset.notMem_zero _)
  single _ _ := Nat.zero_le _
  pending _ _ _ h := by cases h

variable {c events}

/-- So is every daemon after fewer than `2 ^ 32` events. -/
theorem sound_after (h : events.length < 2 ^ 32) : ∃ s, Daemon.Sound c 0 (daemonAfter c events) s :=
  final_of_budget (P := fun n d => ∃ s, Daemon.Sound c n d s)
    (fun _ _ e ⟨_, hs⟩ => ⟨_, hs.step e⟩) events 0 ⟨_, .new c h⟩

/-- And where every event keeps to its own, every grant has a tenant. -/
theorem kept_after (h : events.length < 2 ^ 32) (hown : KeepsToOwn c events) :
    ∃ s, Daemon.Sound c 0 (daemonAfter c events) s ∧ Daemon.Kept (daemonAfter c events) s :=
  final_of_guarded_budget (P := fun n d => ∃ s, Daemon.Sound c n d s ∧ Daemon.Kept d s)
    (fun _ _ e ⟨_, hs, hk⟩ hown => ⟨_, hs.step e, hk.step hs hown⟩) events 0
    ⟨_, .new c h, .new⟩ hown

/-- **Ids, owners and limits**, whatever clients do and in whatever order the
tasks step: the tables stay within their limits, a synchronous channel has a
session of its own, a session one asynchronous channel at most, a link one
connection at most, and session ids do not run out below 32768 sessions.  Link
ids are of 32 bits, and so are depths: a run has fewer than `2 ^ 32` steps. -/
theorem daemon_tables_are_sound (c : DaemonConfig) (events : List Event)
    (h : events.length < 2 ^ 32) :
    (daemonAfter c events).sessions.registry.items.length ≤ c.maxSessions ∧
      (daemonAfter c events).links.table.items.length ≤ c.maxLinks ∧
      (∀ conn session, (daemonAfter c events).sessions.syncs.get? conn = some session →
        (∃ entry, (daemonAfter c events).sessions.registry.get? session = some entry ∧
          entry.opener = conn) ∧
        ∀ conn', (daemonAfter c events).sessions.syncs.get? conn' = some session → conn' = conn) ∧
      (∀ conn conn' entry entry', (daemonAfter c events).sessions.asyncs.get? conn = some entry →
        (daemonAfter c events).sessions.asyncs.get? conn' = some entry' →
        entry.opener = entry'.opener → conn = conn') ∧
      (∀ conn conn' core core' lid, (daemonAfter c events).links.conns.get? conn = some core →
        (daemonAfter c events).links.conns.get? conn' = some core' →
        lid ∈ core.owned → lid ∈ core'.owned → conn = conn') ∧
      (c.maxSessions ≤ 32768 → ∀ resource answered,
        ((daemonAfter c events).sessions.openSession c.maxSessions resource answered).2 ≠ .outOfIds) := by
  obtain ⟨s, hs⟩ := sound_after (c := c) h
  refine ⟨hs.sessions.bound, hs.links.bound, fun conn session hsync => ⟨?_, fun conn' hsync' => ?_⟩,
    hs.sessions.async_inj, hs.links.owner_unique, fun hmax resource answered => ?_⟩
  · exact (hs.sessions.entry_of_sync conn session hsync).2
  · exact hs.sessions.sync_inj hsync' hsync
  · rw [Sessions.openSession]
    split
    · exact OpenResult.noConfusion
    next hroom =>
      obtain ⟨id, hid⟩ := Sessions.exists_freeId hmax (Nat.lt_of_not_le hroom)
      rw [hid]
      exact OpenResult.noConfusion

/-- Two sessions and two links come and go over one instrument. -/
def visitors : List Event :=
  [.openSession "gpib23" true, .findSession 0, .bindAsync 1, .openSession "gpib23" true, .accept,
    .createLink 0 "gpib23" true, .attempt 0, .asyncLock 1 "k1", .accept, .createLink 1 "gpib5" false,
    .deviceLock 1 2, .attempt 1]

theorem daemon_tables_sound_visitors :
    (daemonAfter ⟨2, 2⟩ visitors).links.table.items.length ≤ 2 :=
  (daemon_tables_are_sound ⟨2, 2⟩ visitors (by decide)).2.1

/-- **No lock outlives its owner**: in a run whose steps keep to their own,
whoever holds a lock is a session with its synchronous channel or a link of a
connection that is there, on its own resource, and when all of them are gone no
lock is left.  The run is again one of fewer than `2 ^ 32` steps. -/
theorem every_lock_has_a_live_owner (c : DaemonConfig) (events : List Event)
    (h : events.length < 2 ^ 32) (hown : KeepsToOwn c events) :
    (∀ resource id, (daemonAfter c events).locks.holds resource id = true →
      (∃ conn session entry, (daemonAfter c events).sessions.syncs.get? conn = some session ∧
        (daemonAfter c events).sessions.registry.get? session = some entry ∧
          entry.resource = resource ∧ id = hislipId session) ∨
      ∃ conn core lid, (daemonAfter c events).links.conns.get? conn = some core ∧ lid ∈ core.owned ∧
        (daemonAfter c events).links.table.get? lid = some resource ∧ id = vxi11Id lid) ∧
      ((∀ conn, (daemonAfter c events).sessions.syncs.get? conn = none) →
        (∀ conn, (daemonAfter c events).links.conns.get? conn = none) →
        ∀ resource, (daemonAfter c events).locks.tables.get? resource = none) := by
  obtain ⟨s, hs, hk⟩ := kept_after h hown
  have howner {resource : String} {id : HolderId} (htenant : (daemonAfter c events).Tenant resource id) :
      (∃ conn session entry, (daemonAfter c events).sessions.syncs.get? conn = some session ∧
        (daemonAfter c events).sessions.registry.get? session = some entry ∧
          entry.resource = resource ∧ id = hislipId session) ∨
      ∃ conn core lid, (daemonAfter c events).links.conns.get? conn = some core ∧ lid ∈ core.owned ∧
        (daemonAfter c events).links.table.get? lid = some resource ∧ id = vxi11Id lid := by
    refine htenant.imp_right fun ⟨lid, hlid, hid⟩ => ?_
    obtain ⟨conn, core, hconn, hmem⟩ := (hk.links.table_iff lid).mp (by simp [hlid])
    exact ⟨conn, core, lid, hconn, hmem, hlid, hid⟩
  constructor
  · intro resource id hholds
    obtain ⟨g, hg, rfl⟩ := held_pos_iff.mp (hs.locks.holds_iff.mp hholds)
    exact howner (hk.tenant resource g hg)
  · intro hsyncs hconns resource
    by_contra hne
    obtain ⟨table, htable⟩ := Option.ne_none_iff_exists'.mp hne
    obtain ⟨g, hg⟩ := Multiset.exists_mem_of_ne_zero (hs.locks.stored resource table htable)
    rcases howner (hk.tenant resource g hg) with ⟨conn, _, _, hsync, -⟩ | ⟨conn, _, _, hconn, -⟩
    · rw [hsyncs conn] at hsync
      cases hsync
    · rw [hconns conn] at hconn
      cases hconn

theorem every_lock_has_owner_visitors :
    (daemonAfter ⟨2, 2⟩ (visitors ++ [.hangup 0, .hangup 1, .closeSync 0, .closeSync 2])).locks.tables.get?
      "gpib23" = none :=
  (every_lock_has_a_live_owner ⟨2, 2⟩ (visitors ++ [.hangup 0, .hangup 1, .closeSync 0, .closeSync 2])
    (by decide) (by decide +kernel)).2
    (fun conn => by
      have hempty : (daemonAfter ⟨2, 2⟩
        (visitors ++ [.hangup 0, .hangup 1, .closeSync 0, .closeSync 2])).sessions.syncs.items = [] := by
        decide +kernel
      rw [Dict.get?, hempty]
      rfl)
    (fun conn => by
      have hempty : (daemonAfter ⟨2, 2⟩
        (visitors ++ [.hangup 0, .hangup 1, .closeSync 0, .closeSync 2])).links.conns.items = [] := by
        decide +kernel
      rw [Dict.get?, hempty]
      rfl) "gpib23"

/-- A connection that breaks inside a record leaves its lock to nobody. -/
example : (daemonAfter ⟨2, 2⟩ [.accept, .createLink 0 "gpib23" true, .attempt 0, .breakOff 0]).locks.holds
    "gpib23" (vxi11Id 1) = true := by decide +kernel

/-- **Links lock alone**: in a run whose steps keep to their own, the lock of a
link keeps every other link and every session off its resource, whatever they
lock it with, and one unlock lets everybody in again, as long as the run has
fewer than `2 ^ 32` steps. -/
theorem links_lock_alone (c : DaemonConfig) (events : List Event) (h : events.length < 2 ^ 32)
    (hown : KeepsToOwn c events) (resource : String) (lid : Int32)
    (hholds : (daemonAfter c events).locks.holds resource (vxi11Id lid) = true) :
    (∀ other, other ≠ vxi11Id lid →
      (daemonAfter c events).locks.hasAccess resource other = false ∧
        ∀ lockString, ((daemonAfter c events).locks.tryRequest resource other lockString).2 = none) ∧
      ∀ other, ((daemonAfter c events).locks.release resource (vxi11Id lid)).1.hasAccess
        resource other = true := by
  obtain ⟨s, hs, hk⟩ := kept_after h hown
  have hcoh := hs.locks.coherent resource
  obtain ⟨⟨holder, name⟩, hg, hid⟩ := held_pos_iff.mp (hs.locks.holds_iff.mp hholds)
  obtain rfl : holder = vxi11Id lid := hid
  obtain rfl := hk.exclusive resource lid name hg
  have hsame {g : Grant HolderId String} (hg' : g ∈ s resource) : g.holder = vxi11Id lid :=
    hcoh.holder_eq hg hg'
  refine ⟨fun other hne => ⟨?_, fun lockString => ?_⟩, fun other => ?_⟩
  · rw [← Bool.not_eq_true, hs.locks.hasAccess_iff]
    intro haccess
    rcases haccess with hzero | ⟨g, hg', hother⟩
    · exact Multiset.notMem_zero _ (hzero ▸ hg)
    · exact hne (hother.symm.trans (hsame hg'))
  · have hnot : ¬Admits (s resource) ⟨other, lockName lockString⟩ := fun hadmits =>
      hne (by simpa [Compatible] using (hadmits _ hg).symm)
    rw [LockRegistry.tryRequest, (hs.locks.table resource).tryRequest_of_not_admits hcoh hnot]
  · -- the one level it has is all there is on the resource
    have hrelease := (hs.locks.release resource (vxi11Id lid)).1
    rw [specStep, LockOp.toOp, next_release_exclusive hg] at hrelease
    have hone : s resource = {⟨vxi11Id lid, none⟩} := by
      rw [← Multiset.cons_erase hg, ← Multiset.cons_zero]
      congr 1
      refine Multiset.eq_zero_of_forall_notMem fun g hg' => ?_
      have hheld := hk.single resource lid
      rw [← Multiset.cons_erase hg, held_cons, if_pos rfl] at hheld
      have := held_pos_iff.mpr ⟨g, hg', hsame (Multiset.mem_of_mem_erase hg')⟩
      omega
    show ((daemonAfter c events).locks.step (.release resource (vxi11Id lid))).1.hasAccess resource other = true
    rw [hrelease.hasAccess_iff]
    exact .inl (by simp [hone])

theorem links_lock_alone_visitors :
    (daemonAfter ⟨2, 2⟩ visitors).locks.hasAccess "gpib23" (hislipId 0) = false :=
  ((links_lock_alone ⟨2, 2⟩ visitors (by decide) (by decide +kernel) "gpib23" 1
    (by decide +kernel)).1 (hislipId 0) (by decide)).1

end

end TestGear.Frontend
