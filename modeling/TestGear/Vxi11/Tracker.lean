import TestGear.Vxi11.Record

/-!
# TestGear.Vxi11.Tracker

The VXI-11 tracker of `vxi11_fault.rs`.  `observeCalls` notes the procedure
of every call on its way to the server, under its xid; `rewriteReplies` looks
a reply's xid up there and applies the armed faults to it.

As with the HiSLIP tracker, a tracker is plain state that each call takes and
returns; nothing here can fail to return.
-/

namespace TestGear.Vxi11

/-- One device_write or device_read call, as the client built it. -/
structure Call where
  proc : UInt32
  ioTimeout : UInt32
  lockTimeout : UInt32
  flags : UInt32
  /-- device_read only; none elsewhere. -/
  termChar : Option UInt8
  /-- device_read only: the size the client asked for. -/
  requestSize : Option UInt32
deriving DecidableEq, Repr

def createLink : UInt32 := 10

def deviceWrite : UInt32 := 11

def deviceRead : UInt32 := 12

/-- One scripted interference with a reply. -/
structure Vxi11Faults where
  /-- Replace the error field of the next reply to this procedure. -/
  errorOnProc : Option UInt32 := none
  /-- The error code to put there. -/
  errorCode : Option UInt32 := none
  /-- Apply it once and then stop, rather than to every reply. -/
  errorOnce : Option Bool := none
  /-- Report this maxRecvSize in the create_link reply. -/
  maxRecvSize : Option UInt32 := none
  /-- Emit a reply carrying an xid nobody is waiting for, immediately before
  the real reply to this procedure. -/
  staleReplyBeforeProc : Option UInt32 := none
deriving DecidableEq, Repr

def Vxi11Faults.isArmed (f : Vxi11Faults) : Bool :=
  f.errorOnProc.isSome || f.maxRecvSize.isSome || f.staleReplyBeforeProc.isSome

/-- The procedure each xid belongs to. -/
abbrev Calls := UInt32 → Option UInt32

structure Tracker where
  calls : Calls := fun _ => none
  faults : Vxi11Faults := {}
  seen : List Call := []

/-! ## Calls -/

/-- `(xid, proc)` for an RPC call record. -/
def parseCall (record : List UInt8) : Option (UInt32 × UInt32) := do
  let xid ← readU32 record 0
  let msgType ← readU32 record 4
  if msgType ≠ 0 then
    none -- not a CALL
  else
    let proc ← readU32 record 20
    some (xid, proc)

/-- The argument block of a device_write / device_read call. -/
def parseArgs (record : List UInt8) (proc : UInt32) : Option Call := do
  let credential ← readU32 record 28
  if credential ≠ 0 then
    none
  else
    let verifier ← readU32 record 36
    if verifier ≠ 0 then
      none
    else
      let args := 40
      if proc = deviceWrite then
        let ioTimeout ← readU32 record (args + 4)
        let lockTimeout ← readU32 record (args + 8)
        let flags ← readU32 record (args + 12)
        some { proc, ioTimeout, lockTimeout, flags, termChar := none, requestSize := none }
      else if proc = deviceRead then
        let requestSize ← readU32 record (args + 4)
        let ioTimeout ← readU32 record (args + 8)
        let lockTimeout ← readU32 record (args + 12)
        let flags ← readU32 record (args + 16)
        let termChar ← readU32 record (args + 20)
        some { proc, ioTimeout, lockTimeout, flags,
               termChar := some termChar.toUInt8, requestSize := some requestSize }
      else
        none

namespace Tracker

def new : Tracker := {}

def set (t : Tracker) (faults : Vxi11Faults) : Tracker := { t with faults }

def get (t : Tracker) : Vxi11Faults := t.faults

def clear (t : Tracker) : Tracker := { t with faults := {}, calls := fun _ => none, seen := [] }

def snapshot (t : Tracker) : List Call := t.seen

/-- What `observe_calls` does with one record. -/
def observeCall (t : Tracker) (record : List UInt8) : Tracker :=
  match parseCall record with
  | none => t
  | some (xid, proc) =>
      { t with
        calls := Function.update t.calls xid (some proc)
        seen := t.seen ++ (parseArgs record proc).toList }

/-- Note the procedure of every call going to the server. -/
def observeCalls (t : Tracker) (buf : List UInt8) : Tracker :=
  match wholeRecords buf with
  | none => t
  | some found => found.foldl (fun t (_, bodyAt, bodyLen) => t.observeCall (slice buf bodyAt bodyLen)) t

end Tracker

/-! ## Replies -/

/-- The state of the rewrite loop: the outgoing buffer, whether anything was
changed, and the tracker's shared fault set. -/
structure Rewriting where
  out : List UInt8
  changed : Bool
  faults : Vxi11Faults

/-- Results begin after: xid, msg_type, reply_stat, verifier flavour, verifier
length (5 words), plus accept_stat. -/
def results : Nat := 4 * 6

/-- The error word of a reply, replaced if its procedure is the target. -/
def applyError (faults : Vxi11Faults) (proc : Option UInt32) (body : List UInt8)
    (st : Rewriting) : List UInt8 × Rewriting :=
  match faults.errorOnProc, faults.errorCode with
  | some target, some code =>
      if proc = some target then
        match writeU32 body results code with
        | some body =>
            (body,
              { st with
                changed := true
                faults :=
                  if faults.errorOnce.getD true then { st.faults with errorOnProc := none }
                  else st.faults })
        | none => (body, st)
      else (body, st)
  | _, _ => (body, st)

/-- The maxRecvSize word of a create_link reply: error, lid, abortPort,
maxRecvSize — the fourth result word. -/
def applySize (faults : Vxi11Faults) (proc : Option UInt32) (body : List UInt8)
    (st : Rewriting) : List UInt8 × Rewriting :=
  match faults.maxRecvSize with
  | some size =>
      if proc = some createLink then
        match writeU32 body (results + 12) size with
        | some body => (body, { st with changed := true })
        | none => (body, st)
      else (body, st)
  | none => (body, st)

/-- The stale record, emitted before the reply to its target. -/
def applyStale (faults : Vxi11Faults) (proc : Option UInt32) (xid : UInt32)
    (st : Rewriting) : Rewriting :=
  match faults.staleReplyBeforeProc with
  | some target =>
      if proc = some target then
        { out := st.out ++ frame (staleBody (xid ^^^ 0x5A5A5A5A))
          changed := true
          faults := { st.faults with staleReplyBeforeProc := none } }
      else st
  | none => st

/-- One round of the rewrite loop.  What is armed is decided by `faults`, the
copy taken when the call began; only the shared set is disarmed. -/
def rewriteReply (calls : Calls) (faults : Vxi11Faults) (buf : List UInt8) (st : Rewriting) :
    Nat × Nat × Nat → Rewriting
  | (markAt, bodyAt, bodyLen) =>
      let body := slice buf bodyAt bodyLen
      match readU32 body 0 with
      | none => { st with out := st.out ++ slice buf markAt (bodyAt + bodyLen - markAt) }
      | some xid =>
          let proc := calls xid
          let (body, st) := applyError faults proc body st
          let (body, st) := applySize faults proc body st
          let st := applyStale faults proc xid st
          -- the original record mark is preserved rather than rebuilt
          { st with out := st.out ++ slice buf markAt (bodyAt - markAt) ++ body }

/-- Rewrite replies coming back, if anything is armed: the replacement for the
buffer, if there is one. -/
def Tracker.rewriteReplies (t : Tracker) (buf : List UInt8) : Option (List UInt8) × Tracker :=
  if !t.faults.isArmed then
    (none, t)
  else
    match wholeRecords buf with
    | none => (none, t)
    | some found =>
        let st := found.foldl (rewriteReply t.calls t.faults buf) ⟨[], false, t.faults⟩
        (if st.changed then some st.out else none, { t with faults := st.faults })

end TestGear.Vxi11
