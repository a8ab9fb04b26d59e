import TestGear.Hislip.Header

/-!
# TestGear.Hislip.Tracker

The HiSLIP tracker of `hislip_fault.rs`: what is armed, what has been seen,
and how many payload bytes each direction still owes.  `observe` records the
headers of a chunk; `rewrite` applies the armed faults to a server chunk.

The mutexes are taken one statement at a time and no two calls are modelled
as overlapping, so a tracker is plain state that each call takes and
returns.  `none` stands for a call that does not return: a header loop that
never ends, or a slice taken out of range.
-/

namespace TestGear.Hislip

/-- Which end of the connection a chunk comes from: the `from` argument of
`observe`. -/
inductive Side where
  | client
  | server
deriving DecidableEq, Repr

/-- One message header seen on the wire. -/
structure Seen where
  side : Side
  header : Header
deriving DecidableEq, Repr

structure HislipFaults where
  /-- Add this to the Message Parameter of the next server DataEND. -/
  skewDataEndId : Option UInt32 := none
  /-- Same, for the next Data message. -/
  skewDataId : Option UInt32 := none
  /-- Corrupt the prologue of the next server message. -/
  breakPrologue : Option Bool := none
  /-- Split a server DataEND into a Data of this many payload bytes followed
  by a DataEND carrying the rest. -/
  splitDataEndAt : Option Nat := none
deriving DecidableEq, Repr

def HislipFaults.armed (f : HislipFaults) : Bool :=
  f.skewDataEndId.isSome || f.skewDataId.isSome || f.breakPrologue.getD false ||
    f.splitDataEndAt.isSome

/-- Payload bytes still expected in each direction. -/
structure Pending where
  client : Nat := 0
  server : Nat := 0
deriving DecidableEq, Repr

def Pending.get (p : Pending) : Side → Nat
  | .client => p.client
  | .server => p.server

def Pending.set (p : Pending) (n : Nat) : Side → Pending
  | .client => { p with client := n }
  | .server => { p with server := n }

structure Tracker where
  faults : HislipFaults := {}
  seen : List Seen := []
  pending : Pending := {}
deriving DecidableEq, Repr

/-- Consume up to `available` bytes of a pending count: what was consumed,
and what is left of the count. -/
def takePending (slot available : Nat) : Nat × Nat :=
  let consumed := min slot available
  (consumed, slot - consumed)

namespace Tracker

def new : Tracker := {}

def set (t : Tracker) (faults : HislipFaults) : Tracker := { t with faults }

def clear (t : Tracker) : Tracker := { t with faults := {}, seen := [] }

def snapshot (t : Tracker) : List Seen := t.seen

/-- Record the headers in a buffer travelling in one direction. -/
def observe (t : Tracker) (buf : List UInt8) (side : Side) : Option Tracker :=
  let (start, slot) := takePending (t.pending.get side) buf.length
  let pending := t.pending.set slot side
  (scan (buf.drop start)).map fun (found, leftover) =>
    { t with
      seen := t.seen ++ found.map fun header => ⟨side, header⟩
      pending := pending.set leftover side }

end Tracker

/-! ## Splitting a DataEND -/

/-- The loop of `split_first_data_end` over the headers found behind
`start`. -/
def splitLoop (buf : List UInt8) (start cut : Nat) : List (Nat × Header) → Option (Option (List UInt8))
  | [] => some none
  | (rel, header) :: rest =>
      if header.messageType ≠ msgDataEnd then
        splitLoop buf start cut rest
      else if header.payloadLen.toNat ≤ cut then
        splitLoop buf start cut rest
      else
        let pos := start + rel
        let body := pos + headerLen
        let stop := (body + header.payloadLen.toNat) % 2 ^ 64
        if buf.length < stop then
          some none -- still arriving; leave it alone
        else if stop < body + cut then
          none -- `&buf[body + cut..end]` panics
        else
          some (some (buf.take pos ++
            message msgData header.controlCode header.messageParameter (slice buf body cut) ++
            message msgDataEnd header.controlCode header.messageParameter
              (slice buf (body + cut) (stop - (body + cut))) ++
            buf.drop stop))

/-- Rewrite the first DataEND at or after `start` as Data + DataEND. -/
def splitFirstDataEnd (buf : List UInt8) (start cut : Nat) : Option (Option (List UInt8)) :=
  if cut = 0 then
    some none
  else
    (headers (buf.drop start)).bind (splitLoop buf start cut)

/-! ## Rewriting -/

/-- The state of the rewrite loop: the outgoing buffer, whether anything was
changed, and the tracker's shared fault set. -/
structure Rewriting where
  out : List UInt8
  changed : Bool
  faults : HislipFaults

/-- One round of the rewrite loop.  What is armed is decided by `faults`, the
copy taken when the call began; only the shared set is disarmed. -/
def rewriteHeader (faults : HislipFaults) (start : Nat) (st : Rewriting) :
    Nat × Header → Rewriting
  | (rel, header) =>
      let pos := start + rel
      let st := match faults.skewDataEndId with
        | some skew =>
            if header.messageType = msgDataEnd then
              { out := splice st.out (pos + 4) (be32 (header.messageParameter + skew))
                changed := true
                faults := { st.faults with skewDataEndId := none } }
            else st
        | none => st
      let st := match faults.skewDataId with
        | some skew =>
            if header.messageType = msgData then
              { out := splice st.out (pos + 4) (be32 (header.messageParameter + skew))
                changed := true
                faults := { st.faults with skewDataId := none } }
            else st
        | none => st
      if faults.breakPrologue.getD false then
        { out := splice st.out pos [0x58]
          changed := true
          faults := { st.faults with breakPrologue := some false } }
      else st

/-- What a call of `rewrite` gives back: the replacement for the chunk, if
there is one, and the fault set it leaves armed. -/
abbrev Rewritten := Option (List UInt8) × HislipFaults

/-- The body of `rewrite`, on the two fields of the tracker it uses: the
server direction's pending count, which it reads, and the armed faults.
`again` stands for the call it makes on itself after a split. -/
def rewriteWith (again : HislipFaults → List UInt8 → Option Rewritten) (pending : Nat)
    (faults : HislipFaults) (buf : List UInt8) : Option Rewritten :=
  if !faults.armed then
    some (none, faults)
  else
    -- only the portion after any in-flight payload can hold a header
    let start := min pending buf.length
    (headers (buf.drop start)).bind fun found =>
      if found = [] then
        some (none, faults)
      else
        let patch : Rewritten :=
          let st := found.foldl (rewriteHeader faults start) ⟨buf, false, faults⟩
          (if st.changed then some st.out else none, st.faults)
        match faults.splitDataEndAt with
        | none => some patch
        | some cut =>
            (splitFirstDataEnd buf start cut).bind fun
              | none => some patch
              | some split =>
                  (again { faults with splitDataEndAt := none } split).map
                    fun (r, faults) => (some (r.getD split), faults)

/-- `rewrite` on the fields it uses.  The call it makes on itself finds the
split disarmed, so it makes no further one. -/
def rewriteFaults (pending : Nat) (faults : HislipFaults) (buf : List UInt8) : Option Rewritten :=
  rewriteWith (rewriteWith (fun _ _ => none) pending) pending faults buf

/-- The recursion of the source: `rewrite` re-enters itself after a split. -/
theorem rewriteFaults_eq (pending : Nat) (faults : HislipFaults) (buf : List UInt8) :
    rewriteFaults pending faults buf =
      rewriteWith (rewriteFaults pending) pending faults buf := by
  -- the re-entered call computes with `splitDataEndAt := none`, where its own
  -- re-entry is never reached
  rw [rewriteFaults, rewriteWith, rewriteWith]
  rfl

/-- Rewrite server->client messages if anything is armed. -/
def Tracker.rewrite (t : Tracker) (buf : List UInt8) :
    Option (Option (List UInt8) × Tracker) :=
  (rewriteFaults t.pending.server t.faults buf).map fun (r, faults) => (r, { t with faults })

end TestGear.Hislip
