import TestGear.Vxi11.OneShot
import TestGear.Vxi11.Rpc
import TestGear.Xdr.Fields

/-!
# TestGear.Vxi11.Replies

The replies the RPC layer can send, and what `rewriteReplies` does to them.  It
patches fixed offsets without a look at the reply status, so all depends on
which replies reach that far: besides a successful one only PROG_MISMATCH does,
with the lowest version of the program where an error word would be.

* `spares_iff` — other replies than successful ones are spared, and leave a
  one-shot fault armed, just when no PROG_MISMATCH is there to be hit;
* `wrongVersion_rewritten` — one that is.
-/

namespace TestGear.Vxi11

/-! ## Reply forms -/

/-- msg_type -/
def msgReply : UInt32 := 1

/-- reply_stat -/
def msgAccepted : UInt32 := 0

def msgDenied : UInt32 := 1

/-- reject_stat -/
def statRpcMismatch : UInt32 := 0

/-- auth flavor -/
def authNone : UInt32 := 0

/-- The reply header shared by every accepted reply: xid, REPLY, MSG_ACCEPTED,
AUTH_NONE verifier, then the accept_stat. -/
def accepted (xid stat : UInt32) : List UInt8 :=
  be32 xid ++ be32 msgReply ++ be32 msgAccepted ++ be32 authNone ++ Xdr.putOpaque [] ++ be32 stat

/-- What a server has to say to a call. -/
inductive RpcReply where
  /-- SUCCESS, with procedure-specific results. -/
  | success (results : List UInt8)
  | progUnavail
  /-- PROG_MISMATCH carries the supported version range. -/
  | progMismatch (low high : UInt32)
  | procUnavail
  | garbageArgs
  | systemErr
  /-- MSG_DENIED / RPC_MISMATCH, with the version range we do speak. -/
  | rpcMismatch
deriving DecidableEq, Repr

namespace RpcReply

def body (xid : UInt32) : RpcReply → List UInt8
  | success results => accepted xid 0 ++ results
  | progUnavail => accepted xid 1
  | progMismatch low high => accepted xid 2 ++ be32 low ++ be32 high
  | procUnavail => accepted xid 3
  | garbageArgs => accepted xid 4
  | systemErr => accepted xid 5
  | rpcMismatch =>
      be32 xid ++ be32 msgReply ++ be32 msgDenied ++ be32 statRpcMismatch ++ be32 Rpc.rpcVersion ++
        be32 Rpc.rpcVersion

def isSuccess : RpcReply → Bool
  | success _ => true
  | _ => false

end RpcReply

/-- A reply in its record. -/
structure ServerReply where
  xid : UInt32
  reply : RpcReply
  record : Record
  body_eq : record.body = reply.body xid

/-! ## What may be done to them -/

/-- A reply and what is forwarded for it, behind a stale record if one is due. -/
structure Spared (t : Tracker) (r : ServerReply) (d : Delivery) : Prop where
  record : d.record = r.record
  stale : d.stale = staleHits t.faults (procOf t.calls r.record)
  length : d.body.length = r.record.body.length
  /-- Byte for byte, unless it is a success. -/
  other : r.reply.isSuccess = false → d.body = r.record.body
  /-- The error word, and the maxRecvSize word of a create_link. -/
  success : ∀ i, d.body[i]? ≠ r.record.body[i]? →
    (24 ≤ i ∧ i < 28) ∨ (36 ≤ i ∧ i < 40 ∧ procOf t.calls r.record = some createLink)

/-- The error word of this reply is the one to replace. -/
def ServerReply.Targeted (t : Tracker) (r : ServerReply) : Prop :=
  errorHits t.faults (procOf t.calls r.record) r.record.body = true

/-- Only error words and maxRecvSize words of successful replies are replaced,
and only such a reply disarms a one-shot error. -/
def SparesOthers (t : Tracker) (rs : List ServerReply) : Prop :=
  let buf := recordBytes (rs.map ServerReply.record)
  (∃ ds, (t.rewriteReplies buf).1.getD buf = deliveryBytes ds ∧ List.Forall₂ (Spared t) rs ds) ∧
    ((t.rewriteReplies buf).2.faults.errorOnProc ≠ t.faults.errorOnProc →
      ∃ r ∈ rs, r.reply.isSuccess = true ∧ r.Targeted t)

/-- Is this a PROG_MISMATCH to the targeted procedure, with an error armed? -/
structure ServerReply.Mismatched (t : Tracker) (r : ServerReply) (low code : UInt32) : Prop where
  reply : ∃ high, r.reply = .progMismatch low high
  code : t.faults.errorCode = some code
  proc : ∃ p, procOf t.calls r.record = some p ∧ t.faults.errorOnProc = some p

/-! ## Where the replies end -/

theorem length_accepted (xid stat : UInt32) : (accepted xid stat).length = 24 := by
  simp [accepted, Xdr.putOpaque, Xdr.putU32, Xdr.padOf]

/-- Only a PROG_MISMATCH has a word where the error would be, of the replies
that are no success, and none has one where maxRecvSize would be. -/
theorem length_body_of_not_success {reply : RpcReply} (h : reply.isSuccess = false) (xid : UInt32) :
    ((∃ low high, reply = .progMismatch low high) ∧ (reply.body xid).length = 32) ∨
      (reply.body xid).length = 24 := by
  cases reply with
  | success results => cases h
  | progMismatch low high =>
      exact .inl ⟨⟨low, high, rfl⟩, by simp [RpcReply.body, length_accepted]⟩
  | rpcMismatch => exact .inr (by simp [RpcReply.body])
  | _ => exact .inr (length_accepted ..)

/-- The word of a PROG_MISMATCH that stands where the error would be. -/
theorem splice_progMismatch (xid low high code : UInt32) :
    splice ((RpcReply.progMismatch low high).body xid) results (be32 code) =
      (RpcReply.progMismatch code high).body xid := by
  have hlen := length_accepted xid 2
  have hsplice := splice_append_right (accepted xid 2) (be32 low ++ be32 high) 0 (be32 code)
  rw [hlen] at hsplice
  rw [RpcReply.body, RpcReply.body, List.append_assoc, List.append_assoc]
  refine hsplice.trans ?_
  simp [splice]

theorem progMismatch_body_inj {xid low code high : UInt32}
    (h : (RpcReply.progMismatch code high).body xid = (RpcReply.progMismatch low high).body xid) :
    code = low := by
  rw [RpcReply.body, RpcReply.body] at h
  have hwords := List.append_cancel_right h
  rw [List.append_cancel_left_eq] at hwords
  have hread := congrArg ofBE32 hwords
  rwa [ofBE32_be32, ofBE32_be32] at hread

/-- A PROG_MISMATCH to the targeted procedure is hit. -/
theorem ServerReply.Mismatched.targeted {t : Tracker} {r : ServerReply} {low code : UInt32}
    (h : r.Mismatched t low code) : r.Targeted t := by
  obtain ⟨high, hreply⟩ := h.reply
  refine errorHits_iff.mpr ⟨h.proc, by rw [h.code]; rfl, ?_⟩
  rw [r.body_eq, hreply]
  simp [RpcReply.body, length_accepted]

/-- No other reply that is no success is. -/
theorem ServerReply.Targeted.mismatched {t : Tracker} {r : ServerReply} (h : r.Targeted t)
    (hother : r.reply.isSuccess = false) : ∃ low code, r.Mismatched t low code := by
  obtain ⟨hproc, hcode, hlen⟩ := errorHits_iff.mp h
  rw [r.body_eq] at hlen
  rcases length_body_of_not_success hother r.xid with ⟨⟨low, high, hreply⟩, -⟩ | hshort
  · obtain ⟨code, hcode⟩ := Option.isSome_iff_exists.mp hcode
    exact ⟨low, code, ⟨high, hreply⟩, hcode, hproc⟩
  · omega

/-- No reply but a successful one has its maxRecvSize word replaced. -/
theorem sizeHits_of_not_success {f : Vxi11Faults} {proc : Option UInt32} {r : ServerReply}
    (hother : r.reply.isSuccess = false) : sizeHits f proc r.record.body = false := by
  by_contra hhit
  have hlen := (sizeHits_iff.mp (by simpa using hhit)).2.2
  rw [r.body_eq] at hlen
  rcases length_body_of_not_success hother r.xid with ⟨-, h32⟩ | h24 <;> omega

/-- What is forwarded for a reply that is no success: the version named in a
PROG_MISMATCH makes room for the error code. -/
theorem rewrittenBody_of_not_success {t : Tracker} {r : ServerReply}
    (hother : r.reply.isSuccess = false) :
    rewrittenBody t.faults (procOf t.calls r.record) r.record.body = r.record.body ↔
      ∀ low code, r.Mismatched t low code → low = code := by
  simp only [rewrittenBody, sizeHits_of_not_success hother, Bool.false_eq_true, if_false]
  constructor
  · intro hsame low code hm
    obtain ⟨high, hreply⟩ := hm.reply
    have hhit : errorHits t.faults (procOf t.calls r.record) r.record.body = true := hm.targeted
    rw [if_pos hhit, hm.code, Option.getD_some, r.body_eq, hreply, splice_progMismatch] at hsame
    exact (progMismatch_body_inj hsame).symm
  · intro hcode
    split
    · next hhit =>
        obtain ⟨low, code, hm⟩ := ServerReply.Targeted.mismatched hhit hother
        obtain ⟨high, hreply⟩ := hm.reply
        rw [hm.code, Option.getD_some, r.body_eq, hreply, splice_progMismatch, hcode low code hm]
    · rfl

/-! ## A buffer of replies -/

section

variable {t : Tracker} {rs : List ServerReply}

/-- What is forwarded, changed or not. -/
theorem forwarded_eq (t : Tracker) (rs : List Record) :
    (t.rewriteReplies (recordBytes rs)).1.getD (recordBytes rs) =
      deliveryBytes (rs.map (delivered t.calls t.faults)) := by
  rcases List.eq_nil_or_concat' rs with rfl | ⟨init, last, hrs⟩
  · rw [rewriteReplies_of_not_records t (by decide)]
    rfl
  · rw [rewriteReplies_records t (by rw [hrs]; simp)]
    cases hany : rs.any (touches t.calls t.faults) with
    | true => rfl
    | false => exact (deliveryBytes_of_not_touches hany).symm

/-- What stays armed. -/
theorem armed_eq (t : Tracker) (rs : List Record) :
    (t.rewriteReplies (recordBytes rs)).2.faults = armedAfter t.faults (answers t.calls rs) := by
  rcases List.eq_nil_or_concat' rs with rfl | ⟨init, last, hrs⟩
  · rw [rewriteReplies_of_not_records t (by decide)]
    simp [answers]
  · rw [rewriteReplies_records t (by rw [hrs]; simp), foldl_disarm]

/-- The error is disarmed just when it is one-shot and a targeted reply takes it. -/
theorem armedAfter_ne_iff :
    (armedAfter t.faults (answers t.calls (rs.map ServerReply.record))).errorOnProc ≠
        t.faults.errorOnProc ↔
      t.faults.errorOnce.getD true = true ∧ ∃ r ∈ rs, r.Targeted t := by
  have hany : (answers t.calls (rs.map ServerReply.record)).any (Answer.errorHits t.faults) = true ↔
      ∃ r ∈ rs, r.Targeted t := by
    simp [answers, Answer.errorHits, ServerReply.Targeted]
  rw [← hany, ← Bool.and_eq_true]
  constructor
  · intro hne
    by_contra hquiet
    rw [Bool.not_eq_true] at hquiet
    exact hne (by simp [armedAfter, hquiet])
  · intro htaken heq
    simp only [armedAfter, htaken, if_true] at heq
    obtain ⟨r, -, htargeted⟩ := hany.mp (Bool.and_eq_true_iff.mp htaken).2
    obtain ⟨⟨p, -, hp⟩, -⟩ := errorHits_iff.mp htargeted
    rw [hp] at heq
    cases heq

/-- The deliveries are determined by the bytes. -/
theorem deliveries_unique {ds : List Delivery} (h : List.Forall₂ (Spared t) rs ds)
    (hbytes : deliveryBytes ds =
      deliveryBytes ((rs.map ServerReply.record).map (delivered t.calls t.faults))) :
    ds = (rs.map ServerReply.record).map (delivered t.calls t.faults) := by
  induction h with
  | nil => rfl
  | @cons r d rs ds hd _ ih =>
      obtain ⟨front, hfront⟩ : ∃ front : List UInt8,
          d.bytes = front ++ d.body ∧ (delivered t.calls t.faults r.record).bytes =
            front ++ (delivered t.calls t.faults r.record).body := by
        refine ⟨_, rfl, ?_⟩
        rw [hd.record, hd.stale]
        rfl
      have hlen : d.body.length = (delivered t.calls t.faults r.record).body.length :=
        hd.length.trans (length_rewrittenBody ..).symm
      simp only [List.map_cons, deliveryBytes, List.flatMap_cons] at hbytes
      obtain ⟨hhead, htail⟩ := List.append_inj hbytes (by
        rw [hfront.1, hfront.2, List.length_append, List.length_append, hlen])
      rw [hfront.1, hfront.2] at hhead
      have hsame : d = delivered t.calls t.faults r.record := by
        obtain ⟨record, stale, body⟩ := d
        obtain rfl : record = r.record := hd.record
        obtain rfl : stale = _ := hd.stale
        obtain rfl : body = _ := List.append_cancel_left hhead
        rfl
      rw [List.map_cons, List.map_cons, hsame, ih htail]

/-- **Only error words are replaced**, and a one-shot fault is left armed by every
other reply, just when each PROG_MISMATCH that is hit names the error code for
its lowest version and shares its buffer with a success that is hit too, unless
the fault is not one-shot. -/
theorem spares_iff (t : Tracker) (rs : List ServerReply) :
    SparesOthers t rs ↔
      ∀ r ∈ rs, ∀ low code, r.Mismatched t low code → low = code ∧
        (t.faults.errorOnce.getD true = true →
          ∃ r' ∈ rs, r'.reply.isSuccess = true ∧ r'.Targeted t) := by
  simp only [SparesOthers, forwarded_eq, armed_eq, armedAfter_ne_iff]
  constructor
  · rintro ⟨⟨ds, hbytes, hspared⟩, htaken⟩ r hr low code hm
    refine ⟨?_, fun honce => htaken ⟨honce, r, hr, hm.targeted⟩⟩
    obtain rfl := deliveries_unique hspared hbytes.symm
    rw [List.map_map, List.forall₂_map_right_iff, List.forall₂_same] at hspared
    have hother : r.reply.isSuccess = false := by
      obtain ⟨high, hreply⟩ := hm.reply
      rw [hreply]
      rfl
    exact (rewrittenBody_of_not_success hother).mp ((hspared r hr).other hother) low code hm
  · intro h
    refine ⟨⟨_, rfl, ?_⟩, ?_⟩
    · rw [List.map_map, List.forall₂_map_right_iff, List.forall₂_same]
      intro r hr
      refine ⟨rfl, rfl, length_rewrittenBody .., fun hother => ?_, fun i hi => ?_⟩
      · exact (rewrittenBody_of_not_success hother).mpr fun low code hm => (h r hr low code hm).1
      · rcases rewrittenBody_words hi with ⟨hlo, hhi, -⟩ | ⟨hlo, hhi, hhit⟩
        · exact .inl ⟨hlo, hhi⟩
        · exact .inr ⟨hlo, hhi, (sizeHits_iff.mp hhit).1⟩
    · rintro ⟨honce, r, hr, htargeted⟩
      cases hsuccess : r.reply.isSuccess with
      | true => exact ⟨r, hr, hsuccess, htargeted⟩
      | false =>
          obtain ⟨low, code, hm⟩ := htargeted.mismatched hsuccess
          exact (h r hr low code hm).2 honce

end

/-- A device_read is to be answered with error 4, once. -/
def readError : Tracker where
  calls := fun xid => if xid = 7 then some deviceRead else none
  faults := { errorOnProc := some deviceRead, errorCode := some 4 }

/-- The server speaks version 1 of the program, and says so. -/
def wrongVersion : ServerReply where
  xid := 7
  reply := .progMismatch 1 1
  record :=
    { mark := 0x80000020
      body := (RpcReply.progMismatch 1 1).body 7
      nonempty := by decide
      fits := by decide }
  body_eq := rfl

/-- It gets to say version 4, and the fault is gone. -/
theorem wrongVersion_rewritten :
    (readError.rewriteReplies (recordBytes [wrongVersion.record])).1 =
        some (be32 0x80000020 ++ (RpcReply.progMismatch 4 1).body 7) ∧
      ¬ SparesOthers readError [wrongVersion] := by
  refine ⟨by decide +kernel, fun h => ?_⟩
  have htaken : (readError.rewriteReplies (recordBytes [wrongVersion.record])).2.faults.errorOnProc ≠
      readError.faults.errorOnProc := by decide +kernel
  obtain ⟨r, hr, hsuccess, -⟩ := h.2 htaken
  rw [List.mem_singleton.mp hr] at hsuccess
  cases hsuccess

/-- The answer to the device_read, with no error and no data. -/
def readAnswer : ServerReply where
  xid := 7
  reply := .success (be32 0 ++ be32 0 ++ be32 0)
  record :=
    { mark := 0x80000024
      body := (RpcReply.success (be32 0 ++ be32 0 ++ be32 0)).body 7
      nonempty := by decide
      fits := by decide }
  body_eq := rfl

theorem spares_readAnswer : SparesOthers readError [readAnswer] := by
  refine (spares_iff _ _).mpr ?_
  rintro r hr low code ⟨⟨high, hreply⟩, -, -⟩
  rw [List.mem_singleton.mp hr] at hreply
  cases hreply

end TestGear.Vxi11
