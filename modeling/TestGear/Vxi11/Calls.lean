import TestGear.Vxi11.Framing
import TestGear.Vxi11.Messages
import TestGear.Vxi11.Replies

/-!
# TestGear.Vxi11.Calls

Calls of the core channel from end to end.  The client half encodes a call and
decodes the reply; the server half decodes the call, has its handler run it and
encodes what that answers.  The handler stands for the device operations, over
any state of the server.

* `decodeReply_body` — a reply is understood as what it says, or refused for
  its xid;
* `dispatch_encoded` — whole arguments reach the handler, cut ones do not;
* `converse_eq` — a client that asks one call after the other, each as it
  likes after the answers before, learns what it would from the handler.
-/

namespace TestGear.Vxi11

open Xdr Rpc

/-! ## The client half -/

/-- A credential and a verifier, a flavor and a body each. -/
structure Credentials where
  flavor : UInt32
  cred : List UInt8
  verfFlavor : UInt32
  verf : List UInt8
  cred_le : cred.length ≤ authBodyMax.toNat
  verf_le : verf.length ≤ authBodyMax.toNat

/-- AUTH_NONE. -/
def Credentials.none : Credentials := ⟨authNone, [], authNone, [], Nat.zero_le _, Nat.zero_le _⟩

/-- A call, of a client that presents these credentials. -/
def callBytes (auth : Credentials) (xid prog vers proc : UInt32) (args : List UInt8) : List UInt8 :=
  putU32 xid ++ (putU32 0 ++ (putU32 rpcVersion ++ (putU32 prog ++ (putU32 vers ++ (putU32 proc ++
    (putU32 auth.flavor ++ (putOpaque auth.cred ++
      (putU32 auth.verfFlavor ++ (putOpaque auth.verf ++ args)))))))))

/-- Encode one call, AUTH_NONE cred and verf. -/
def encodeCall (xid prog vers proc : UInt32) (args : List UInt8) : List UInt8 :=
  callBytes .none xid prog vers proc args

/-- What a decoded reply said, from the client's point of view. -/
inductive ReplyBody where
  /-- Procedure-specific results, undecoded. -/
  | success (results : List UInt8)
  /-- Accepted but failed; the accept_stat says how. -/
  | accepted (stat : UInt32)
  /-- Denied outright. -/
  | denied (stat : UInt32)
deriving DecidableEq, Repr

/-- Why a record could not be understood as the awaited reply. -/
inductive ReplyError where
  | garbled (error : XdrError)
  | wrongXid (got expected : UInt32)
  /-- A call (or garbage discriminant) where a reply belongs. -/
  | notAReply (word : UInt32)
deriving DecidableEq, Repr

/-- Decode one record as a reply to `expectXid`. -/
def decodeReply (record : List UInt8) (expectXid : UInt32) : Except ReplyError ReplyBody := do
  let (xid, c) ← (Cursor.new record).u32.mapError .garbled
  if xid ≠ expectXid then
    .error (.wrongXid xid expectXid)
  else
    let (mtype, c) ← c.u32.mapError .garbled
    if mtype ≠ msgReply then
      .error (.notAReply mtype)
    else
      let (replyStat, c) ← c.u32.mapError .garbled
      if replyStat = msgAccepted then
        let (_verfFlavor, c) ← c.u32.mapError .garbled
        let (_, c) ← (c.opaqueBytes authBodyMax).mapError .garbled
        let (stat, c) ← c.u32.mapError .garbled
        if stat = 0 then return .success c.rest else return .accepted stat
      else if replyStat = msgDenied then
        let (stat, _) ← c.u32.mapError .garbled
        return .denied stat
      else
        .error (.notAReply replyStat)

/-- What the client makes of a reply: of a PROG_MISMATCH, say, that it is one. -/
def RpcReply.understood : RpcReply → ReplyBody
  | success results => .success results
  | progUnavail => .accepted 1
  | progMismatch _ _ => .accepted 2
  | procUnavail => .accepted 3
  | garbageArgs => .accepted 4
  | systemErr => .accepted 5
  | rpcMismatch => .denied statRpcMismatch

/-! ## Headers -/

section

variable {c : Cursor} {tail : List UInt8}

/-- The auth fields, whatever is in them. -/
theorem auth_putOpaque (auth : Credentials)
    (hc : c.rest = putU32 auth.flavor ++ (putOpaque auth.cred ++
      (putU32 auth.verfFlavor ++ (putOpaque auth.verf ++ tail)))) :
    ∃ a c', Rpc.auth c = .ok (a, c') ∧ c'.rest = tail := by
  obtain ⟨c₁, h₁, hc₁⟩ := reads_u32 _ c _ hc
  obtain ⟨c₂, h₂, hc₂⟩ := reads_opaqueBytes auth.cred_le c₁ _ hc₁
  obtain ⟨c₃, h₃, hc₃⟩ := reads_u32 _ c₂ _ hc₂
  obtain ⟨c₄, h₄, hc₄⟩ := reads_opaqueBytes auth.verf_le c₃ _ hc₃
  refine ⟨⟨auth.cred, auth.verf⟩, c₄, ?_, hc₄⟩
  simp only at h₁ h₂ h₃ h₄
  simp only [Rpc.auth, h₁, ok_bind, h₂, h₃, h₄]
  rfl

/-- A call is decoded as it was encoded, and the credentials do not matter. -/
theorem decodeCall_callBytes (auth : Credentials) (xid prog vers proc : UInt32) (args : List UInt8) :
    decodeCall (callBytes auth xid prog vers proc args) = .ok (⟨xid, prog, vers, proc⟩, args) := by
  have hc := rest_new (callBytes auth xid prog vers proc args)
  generalize hnew : Cursor.new (callBytes auth xid prog vers proc args) = c at hc
  obtain ⟨c₁, h₁, hc₁⟩ := reads_u32 _ c _ hc
  obtain ⟨c₂, h₂, hc₂⟩ := reads_u32 _ c₁ _ hc₁
  obtain ⟨c₃, h₃, hc₃⟩ := reads_u32 _ c₂ _ hc₂
  obtain ⟨c₄, h₄, hc₄⟩ := reads_u32 _ c₃ _ hc₃
  obtain ⟨c₅, h₅, hc₅⟩ := reads_u32 _ c₄ _ hc₄
  obtain ⟨c₆, h₆, hc₆⟩ := reads_u32 _ c₅ _ hc₅
  obtain ⟨a, c₇, h₇, hc₇⟩ := auth_putOpaque auth hc₆
  have hheader : callHeader xid c₃ = .ok (⟨xid, prog, vers, proc⟩, c₇) := by
    simp only [callHeader, h₄, h₅, h₆, h₇, ok_bind]
    rfl
  simp only [decodeCall, hnew, h₁, mapError_ok, ok_bind, h₂, h₃, hheader, hc₇, ne_eq,
    not_true_eq_false, if_false]

/-- An accepted reply, with what follows its header. -/
theorem decodeReply_accepted (xid stat : UInt32) (results : List UInt8) :
    decodeReply (accepted xid stat ++ results) xid =
      .ok (if stat = 0 then .success results else .accepted stat) := by
  have hbytes : accepted xid stat ++ results = putU32 xid ++ (putU32 msgReply ++ (putU32 msgAccepted ++
      (putU32 authNone ++ (Xdr.putOpaque [] ++ (putU32 stat ++ results))))) := by
    simp only [accepted, List.append_assoc]
    rfl
  have hc := rest_new (accepted xid stat ++ results)
  generalize hnew : Cursor.new (accepted xid stat ++ results) = c at hc
  rw [hbytes] at hc
  obtain ⟨c₁, h₁, hc₁⟩ := reads_u32 _ _ _ hc
  obtain ⟨c₂, h₂, hc₂⟩ := reads_u32 _ c₁ _ hc₁
  obtain ⟨c₃, h₃, hc₃⟩ := reads_u32 _ c₂ _ hc₂
  obtain ⟨c₄, h₄, hc₄⟩ := reads_u32 _ c₃ _ hc₃
  obtain ⟨c₅, h₅, hc₅⟩ := @reads_opaqueBytes [] authBodyMax (Nat.zero_le _) c₄ _ hc₄
  obtain ⟨c₆, h₆, hc₆⟩ := reads_u32 _ c₅ _ hc₅
  simp only at h₅
  simp only [decodeReply, hnew, h₁, h₂, h₃, h₄, h₅, h₆, hc₆, mapError_ok, ok_bind, ne_eq,
    not_true_eq_false, if_true, if_false]
  split <;> rfl

theorem decodeReply_rpcMismatch (xid : UInt32) :
    decodeReply (RpcReply.rpcMismatch.body xid) xid = .ok (.denied statRpcMismatch) := by
  have hc := rest_new (RpcReply.rpcMismatch.body xid)
  generalize hnew : Cursor.new (RpcReply.rpcMismatch.body xid) = c at hc
  simp only [RpcReply.body, List.append_assoc] at hc
  obtain ⟨c₁, h₁, hc₁⟩ := reads_u32 _ _ _ hc
  obtain ⟨c₂, h₂, hc₂⟩ := reads_u32 _ c₁ _ hc₁
  obtain ⟨c₃, h₃, hc₃⟩ := reads_u32 _ c₂ _ hc₂
  obtain ⟨c₄, h₄, -⟩ := reads_u32 _ c₃ _ hc₃
  have hdenied : msgDenied ≠ msgAccepted := by decide
  simp only [decodeReply, hnew, h₁, h₂, h₃, h₄, mapError_ok, ok_bind, ne_eq,
    not_true_eq_false, hdenied, if_true, if_false]
  rfl

theorem decodeReply_wrongXid {xid expectXid : UInt32} (h : xid ≠ expectXid) (tail : List UInt8) :
    decodeReply (be32 xid ++ tail) expectXid = .error (.wrongXid xid expectXid) := by
  obtain ⟨c₁, h₁, -⟩ := reads_u32 xid _ tail (rest_new _)
  simp only [decodeReply, putU32] at h₁ ⊢
  simp only [h₁, mapError_ok, ok_bind, ne_eq, h, not_false_eq_true, if_true]

/-- A reply starts with its xid. -/
theorem exists_body_eq (xid : UInt32) (reply : RpcReply) : ∃ tail, reply.body xid = be32 xid ++ tail := by
  cases reply <;> exact ⟨_, by simp only [RpcReply.body, accepted, List.append_assoc]; rfl⟩

/-- A reply is understood by the client that waits for it, and by no other. -/
theorem decodeReply_body (xid expectXid : UInt32) (reply : RpcReply) :
    decodeReply (reply.body xid) expectXid =
      if xid = expectXid then .ok reply.understood else .error (.wrongXid xid expectXid) := by
  by_cases hxid : xid = expectXid
  · subst hxid
    have hnil (stat : UInt32) := decodeReply_accepted xid stat []
    simp only [List.append_nil] at hnil
    rw [if_pos rfl]
    cases reply with
    | success results => exact decodeReply_accepted xid 0 results
    | progMismatch low high =>
        rw [RpcReply.body, List.append_assoc]
        exact decodeReply_accepted xid 2 _
    | rpcMismatch => exact decodeReply_rpcMismatch xid
    | progUnavail => exact hnil 1
    | procUnavail => exact hnil 3
    | garbageArgs => exact hnil 4
    | systemErr => exact hnil 5
  · obtain ⟨tail, hbody⟩ := exists_body_eq xid reply
    rw [hbody, if_neg hxid]
    exact decodeReply_wrongXid hxid tail

end

/-! ## Procedures -/

def deviceCoreProg : UInt32 := 0x0607AF

def deviceCoreVers : UInt32 := 1

/-- The procedures of DEVICE_CORE. -/
inductive CoreProc where
  | createLink
  | deviceWrite
  | deviceRead
  | deviceReadStb
  | deviceTrigger
  | deviceClear
  | deviceRemote
  | deviceLocal
  | deviceLock
  | deviceUnlock
  | deviceEnableSrq
  | deviceDocmd
  | destroyLink
  | createIntrChan
  | destroyIntrChan
deriving DecidableEq, Repr

namespace CoreProc

def number : CoreProc → UInt32
  | createLink => 10
  | deviceWrite => 11
  | deviceRead => 12
  | deviceReadStb => 13
  | deviceTrigger => 14
  | deviceClear => 15
  | deviceRemote => 16
  | deviceLocal => 17
  | deviceLock => 18
  | deviceUnlock => 19
  | deviceEnableSrq => 20
  | deviceDocmd => 22
  | destroyLink => 23
  | createIntrChan => 25
  | destroyIntrChan => 26

def ofNumber : UInt32 → Option CoreProc
  | 10 => some createLink
  | 11 => some deviceWrite
  | 12 => some deviceRead
  | 13 => some deviceReadStb
  | 14 => some deviceTrigger
  | 15 => some deviceClear
  | 16 => some deviceRemote
  | 17 => some deviceLocal
  | 18 => some deviceLock
  | 19 => some deviceUnlock
  | 20 => some deviceEnableSrq
  | 22 => some deviceDocmd
  | 23 => some destroyLink
  | 25 => some createIntrChan
  | 26 => some destroyIntrChan
  | _ => none

def Args : CoreProc → Type
  | createLink => CreateLinkParms
  | deviceWrite => DeviceWriteParms
  | deviceRead => DeviceReadParms
  | deviceReadStb | deviceTrigger | deviceClear | deviceRemote | deviceLocal => DeviceGenericParms
  | deviceLock => DeviceLockParms
  | deviceUnlock | destroyLink => Int32
  | deviceEnableSrq => DeviceEnableSrqParms
  | deviceDocmd => DeviceDocmdParms
  | createIntrChan => DeviceRemoteFunc
  | destroyIntrChan => Unit

def Res : CoreProc → Type
  | createLink => CreateLinkResp
  | deviceWrite => DeviceWriteResp
  | deviceRead => DeviceReadResp
  | deviceReadStb => DeviceReadStbResp
  | deviceDocmd => DeviceDocmdResp
  | _ => UInt32

/-- How the arguments are laid out, by a server of this maxRecvSize. -/
def argsLayout (maxRecvSize : UInt32) : (p : CoreProc) → Layout p.Args
  | createLink => CreateLinkParms.layout
  | deviceWrite => deviceWriteLayout maxRecvSize
  | deviceRead => deviceReadLayout
  | deviceReadStb | deviceTrigger | deviceClear | deviceRemote | deviceLocal =>
      DeviceGenericParms.layout
  | deviceLock => DeviceLockParms.layout
  | deviceUnlock | destroyLink => lidLayout
  | deviceEnableSrq => DeviceEnableSrqParms.layout
  | deviceDocmd => DeviceDocmdParms.layout
  | createIntrChan => DeviceRemoteFunc.layout
  | destroyIntrChan => noneLayout

/-- How the results are; the client reads as much as there is. -/
def resLayout : (p : CoreProc) → Layout p.Res
  | createLink => CreateLinkResp.layout
  | deviceWrite => DeviceWriteResp.layout
  | deviceRead => DeviceReadResp.layout 0xFFFFFFFF
  | deviceReadStb => DeviceReadStbResp.layout
  | deviceDocmd => DeviceDocmdResp.layout
  | deviceTrigger | deviceClear | deviceRemote | deviceLocal | deviceLock | deviceUnlock
  | deviceEnableSrq | destroyLink | createIntrChan | destroyIntrChan => deviceErrorLayout

/-- What is answered to arguments that do not decode: data over maxRecvSize is
a parameter error, nothing transferred. -/
def refused : CoreProc → FieldError → RpcReply
  | deviceWrite, .xdr (.tooLong _ _) =>
      .success (DeviceWriteResp.layout.encode ⟨ErrorCode.parameterError.asU32, 0⟩)
  | _, _ => .garbageArgs

theorem ofNumber_number (p : CoreProc) : ofNumber p.number = some p := by cases p <;> rfl

end CoreProc

/-! ## The server half -/

/-- What runs the procedures, on its state. -/
abbrev Handler (σ : Type) := σ → (p : CoreProc) → p.Args → σ × p.Res

section

variable {σ : Type} (maxRecvSize : UInt32) (handle : Handler σ)

/-- Dispatch one call. -/
def dispatch (s : σ) (header : CallHeader) (args : List UInt8) : σ × RpcReply :=
  if header.prog ≠ deviceCoreProg then
    (s, .progUnavail)
  else if header.vers ≠ deviceCoreVers then
    (s, .progMismatch deviceCoreVers deviceCoreVers)
  else
    match CoreProc.ofNumber header.proc with
    | none => (s, .procUnavail)
    | some p =>
        match (p.argsLayout maxRecvSize).decode args with
        | .ok parms =>
            let (s, res) := handle s p parms
            (s, .success (p.resLayout.encode res))
        | .error e => (s, p.refused e)

/-- What a record is answered with.  There is no answer to one that is no call;
its framing is intact, so the connection goes on. -/
def answer (s : σ) (record : List UInt8) : σ × Option (List UInt8) :=
  match decodeCall record with
  | .ok (header, args) =>
      let (s, reply) := dispatch maxRecvSize handle s header args
      (s, some (reply.body header.xid))
  | .error (.rpcVersion xid _) => (s, some (RpcReply.rpcMismatch.body xid))
  | .error (.notACall _) => (s, none)
  | .error (.garbled _) => (s, none)

/-- A record may be twice as long as what a write may hold. -/
def maxRecord : Nat := maxRecvSize.toNat * 2 + 1024

/-- How a connection ended: at a record boundary, or on a record that could not
be read or written. -/
inductive Ended where
  | hangup
  | failed
deriving DecidableEq, Repr

/-- What one round of `serve_connection` comes to. -/
inductive Round (σ : Type) where
  /-- The next state, what was written, and what is left to read. -/
  | goesOn (s : σ) (written stream : List UInt8)
  | ends (s : σ) (how : Ended)

/-- One round of the loop, for all that is still to come from the client. -/
def serveRound (s : σ) (stream : List UInt8) : Round σ :=
  match readRecord (maxRecord maxRecvSize) stream with
  | .error _ => .ends s .failed
  | .ok (none, _) => .ends s .hangup
  | .ok (some record, stream) =>
      let (s, reply) := answer maxRecvSize handle s record
      match reply with
      | none => .goesOn s [] stream
      | some reply =>
          match writeRecord reply with
          | none => .ends s .failed
          | some bytes => .goesOn s bytes stream

/-! ## Conversations -/

/-- Largest record the client accepts. -/
def recordMax : Nat := 32 * 1024 * 1024

/-- How a call of the client fails. -/
inductive CallFailure where
  | tooLarge
  | record (error : RecordError)
  | closed
  | reply (error : ReplyError)
  | accepted (stat : UInt32)
  | denied (stat : UInt32)
  | results (error : FieldError)
deriving DecidableEq, Repr

/-- A connection: the server's state, the client's last xid, and what is on its
way in either direction. -/
structure Connection (σ : Type) where
  server : σ
  xid : UInt32 := 1
  toServer : List UInt8 := []
  toClient : List UInt8 := []

/-- Decode the results of a reply. -/
def understand (xid : UInt32) (p : CoreProc) (reply : List UInt8) : Except CallFailure p.Res :=
  match decodeReply reply xid with
  | .error e => .error (.reply e)
  | .ok (.accepted stat) => .error (.accepted stat)
  | .ok (.denied stat) => .error (.denied stat)
  | .ok (.success results) => (p.resLayout.decode results).mapError .results

/-- The client's side of a call, from the reply on. -/
def readReply (p : CoreProc) (conn : Connection σ) : Connection σ × Except CallFailure p.Res :=
  match readRecord recordMax conn.toClient with
  | .error e => (conn, .error (.record e))
  | .ok (none, rest) => ({ conn with toClient := rest }, .error .closed)
  | .ok (some reply, rest) => ({ conn with toClient := rest }, understand conn.xid p reply)

/-- Encode, send, have the server go round, await the matching reply. -/
def exchange (conn : Connection σ) (p : CoreProc) (a : p.Args) :
    Connection σ × Except CallFailure p.Res :=
  let conn := { conn with xid := conn.xid + 1 }
  match writeRecord (encodeCall conn.xid deviceCoreProg deviceCoreVers p.number
      ((p.argsLayout maxRecvSize).encode a)) with
  | none => (conn, .error .tooLarge)
  | some bytes =>
      match serveRound maxRecvSize handle conn.server (conn.toServer ++ bytes) with
      | .ends s _ => ({ conn with server := s, toServer := [] }, .error .closed)
      | .goesOn s written stream =>
          readReply p
            { conn with server := s, toServer := stream, toClient := conn.toClient ++ written }

/-- A client: what it asks next, and what it makes of the answer. -/
structure Client (κ : Type) where
  ask : κ → (p : CoreProc) × p.Args
  told : κ → (p : CoreProc) → Except CallFailure p.Res → κ

variable {κ : Type} (client : Client κ)

/-- The first calls of a client, over a connection. -/
def converse : Nat → κ → Connection σ → κ × Connection σ
  | 0, k, conn => (k, conn)
  | n + 1, k, conn =>
      let told := exchange maxRecvSize handle conn (client.ask k).1 (client.ask k).2
      converse n (client.told k (client.ask k).1 told.2) told.1

/-- What a client is told of arguments over their limit. -/
def CoreProc.overLimit : (p : CoreProc) → Except CallFailure p.Res
  | deviceWrite => .ok (⟨ErrorCode.parameterError.asU32, 0⟩ : DeviceWriteResp)
  | _ => .error (.accepted 4)

/-- The same without a connection: the handler is asked. -/
def ask (s : σ) (p : CoreProc) (a : p.Args) : σ × Except CallFailure p.Res :=
  match (p.argsLayout maxRecvSize).excess a with
  | none => ((handle s p a).1, .ok (handle s p a).2)
  | some _ => (s, p.overLimit)

def converseDirectly : Nat → κ → σ → κ × σ
  | 0, k, s => (k, s)
  | n + 1, k, s =>
      let told := ask maxRecvSize handle s (client.ask k).1 (client.ask k).2
      converseDirectly n (client.told k (client.ask k).1 told.2) told.1

/-- The results are such as can be sent and read. -/
def Handler.Bounded (handle : Handler σ) : Prop :=
  ∀ (s : σ) (p : CoreProc) (a : p.Args), p.resLayout.excess (handle s p a).2 = none ∧
    24 + (p.resLayout.encode (handle s p a).2).length ≤ recordMax

/-- The calls fit into a record that the server accepts. -/
def Client.Fits (maxRecvSize : UInt32) (client : Client κ) : Prop :=
  ∀ k, 40 + (((client.ask k).1.argsLayout maxRecvSize).encode (client.ask k).2).length ≤
    min (maxRecord maxRecvSize) 0x7FFFFFFF

end

section

variable {σ κ : Type} {maxRecvSize : UInt32} {handle : Handler σ}

/-- Whole arguments are handed to the handler. -/
theorem dispatch_encode (s : σ) (xid : UInt32) {p : CoreProc} {a : p.Args}
    (h : (p.argsLayout maxRecvSize).excess a = none) (tail : List UInt8) :
    dispatch maxRecvSize handle s ⟨xid, deviceCoreProg, deviceCoreVers, p.number⟩
        ((p.argsLayout maxRecvSize).encode a ++ tail) =
      ((handle s p a).1, .success (p.resLayout.encode (handle s p a).2)) := by
  have hdecode := (p.argsLayout maxRecvSize).decode_encode a tail (by simp [h])
  rw [h] at hdecode
  simp only [dispatch, ne_eq, not_true_eq_false, if_false, CoreProc.ofNumber_number, hdecode]

/-- Arguments over their limit are not. -/
theorem dispatch_overLimit (s : σ) (xid : UInt32) {p : CoreProc} {a : p.Args} {len : Nat}
    {max : UInt32} (h : (p.argsLayout maxRecvSize).excess a = some (len, max)) (hlen : len < 2 ^ 32)
    (tail : List UInt8) :
    dispatch maxRecvSize handle s ⟨xid, deviceCoreProg, deviceCoreVers, p.number⟩
        ((p.argsLayout maxRecvSize).encode a ++ tail) =
      (s, p.refused (.xdr (.tooLong (UInt32.ofNat len) max))) := by
  have hdecode := (p.argsLayout maxRecvSize).decode_encode a tail (by simpa [h] using hlen)
  rw [h] at hdecode
  simp only [dispatch, ne_eq, not_true_eq_false, if_false, CoreProc.ofNumber_number, hdecode]

theorem dispatch_cut (s : σ) (xid : UInt32) {p : CoreProc} {a : p.Args}
    (h : (p.argsLayout maxRecvSize).excess a = none) {front back : List UInt8}
    (hcut : front ++ back = (p.argsLayout maxRecvSize).encode a) (hback : back ≠ []) :
    dispatch maxRecvSize handle s ⟨xid, deviceCoreProg, deviceCoreVers, p.number⟩ front =
      (s, .garbageArgs) := by
  have hdecode := (p.argsLayout maxRecvSize).decode_cut h hcut hback
  have hrefused : p.refused (.xdr .truncated) = .garbageArgs := by cases p <;> rfl
  simp only [dispatch, ne_eq, not_true_eq_false, if_false, CoreProc.ofNumber_number, hdecode,
    hrefused]

/-- **Arguments**: of every procedure, arguments within their limits reach the
handler as they were encoded, whatever follows them, and none that are cut short
do; a write over maxRecvSize is a parameter error, and other arguments over their
limits are garbage. -/
theorem dispatch_encoded (s : σ) (xid : UInt32) (p : CoreProc) (a : p.Args) :
    let layout := p.argsLayout maxRecvSize
    let header : CallHeader := ⟨xid, deviceCoreProg, deviceCoreVers, p.number⟩
    (layout.excess a = none →
      (∀ tail, dispatch maxRecvSize handle s header (layout.encode a ++ tail) =
        ((handle s p a).1, .success (p.resLayout.encode (handle s p a).2))) ∧
      ∀ front back, front ++ back = layout.encode a → back ≠ [] →
        dispatch maxRecvSize handle s header front = (s, .garbageArgs)) ∧
    (∀ len max, layout.excess a = some (len, max) → len < 2 ^ 32 →
      ∀ tail, dispatch maxRecvSize handle s header (layout.encode a ++ tail) =
        (s, if p = .deviceWrite then
          .success (DeviceWriteResp.layout.encode ⟨ErrorCode.parameterError.asU32, 0⟩)
        else .garbageArgs)) := by
  refine ⟨fun h => ⟨dispatch_encode s xid h, fun front back => dispatch_cut s xid h⟩, ?_⟩
  intro len max h hlen tail
  rw [dispatch_overLimit s xid h hlen tail]
  cases p <;> rfl

/-! ## From end to end -/

/-- What the client is told by the reply to its call. -/
theorem understand_body (xid : UInt32) {p : CoreProc} {res : p.Res}
    (h : p.resLayout.excess res = none) :
    understand xid p ((RpcReply.success (p.resLayout.encode res)).body xid) = .ok res := by
  have hdecode := p.resLayout.decode_encode res [] (by simp [h])
  rw [h, List.append_nil] at hdecode
  rw [understand, decodeReply_body, if_pos rfl]
  simp only [RpcReply.understood, hdecode]
  rfl

theorem understand_refused (xid : UInt32) (p : CoreProc) (len max : UInt32) :
    understand xid p ((p.refused (.xdr (.tooLong len max))).body xid) = p.overLimit := by
  cases p with
  | deviceWrite =>
      exact @understand_body xid .deviceWrite
        (⟨ErrorCode.parameterError.asU32, 0⟩ : DeviceWriteResp) rfl
  | _ =>
      rw [understand, decodeReply_body, if_pos rfl]
      rfl

theorem length_callBytes (xid prog vers proc : UInt32) (args : List UInt8) :
    (encodeCall xid prog vers proc args).length = 40 + args.length := by
  simp [encodeCall, callBytes, Credentials.none, putU32, putOpaque, padOf]
  omega

theorem length_body_success (xid : UInt32) (results : List UInt8) :
    ((RpcReply.success results).body xid).length = 24 + results.length := by
  rw [RpcReply.body, List.length_append, length_accepted]

theorem length_body_refused (xid : UInt32) (p : CoreProc) (len max : UInt32) :
    ((p.refused (.xdr (.tooLong len max))).body xid).length ≤ 32 := by
  cases p with
  | deviceWrite =>
      rw [CoreProc.refused, length_body_success]
      exact Nat.le_refl 32
  | _ =>
      exact (length_accepted xid 4).trans_le (by decide)

theorem exists_writeRecord {payload : List UInt8} (h : payload.length ≤ 0x7FFFFFFF) :
    ∃ bytes, writeRecord payload = some bytes := by
  rw [writeRecord, if_neg (by omega)]
  exact ⟨_, rfl⟩

/-- The reply to a call says what the handler does. -/
theorem exists_reply (s : σ) (p : CoreProc) (a : p.Args) (hb : handle.Bounded)
    (hlen : ((p.argsLayout maxRecvSize).encode a).length < 2 ^ 32) :
    ∃ reply : RpcReply,
      (∀ xid, dispatch maxRecvSize handle s ⟨xid, deviceCoreProg, deviceCoreVers, p.number⟩
        ((p.argsLayout maxRecvSize).encode a) = ((ask maxRecvSize handle s p a).1, reply)) ∧
      (∀ xid, (reply.body xid).length ≤ recordMax) ∧
      ∀ xid, understand xid p (reply.body xid) = (ask maxRecvSize handle s p a).2 := by
  cases h : (p.argsLayout maxRecvSize).excess a with
  | none =>
      refine ⟨.success (p.resLayout.encode (handle s p a).2), fun xid => ?_, fun xid => ?_,
        fun xid => ?_⟩
      · have hdispatch := @dispatch_encode _ maxRecvSize handle s xid p a h []
        rw [List.append_nil] at hdispatch
        rw [hdispatch, ask, h]
      · rw [length_body_success]
        exact (hb s p a).2
      · rw [understand_body xid (hb s p a).1, ask, h]
  | some excess =>
      obtain ⟨len, max⟩ := excess
      have hle : len < 2 ^ 32 := Nat.lt_of_le_of_lt (length_le_of_firstExcess h) hlen
      refine ⟨p.refused (.xdr (.tooLong (UInt32.ofNat len) max)), fun xid => ?_, fun xid => ?_,
        fun xid => ?_⟩
      · have hdispatch := @dispatch_overLimit _ maxRecvSize handle s xid p a len max h hle []
        rw [List.append_nil] at hdispatch
        rw [hdispatch, ask, h]
      · exact (length_body_refused xid p _ max).trans (by simp [recordMax])
      · rw [understand_refused, ask, h]

theorem answer_encodeCall (s : σ) (xid prog vers proc : UInt32) (args : List UInt8) :
    answer maxRecvSize handle s (encodeCall xid prog vers proc args) =
      let (s, reply) := dispatch maxRecvSize handle s ⟨xid, prog, vers, proc⟩ args
      (s, some (reply.body xid)) := by
  rw [answer, encodeCall, decodeCall_callBytes]

theorem serveRound_answer {s s' : σ} {stream record reply bytes tail : List UInt8}
    (hread : readRecord (maxRecord maxRecvSize) stream = .ok (some record, tail))
    (hanswer : answer maxRecvSize handle s record = (s', some reply))
    (hbytes : writeRecord reply = some bytes) :
    serveRound maxRecvSize handle s stream = .goesOn s' bytes tail := by
  simp only [serveRound, hread, hanswer, hbytes]

/-- One call, over a connection on which nothing is under way. -/
theorem exchange_eq (s : σ) (xid : UInt32) (p : CoreProc) (a : p.Args) (hb : handle.Bounded)
    (hfits : 40 + ((p.argsLayout maxRecvSize).encode a).length ≤
      min (maxRecord maxRecvSize) 0x7FFFFFFF) :
    exchange maxRecvSize handle ⟨s, xid, [], []⟩ p a =
      (⟨(ask maxRecvSize handle s p a).1, xid + 1, [], []⟩, (ask maxRecvSize handle s p a).2) := by
  obtain ⟨hrecord, hfragment⟩ := le_min_iff.mp hfits
  obtain ⟨reply, hdispatch, hlen, hunderstand⟩ := exists_reply s p a hb
    (Nat.lt_of_le_of_lt (Nat.le_add_left _ 40) (Nat.lt_of_le_of_lt hfragment (by norm_num)))
  have hcall := length_callBytes (xid + 1) deviceCoreProg deviceCoreVers p.number
    ((p.argsLayout maxRecvSize).encode a)
  obtain ⟨bytes, hbytes⟩ := exists_writeRecord (hcall.trans_le hfragment)
  obtain ⟨bytes', hbytes'⟩ := exists_writeRecord ((hlen (xid + 1)).trans (by simp [recordMax]))
  -- the server reads the call, and the client the reply
  have hread := @readRecord_writeRecord (maxRecord maxRecvSize) [] _ _ hbytes
    (hcall.trans_le hrecord)
  have hread' := @readRecord_writeRecord recordMax [] _ _ hbytes' (hlen (xid + 1))
  rw [List.append_nil] at hread hread'
  have hround : serveRound maxRecvSize handle s bytes =
      .goesOn (ask maxRecvSize handle s p a).1 bytes' [] :=
    serveRound_answer hread (by rw [answer_encodeCall, hdispatch]) hbytes'
  simp only [exchange, hbytes, List.nil_append, hround, readReply, hread', hunderstand]

/-- **A conversation**: a client that makes one call after the other, choosing
each by the answers before, learns just what the handler would tell it, and
leaves the server in the state the handler would. -/
theorem converse_eq {client : Client κ} (hb : handle.Bounded) (hfits : client.Fits maxRecvSize)
    (n : Nat) (k : κ) (s : σ) (xid : UInt32) :
    converse maxRecvSize handle client n k ⟨s, xid, [], []⟩ =
      ((converseDirectly maxRecvSize handle client n k s).1,
        ⟨(converseDirectly maxRecvSize handle client n k s).2, xid + UInt32.ofNat n, [], []⟩) := by
  induction n generalizing k s xid with
  | zero => simp [converse, converseDirectly]
  | succ n ih =>
      rw [converse, exchange_eq s xid _ _ hb (hfits k)]
      simp only [ih, converseDirectly]
      rw [UInt32.add_assoc, UInt32.ofNat_add, UInt32.add_comm 1, UInt32.ofNat_one]

end

/-- Error 8, as each procedure answers it. -/
def CoreProc.unsupported : (p : CoreProc) → p.Res
  | createLink => (⟨ErrorCode.operationNotSupported.asU32, 0, 0, 0⟩ : CreateLinkResp)
  | deviceWrite => (⟨ErrorCode.operationNotSupported.asU32, 0⟩ : DeviceWriteResp)
  | deviceRead => (⟨ErrorCode.operationNotSupported.asU32, 0, []⟩ : DeviceReadResp)
  | deviceReadStb => (⟨ErrorCode.operationNotSupported.asU32, 0⟩ : DeviceReadStbResp)
  | deviceDocmd => (⟨ErrorCode.operationNotSupported.asU32, []⟩ : DeviceDocmdResp)
  | deviceTrigger | deviceClear | deviceRemote | deviceLocal | deviceLock | deviceUnlock
  | deviceEnableSrq | destroyLink | createIntrChan | destroyIntrChan =>
      ErrorCode.operationNotSupported.asU32

/-- A server that counts its calls, and supports none. -/
def countCalls : Handler Nat := fun n p _ => (n + 1, p.unsupported)

/-- A client that keeps locking link 7, and notes the answers. -/
def keepLocking : Client (List UInt32) where
  ask _ := ⟨.deviceLock, (⟨7, 0, 0⟩ : DeviceLockParms)⟩
  told answers p result :=
    match p, result with
    | .deviceLock, .ok (error : UInt32) => answers ++ [error]
    | _, _ => answers

theorem converse_keepLocking :
    converse 65536 countCalls keepLocking 3 [] ⟨0, 1, [], []⟩ = ([8, 8, 8], ⟨3, 4, [], []⟩) := by
  have hb : countCalls.Bounded := by
    intro n p a
    show p.resLayout.excess p.unsupported = none ∧
      24 + (p.resLayout.encode p.unsupported).length ≤ recordMax
    cases p <;> exact ⟨rfl, by decide⟩
  have hfits : keepLocking.Fits 65536 := fun _ => by
    show 40 + (DeviceLockParms.layout.encode ⟨7, 0, 0⟩).length ≤ min (maxRecord 65536) 0x7FFFFFFF
    decide
  exact converse_eq hb hfits 3 [] 0 1

end TestGear.Vxi11
