import TestGear.Vxi11.Tracker
import TestGear.Xdr

/-!
# TestGear.Vxi11.Rpc

The server's own decoder of a call: `decode_call` of `rpc.rs` reads the header
with a cursor, past a credential and a verifier of any length, and the
procedure decodes the arguments that are left.  The tracker on the wire reads
the same words at fixed offsets (`parseCall`, `parseArgs`).

* `observer_agrees` — on every record the server accepts the tracker sees the
  same call, or, where the offsets would be wrong, none;
* `observer_agrees_read`, one device_read call.
-/

namespace TestGear.Vxi11.Rpc

open Xdr

/-! ## Calls -/

def rpcVersion : UInt32 := 2

/-- Longest credential or verifier body the protocol allows. -/
def authBodyMax : UInt32 := 400

/-- One decoded call header. -/
structure CallHeader where
  xid : UInt32
  prog : UInt32
  vers : UInt32
  proc : UInt32
deriving DecidableEq, Repr

/-- Why an incoming record could not be dispatched as a call. -/
inductive CallError where
  | garbled (error : XdrError)
  | notACall (xid : UInt32)
  | rpcVersion (xid vers : UInt32)
deriving DecidableEq, Repr

/-- The bodies of the credential and the verifier, which the server ignores. -/
structure Auth where
  cred : List UInt8
  verf : List UInt8
deriving DecidableEq, Repr

/-- The two turns of the loop over the auth fields: a flavor and a body each. -/
def auth (c : Cursor) : Except XdrError (Auth × Cursor) := do
  let (_flavor, c) ← c.u32
  let (cred, c) ← c.opaqueBytes authBodyMax
  let (_flavor, c) ← c.u32
  let (verf, c) ← c.opaqueBytes authBodyMax
  return ({ cred, verf }, c)

/-- What follows the RPC version. -/
def callHeader (xid : UInt32) (c : Cursor) : Except XdrError (CallHeader × Cursor) := do
  let (prog, c) ← c.u32
  let (vers, c) ← c.u32
  let (proc, c) ← c.u32
  let (_, c) ← auth c
  return ({ xid, prog, vers, proc }, c)

/-- Decode one record as a call: the header and the undecoded procedure
arguments. -/
def decodeCall (record : List UInt8) : Except CallError (CallHeader × List UInt8) := do
  let (xid, c) ← (Cursor.new record).u32.mapError .garbled
  let (mtype, c) ← c.u32.mapError .garbled
  if mtype ≠ 0 then
    .error (.notACall xid)
  else
    let (rpcvers, c) ← c.u32.mapError .garbled
    if rpcvers ≠ rpcVersion then
      .error (.rpcVersion xid rpcvers)
    else
      match callHeader xid c with
      | .ok (header, c) => .ok (header, c.rest)
      | .error e => .error (.garbled e)

/-- The auth fields of a record: they stand behind six words. -/
def authOf (record : List UInt8) : Except XdrError Auth := do
  let (_, c) ← (Cursor.new record).take 24
  let (auth, _) ← auth c
  return auth

/-! ## Arguments -/

structure DeviceWriteParms where
  lid : Int32
  ioTimeoutMs : UInt32
  lockTimeoutMs : UInt32
  flags : UInt32
  data : List UInt8
deriving DecidableEq

/-- `maxData` is the link's negotiated maxRecvSize. -/
def DeviceWriteParms.decode (data : List UInt8) (maxData : UInt32) :
    Except XdrError DeviceWriteParms := do
  let (lid, c) ← (Cursor.new data).i32
  let (ioTimeoutMs, c) ← c.u32
  let (lockTimeoutMs, c) ← c.u32
  let (flags, c) ← c.u32
  let (data, _) ← c.opaqueBytes maxData
  return { lid, ioTimeoutMs, lockTimeoutMs, flags, data }

structure DeviceReadParms where
  lid : Int32
  requestSize : UInt32
  ioTimeoutMs : UInt32
  lockTimeoutMs : UInt32
  flags : UInt32
  /-- A full word, low byte the character. -/
  termChar : Int32
deriving DecidableEq

def DeviceReadParms.decode (data : List UInt8) : Except XdrError DeviceReadParms := do
  let (lid, c) ← (Cursor.new data).i32
  let (requestSize, c) ← c.u32
  let (ioTimeoutMs, c) ← c.u32
  let (lockTimeoutMs, c) ← c.u32
  let (flags, c) ← c.u32
  let (termChar, _) ← c.i32
  return { lid, requestSize, ioTimeoutMs, lockTimeoutMs, flags, termChar }

/-! ## What the decoder read -/

section

variable {record : List UInt8} {c c' : Cursor}

theorem mapError_eq_ok {ε ε' α : Type} {f : ε → ε'} {x : Except ε α} {a : α}
    (h : x.mapError f = .ok a) : x = .ok a := by
  cases x with
  | error e => cases h
  | ok b =>
      cases h
      rfl

/-- The cursor reads the word the tracker would read there. -/
theorem readU32_of_u32 (hc : c.At record pos) (h : c.u32 = .ok (v, c')) :
    readU32 record pos = some v ∧ c'.At record (pos + 4) := by
  obtain ⟨hle, rfl, hc'⟩ := u32_eq_ok hc h
  exact ⟨if_neg (by omega), hc'⟩

theorem readU32_of_i32 (hc : c.At record pos) (h : c.i32 = .ok (v, c')) :
    readU32 record pos = some v.toUInt32 ∧ c'.At record (pos + 4) :=
  readU32_of_u32 hc (i32_eq_ok h)

/-- A field of variable length: its length comes first. -/
theorem readU32_of_opaqueBytes (hc : c.At record pos) (h : c.opaqueBytes limit = .ok (body, c')) :
    ∃ len, readU32 record pos = some len ∧ body.length = len.toNat ∧
      c'.At record (pos + 4 + len.toNat + padOf len.toNat) := by
  obtain ⟨len, c₁, hlen, hbody, hc'⟩ := opaqueBytes_eq_ok hc h
  exact ⟨len, (readU32_of_u32 hc hlen).1, hbody, hc'⟩

/-- The words in front of the auth fields. -/
theorem decodeCall_eq_ok {header : CallHeader} {args : List UInt8}
    (h : decodeCall record = .ok (header, args)) :
    readU32 record 0 = some header.xid ∧ readU32 record 4 = some 0 ∧
      readU32 record 20 = some header.proc ∧
      ∃ a c c', c.At record 24 ∧ auth c = .ok (a, c') ∧ args = c'.rest := by
  obtain ⟨⟨xid, c₁⟩, hxid, h⟩ := bind_eq_ok h
  obtain ⟨⟨mtype, c₂⟩, hmtype, h⟩ := bind_eq_ok h
  obtain ⟨hxid, hc₁⟩ := readU32_of_u32 (at_new record) (mapError_eq_ok hxid)
  obtain ⟨hmtype, hc₂⟩ := readU32_of_u32 hc₁ (mapError_eq_ok hmtype)
  change (if mtype ≠ 0 then _ else _) = _ at h
  split at h
  · cases h
  next hcall =>
    obtain ⟨⟨rpcvers, c₃⟩, hrpcvers, h⟩ := bind_eq_ok h
    obtain ⟨-, hc₃⟩ := readU32_of_u32 hc₂ (mapError_eq_ok hrpcvers)
    change (if rpcvers ≠ rpcVersion then _ else _) = _ at h
    split at h
    · cases h
    split at h
    · next c₇ hheader =>
        cases h
        obtain ⟨⟨prog, c₄⟩, hprog, hheader⟩ := bind_eq_ok hheader
        obtain ⟨⟨vers, c₅⟩, hvers, hheader⟩ := bind_eq_ok hheader
        obtain ⟨⟨proc, c₆⟩, hproc, hheader⟩ := bind_eq_ok hheader
        obtain ⟨⟨a, c'⟩, hauth, hheader⟩ := bind_eq_ok hheader
        cases hheader
        obtain ⟨-, hc₄⟩ := readU32_of_u32 hc₃ hprog
        obtain ⟨-, hc₅⟩ := readU32_of_u32 hc₄ hvers
        obtain ⟨hproc, hc₆⟩ := readU32_of_u32 hc₅ hproc
        rw [not_not.mp hcall] at hmtype
        exact ⟨hxid, hmtype, hproc, a, c₆, _, hc₆, hauth, rfl⟩
    · cases h

/-- The lengths of the auth fields.  Behind a credential without a body the
verifier stands at a fixed offset, and so do the arguments behind the two. -/
theorem auth_eq_ok {a : Auth} (hc : c.At record 24) (h : auth c = .ok (a, c')) :
    ∃ credLen, readU32 record 28 = some credLen ∧ a.cred.length = credLen.toNat ∧
      (credLen = 0 → ∃ verfLen, readU32 record 36 = some verfLen ∧
        a.verf.length = verfLen.toNat ∧ (verfLen = 0 → c'.At record 40)) := by
  obtain ⟨⟨flavor, c₁⟩, hflavor, h⟩ := bind_eq_ok h
  obtain ⟨⟨cred, c₂⟩, hcred, h⟩ := bind_eq_ok h
  obtain ⟨⟨flavor', c₃⟩, hflavor', h⟩ := bind_eq_ok h
  obtain ⟨⟨verf, c₄⟩, hverf, h⟩ := bind_eq_ok h
  cases h
  obtain ⟨-, hc₁⟩ := readU32_of_u32 hc hflavor
  obtain ⟨credLen, hcredLen, hcredBody, hc₂⟩ := readU32_of_opaqueBytes hc₁ hcred
  refine ⟨credLen, hcredLen, hcredBody, ?_⟩
  rintro rfl
  obtain ⟨-, hc₃⟩ := readU32_of_u32 hc₂ hflavor'
  obtain ⟨verfLen, hverfLen, hverfBody, hc₄⟩ := readU32_of_opaqueBytes hc₃ hverf
  refine ⟨verfLen, hverfLen, hverfBody, ?_⟩
  rintro rfl
  exact hc₄

/-- A cursor that stands at one place of one buffer is one cursor. -/
theorem authOf_eq_ok {a : Auth} (hc : c.At record 24) (h : auth c = .ok (a, c')) :
    authOf record = .ok a := by
  obtain ⟨data, pos, hle⟩ := c
  obtain ⟨rfl, rfl⟩ : data = record ∧ pos = 24 := ⟨hc.data_eq, hc.pos_eq⟩
  have htake : (Cursor.new data).take 24 = .ok (slice data 0 24, ⟨data, 24, hle⟩) := by
    rw [Cursor.take, dif_pos (by simpa [Cursor.new] using hle)]
    rfl
  rw [authOf, htake]
  simp only [bind, Except.bind, h]
  rfl

/-- The words of a device_write, which `parseArgs` reads 40 bytes further on. -/
theorem DeviceWriteParms.decode_eq_ok {args : List UInt8} {parms : DeviceWriteParms}
    (h : DeviceWriteParms.decode args maxData = .ok parms) :
    readU32 args 4 = some parms.ioTimeoutMs ∧ readU32 args 8 = some parms.lockTimeoutMs ∧
      readU32 args 12 = some parms.flags := by
  obtain ⟨⟨lid, c₁⟩, hlid, h⟩ := bind_eq_ok h
  obtain ⟨⟨ioTimeoutMs, c₂⟩, hio, h⟩ := bind_eq_ok h
  obtain ⟨⟨lockTimeoutMs, c₃⟩, hlock, h⟩ := bind_eq_ok h
  obtain ⟨⟨flags, c₄⟩, hflags, h⟩ := bind_eq_ok h
  obtain ⟨⟨data, c₅⟩, -, h⟩ := bind_eq_ok h
  cases h
  obtain ⟨-, hc₁⟩ := readU32_of_i32 (at_new args) hlid
  obtain ⟨hio, hc₂⟩ := readU32_of_u32 hc₁ hio
  obtain ⟨hlock, hc₃⟩ := readU32_of_u32 hc₂ hlock
  exact ⟨hio, hlock, (readU32_of_u32 hc₃ hflags).1⟩

theorem DeviceReadParms.decode_eq_ok {args : List UInt8} {parms : DeviceReadParms}
    (h : DeviceReadParms.decode args = .ok parms) :
    readU32 args 4 = some parms.requestSize ∧ readU32 args 8 = some parms.ioTimeoutMs ∧
      readU32 args 12 = some parms.lockTimeoutMs ∧ readU32 args 16 = some parms.flags ∧
      readU32 args 20 = some parms.termChar.toUInt32 := by
  obtain ⟨⟨lid, c₁⟩, hlid, h⟩ := bind_eq_ok h
  obtain ⟨⟨requestSize, c₂⟩, hsize, h⟩ := bind_eq_ok h
  obtain ⟨⟨ioTimeoutMs, c₃⟩, hio, h⟩ := bind_eq_ok h
  obtain ⟨⟨lockTimeoutMs, c₄⟩, hlock, h⟩ := bind_eq_ok h
  obtain ⟨⟨flags, c₅⟩, hflags, h⟩ := bind_eq_ok h
  obtain ⟨⟨termChar, c₆⟩, hterm, h⟩ := bind_eq_ok h
  cases h
  obtain ⟨-, hc₁⟩ := readU32_of_i32 (at_new args) hlid
  obtain ⟨hsize, hc₂⟩ := readU32_of_u32 hc₁ hsize
  obtain ⟨hio, hc₃⟩ := readU32_of_u32 hc₂ hio
  obtain ⟨hlock, hc₄⟩ := readU32_of_u32 hc₃ hlock
  obtain ⟨hflags, hc₅⟩ := readU32_of_u32 hc₄ hflags
  exact ⟨hsize, hio, hlock, hflags, (readU32_of_i32 hc₅ hterm).1⟩

theorem readU32_drop (record : List UInt8) (pos off : Nat) (h : pos ≤ record.length) :
    readU32 (record.drop pos) off = readU32 record (pos + off) := by
  rw [readU32, readU32, slice_add, List.length_drop]
  congr 1
  rw [eq_iff_iff]
  omega

end

/-! ## The tracker and the server -/

/-- The call as the tracker notes it. -/
def DeviceWriteParms.call (parms : DeviceWriteParms) : Call where
  proc := deviceWrite
  ioTimeout := parms.ioTimeoutMs
  lockTimeout := parms.lockTimeoutMs
  flags := parms.flags
  termChar := none
  requestSize := none

def DeviceReadParms.call (parms : DeviceReadParms) : Call where
  proc := deviceRead
  ioTimeout := parms.ioTimeoutMs
  lockTimeout := parms.lockTimeoutMs
  flags := parms.flags
  termChar := some parms.termChar.toUInt32.toUInt8
  requestSize := some parms.requestSize

/-- **The tracker sees what the server does.**  For every record the server
accepts, its xid and procedure are those of the server; with an empty
credential and verifier the arguments the server decodes are those the tracker
notes, and with a body in one of them it notes none. -/
theorem observer_agrees {record args : List UInt8} {header : CallHeader}
    (h : decodeCall record = .ok (header, args)) :
    parseCall record = some (header.xid, header.proc) ∧
      ∃ a, authOf record = .ok a ∧
        (a.cred = [] ∧ a.verf = [] →
          (∀ maxData parms, header.proc = deviceWrite →
            DeviceWriteParms.decode args maxData = .ok parms →
            parseArgs record header.proc = some parms.call) ∧
          ∀ parms, header.proc = deviceRead → DeviceReadParms.decode args = .ok parms →
            parseArgs record header.proc = some parms.call) ∧
        (a.cred ≠ [] ∨ a.verf ≠ [] → parseArgs record header.proc = none) := by
  obtain ⟨hxid, hmtype, hproc, a, c, c', hc, hauth, rfl⟩ := decodeCall_eq_ok h
  obtain ⟨credLen, hcredLen, hcred, hverf⟩ := auth_eq_ok hc hauth
  refine ⟨by simp [parseCall, hxid, hmtype, hproc], a, authOf_eq_ok hc hauth, ?_, ?_⟩
  · rintro ⟨hcredEmpty, hverfEmpty⟩
    have hcredZero : credLen = 0 := UInt32.toNat_inj.mp (by simp [← hcred, hcredEmpty])
    obtain ⟨verfLen, hverfLen, hverfBody, hc'⟩ := hverf hcredZero
    have hverfZero : verfLen = 0 := UInt32.toNat_inj.mp (by simp [← hverfBody, hverfEmpty])
    -- the arguments are what follows the 40 bytes of header
    have hat := hc' hverfZero
    have hle : 40 ≤ record.length := by
      have hle := c'.le
      rwa [hat.data_eq, hat.pos_eq] at hle
    have hargs (off : Nat) : readU32 c'.rest off = readU32 record (40 + off) := by
      rw [rest_of_at hat, readU32_drop record 40 off hle]
    constructor
    · intro maxData parms hwrite hdecode
      obtain ⟨hio, hlock, hflags⟩ := DeviceWriteParms.decode_eq_ok hdecode
      rw [hargs] at hio hlock hflags
      simp [parseArgs, hcredLen, hcredZero, hverfLen, hverfZero, hwrite, hio, hlock, hflags,
        DeviceWriteParms.call]
    · intro parms hread hdecode
      obtain ⟨hsize, hio, hlock, hflags, hterm⟩ := DeviceReadParms.decode_eq_ok hdecode
      rw [hargs] at hsize hio hlock hflags hterm
      have hne : deviceRead ≠ deviceWrite := by decide
      simp [parseArgs, hcredLen, hcredZero, hverfLen, hverfZero, hread, hne, hsize, hio, hlock,
        hflags, hterm, DeviceReadParms.call]
  · intro hbody
    by_cases hcredZero : credLen = 0
    · have hcredEmpty : a.cred = [] := by simpa [hcredZero] using hcred
      obtain ⟨verfLen, hverfLen, hverfBody, -⟩ := hverf hcredZero
      have hverfNe : verfLen ≠ 0 := by
        rintro rfl
        exact hbody.elim (· hcredEmpty) (· (by simpa using hverfBody))
      simp [parseArgs, hcredLen, hcredZero, hverfLen, hverfNe]
    · simp [parseArgs, hcredLen, hcredZero]

/-- A device_read for link 1: 100 bytes, up to a line feed. -/
def readCall : List UInt8 :=
  be32 7 ++ be32 0 ++ be32 2 ++ be32 0x607AF ++ be32 1 ++ be32 12 ++ be32 0 ++ be32 0 ++ be32 0 ++
    be32 0 ++ be32 1 ++ be32 100 ++ be32 2000 ++ be32 0 ++ be32 0x80 ++ be32 0x0A

theorem observer_agrees_read :
    parseCall readCall = some (7, deviceRead) ∧
      parseArgs readCall deviceRead = some
        ⟨deviceRead, 2000, 0, 0x80, some 0x0A, some 100⟩ := by
  have h := @observer_agrees readCall (readCall.drop 40) ⟨7, 0x607AF, 1, deviceRead⟩
    (by decide +kernel)
  obtain ⟨hcall, a, hauth, hempty, -⟩ := h
  have ha : a = ⟨[], []⟩ := by
    have hnone : authOf readCall = .ok ⟨[], []⟩ := by decide +kernel
    exact Except.ok.inj (hauth.symm.trans hnone)
  exact ⟨hcall, (hempty (by simp [ha])).2 ⟨1, 100, 2000, 0, 0x80, 0x0A⟩ rfl (by decide +kernel)⟩

end TestGear.Vxi11.Rpc
