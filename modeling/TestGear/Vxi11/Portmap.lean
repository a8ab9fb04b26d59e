import TestGear.Vxi11.Calls

/-!
# TestGear.Vxi11.Portmap

The portmap responder and the clients that ask it.  Its table is fixed at
startup, and served over TCP, record-marked, and over UDP, a datagram a call.

* `decodeDumpReply_eq_ok_iff` — a dump is decoded off its own encoding only;
* `portmap_clients_agree` — whoever dumps the table knows what every other
  client is told;
* `tcp_answers_as_udp` — both transports give the same answers.
-/

namespace TestGear.Vxi11.Portmap

open Xdr Reader

def pmapProg : UInt32 := 100000

def pmapVers : UInt32 := 2

def pmapProcNull : UInt32 := 0

def pmapProcSet : UInt32 := 1

def pmapProcUnset : UInt32 := 2

def pmapProcGetport : UInt32 := 3

def pmapProcDump : UInt32 := 4

def pmapProcCallit : UInt32 := 5

/-- One (program, version, protocol) → port entry. -/
structure Mapping where
  prog : UInt32
  vers : UInt32
  prot : UInt32
  port : UInt32
deriving DecidableEq, Repr

def Mapping.layout : Layout Mapping where
  fields := [.u32, .u32, .u32, .u32]
  vals m := (m.prog, m.vers, m.prot, m.port, ())
  ofVals := fun (prog, vers, prot, port, ()) => { prog, vers, prot, port }
  ofVals_vals _ := rfl

/-! ## Dumps -/

/-- GETPORT's result: the port, or 0 for "not registered". -/
def encodeGetportReply (port : UInt32) : List UInt8 := putU32 port

/-- DUMP's result, an optional-data chain: each entry behind TRUE, then FALSE. -/
def encodeDumpReply (mappings : List Mapping) : List UInt8 :=
  mappings.flatMap (fun m => putBool true ++ Mapping.layout.encode m) ++ putBool false

/-- The loop of `decode_dump_reply`, with the `mappings` so far.  Every round
takes a word, so `rounds` is never the reason to stop. -/
def readDumpFrom : (rounds : ℕ) → List Mapping → Reader Cursor FieldError (List Mapping)
  | 0, _ => fun _ => .error (.xdr .truncated)
  | rounds + 1, mappings =>
      andThen Cursor.bool fun more =>
        if more then andThen Mapping.layout.read fun m => readDumpFrom rounds (mappings ++ [m])
        else fun c => .ok (mappings, c)

def decodeDumpReply (data : List UInt8) : Except FieldError (List Mapping) :=
  (readDumpFrom (data.length + 1) [] (Cursor.new data)).map Prod.fst

section

variable {rounds : ℕ} {ms mappings : List Mapping}

/-- A mapping in front of a dump. -/
theorem encodeDumpReply_cons (m : Mapping) (ms : List Mapping) :
    encodeDumpReply (m :: ms) = putBool true ++ (Mapping.layout.encode m ++ encodeDumpReply ms) := by
  simp [encodeDumpReply]

/-- A mapping has four words. -/
theorem length_encode_mapping (m : Mapping) : (Mapping.layout.encode m).length = 16 := rfl

/-- A dump has five for every mapping, and one to end with. -/
theorem length_encodeDumpReply (ms : List Mapping) : (encodeDumpReply ms).length = 20 * ms.length + 4 := by
  induction ms with
  | nil => rfl
  | cons m ms ih =>
      have hbool : (putBool true).length = 4 := rfl
      rw [encodeDumpReply_cons, List.length_append, List.length_append, length_encode_mapping, ih, hbool,
        List.length_cons]
      omega

/-- A dump is read back, mapping by mapping. -/
theorem reads_dump (h : ms.length < rounds) :
    Reads Cursor.rest (readDumpFrom rounds mappings) (encodeDumpReply ms) (mappings ++ ms) := by
  induction ms generalizing rounds mappings with
  | nil =>
      obtain ⟨n, rfl⟩ : ∃ n, rounds = n + 1 := ⟨rounds - 1, by omega⟩
      rw [List.append_nil, ← List.append_nil (encodeDumpReply [])]
      exact (reads_bool false).andThen (reads_pure mappings)
  | cons m ms ih =>
      obtain ⟨n, rfl⟩ : ∃ n, rounds = n + 1 := ⟨rounds - 1, by omega⟩
      have hrest := @ih n (mappings ++ [m]) (by simpa using h)
      rw [List.append_assoc, List.singleton_append] at hrest
      rw [encodeDumpReply_cons]
      refine (reads_bool true).andThen ?_
      rw [if_pos rfl]
      exact (Mapping.layout.reads_read rfl).andThen hrest

/-- A dump that is cut is `truncated`. -/
theorem cutBy_dump : CutBy Cursor.rest (readDumpFrom rounds mappings) (encodeDumpReply ms)
    (.xdr .truncated) := by
  induction rounds generalizing ms mappings with
  | zero => exact fun _ _ _ _ => rfl
  | succ n ih =>
      cases ms with
      | nil =>
          rw [← List.append_nil (encodeDumpReply [])]
          exact CutBy.andThen (reads_bool false) (cutBy_bool false) (cutBy_nil _ _)
      | cons m ms =>
          rw [encodeDumpReply_cons]
          refine CutBy.andThen (reads_bool true) (cutBy_bool true) ?_
          rw [if_pos rfl]
          exact CutBy.andThen (Mapping.layout.reads_read rfl) (Mapping.layout.cutBy_read rfl) ih

/-- Whatever is read as a dump is one. -/
theorem takes_dump {c c' : Cursor} {out : List Mapping}
    (h : readDumpFrom rounds mappings c = .ok (out, c')) :
    ∃ ms, out = mappings ++ ms ∧ c.rest = encodeDumpReply ms ++ c'.rest := by
  induction rounds generalizing c mappings with
  | zero => cases h
  | succ n ih =>
      obtain ⟨more, c₁, hbool, h⟩ := andThen_eq_ok h
      rw [takes_bool c more c₁ hbool]
      cases more with
      | false =>
          cases h
          exact ⟨[], (List.append_nil _).symm, rfl⟩
      | true =>
          rw [if_pos rfl] at h
          obtain ⟨m, c₂, hm, h⟩ := andThen_eq_ok h
          obtain ⟨ms, rfl, hc₂⟩ := ih h
          refine ⟨m :: ms, by rw [List.append_assoc, List.singleton_append], ?_⟩
          rw [Mapping.layout.takes_read rfl (fun _ => rfl) c₁ m c₂ hm, hc₂, encodeDumpReply_cons]
          simp only [List.append_assoc]

end

/-- A table that is dumped is read back, whatever stands behind it. -/
theorem decodeDumpReply_encode (ms : List Mapping) (tail : List UInt8) :
    decodeDumpReply (encodeDumpReply ms ++ tail) = .ok ms := by
  have hrounds : ms.length < (encodeDumpReply ms ++ tail).length + 1 := by
    rw [List.length_append, length_encodeDumpReply]
    omega
  obtain ⟨c', hread, -⟩ := @reads_dump _ ms [] hrounds (Cursor.new _) tail rfl
  rw [decodeDumpReply, hread]
  rfl

/-- **Dumps**: a reply is decoded as a table exactly if it begins with the
encoding of that table, and one cut short anywhere is refused as truncated. -/
theorem decodeDumpReply_eq_ok_iff (data : List UInt8) (ms : List Mapping) :
    (decodeDumpReply data = .ok ms ↔ ∃ tail, data = encodeDumpReply ms ++ tail) ∧
      ∀ back, back ≠ [] → data ++ back = encodeDumpReply ms →
        decodeDumpReply data = .error (.xdr .truncated) := by
  refine ⟨⟨fun h => ?_, ?_⟩, fun back hback hcut => ?_⟩
  · cases hread : readDumpFrom (data.length + 1) [] (Cursor.new data) with
    | error e =>
        rw [decodeDumpReply, hread] at h
        cases h
    | ok r =>
        rw [decodeDumpReply, hread] at h
        cases h
        obtain ⟨ms, hms, hrest⟩ := takes_dump hread
        rw [List.nil_append] at hms
        exact ⟨r.2.rest, by rw [hms, ← hrest]; rfl⟩
  · rintro ⟨tail, rfl⟩
    exact decodeDumpReply_encode ms tail
  · rw [decodeDumpReply, cutBy_dump (Cursor.new data) back hcut hback]
    rfl

/-! ## The responder -/

section

variable (table : List Mapping)

/-- The port of the first mapping that answers to what is wanted, whatever port
the caller puts there. -/
def lookup (wanted : Mapping) : UInt32 :=
  (table.find? fun m => m.prog = wanted.prog ∧ m.vers = wanted.vers ∧ m.prot = wanted.prot).elim 0
    Mapping.port

/-- What a procedure is answered with: a CALLIT with silence. -/
def serve (proc : UInt32) (args : List UInt8) : Option RpcReply :=
  if proc = pmapProcNull then some (.success [])
  else if proc = pmapProcGetport then
    match Mapping.layout.decode args with
    | .ok wanted => some (.success (encodeGetportReply (lookup table wanted)))
    | .error _ => some .garbageArgs
  else if proc = pmapProcDump then some (.success (encodeDumpReply table))
  else if proc = pmapProcSet ∨ proc = pmapProcUnset then some (.success (putBool false))
  else if proc = pmapProcCallit then none
  else some .procUnavail

/-- Dispatch one call.  `none` means "send nothing". -/
def dispatch (record : List UInt8) : Option (List UInt8) :=
  match Rpc.decodeCall record with
  | .ok (header, args) =>
      (if header.prog ≠ pmapProg then some .progUnavail
        else if header.vers ≠ pmapVers then some (.progMismatch pmapVers pmapVers)
        else serve table header.proc args).map (RpcReply.body header.xid)
  | .error (.rpcVersion xid _) => some (RpcReply.rpcMismatch.body xid)
  | .error _ => none

/-- A record or a datagram is read into a buffer of this size. -/
def bufSize : ℕ := 4096

/-- A datagram that is longer is cut. -/
def answerDatagram (datagram : List UInt8) : Option (List UInt8) :=
  dispatch table (datagram.take bufSize)

/-- What the UDP task sends for these datagrams. -/
def serveUdp (datagrams : List (List UInt8)) : List (List UInt8) :=
  datagrams.filterMap (answerDatagram table)

/-- What a TCP connection is sent for a stream; it ends with the first record
that gets no answer.  Every round takes a mark, so `rounds` is never the reason
to stop. -/
def serveTcpFrom : (rounds : ℕ) → (stream : List UInt8) → List UInt8
  | 0, _ => []
  | rounds + 1, stream =>
      match readRecord bufSize stream with
      | .ok (some record, stream) =>
          match (dispatch table record).bind writeRecord with
          | some bytes => bytes ++ serveTcpFrom rounds stream
          | none => []
      | _ => []

def serveTcp (stream : List UInt8) : List UInt8 := serveTcpFrom table (stream.length + 1) stream

end

/-! ## Its clients -/

/-- How a client of the portmapper fails. -/
inductive ClientError where
  | noAnswer
  | answered (body : ReplyBody)
  | badReply (error : ReplyError)
  | result (error : FieldError)
deriving DecidableEq, Repr

section

-- what comes back for a datagram, by the attempt; on UDP it may be nothing
variable (portmapper : ℕ → List UInt8 → Option (List UInt8)) (mapping : Mapping)

/-- The first answer, as far as it fits the client's buffer. -/
def firstAnswer (attempts bufLen : ℕ) (call : List UInt8) : Option (List UInt8) :=
  ((List.range attempts).findSome? (portmapper · call)).map (List.take bufLen)

/-- SET or UNSET; FALSE is an answer. -/
def setRegistration (register : Bool) : Except ClientError Bool :=
  let proc := if register then pmapProcSet else pmapProcUnset
  match firstAnswer portmapper 3 512 (encodeCall 1 pmapProg pmapVers proc (Mapping.layout.encode mapping)) with
  | none => .error .noAnswer
  | some reply =>
      match decodeReply reply 1 with
      | .ok (.success body) => ((Cursor.new body).bool.map Prod.fst).mapError .result
      | .ok body => .error (.answered body)
      | .error e => .error (.badReply e)

/-- Is a portmapper answering? -/
def probe : Bool :=
  match firstAnswer portmapper 2 128 (encodeCall 2 pmapProg pmapVers pmapProcNull []) with
  | none => false
  | some reply => (decodeReply reply 2).isOk

/-- Look up one mapping. -/
def getport : Except ClientError UInt32 :=
  match firstAnswer portmapper 1 128
      (encodeCall 3 pmapProg pmapVers pmapProcGetport (Mapping.layout.encode mapping)) with
  | none => .error .noAnswer
  | some reply =>
      match decodeReply reply 3 with
      | .ok (.success body) => ((Cursor.new body).u32.map Prod.fst).mapError fun e => .result (.xdr e)
      | .ok body => .error (.answered body)
      | .error e => .error (.badReply e)

end

section

variable {table : List Mapping}

/-- A call that decodes is served. -/
theorem dispatch_of_decodeCall {record args : List UInt8} {xid proc : UInt32}
    (h : Rpc.decodeCall record = .ok (⟨xid, pmapProg, pmapVers, proc⟩, args)) :
    dispatch table record = (serve table proc args).map (RpcReply.body xid) := by
  rw [dispatch, h]
  dsimp only
  rw [if_neg (fun h => h rfl), if_neg (fun h => h rfl)]

/-- A call that comes in, with whatever credentials. -/
theorem dispatch_callBytes (auth : Credentials) (xid proc : UInt32) (args : List UInt8) :
    dispatch table (callBytes auth xid pmapProg pmapVers proc args) =
      (serve table proc args).map (RpcReply.body xid) :=
  dispatch_of_decodeCall (decodeCall_callBytes auth xid pmapProg pmapVers proc args)

/-- The responder behind a network that loses some of the datagrams. -/
def lossy (table : List Mapping) (delivered : ℕ → Bool) : ℕ → List UInt8 → Option (List UInt8) :=
  fun attempt call => if delivered attempt then answerDatagram table call else none

/-- The first of the places where `p` holds, if there is one. -/
theorem findSome?_if {α : Type} (p : ℕ → Bool) (a : α) (is : List ℕ) :
    is.findSome? (fun i => if p i then some a else none) = if is.any p then some a else none := by
  induction is with
  | nil => rfl
  | cons i is ih =>
      rw [List.findSome?_cons, List.any_cons]
      cases p i with
      | false => exact ih
      | true => rfl

/-- Over a lossy way the answer comes if any attempt gets through. -/
theorem firstAnswer_lossy {delivered : ℕ → Bool} {attempts bufLen : ℕ} {call reply : List UInt8}
    (h : answerDatagram table call = some reply) (hlen : reply.length ≤ bufLen) :
    firstAnswer (lossy table delivered) attempts bufLen call =
      if (List.range attempts).any delivered then some reply else none := by
  simp only [firstAnswer, lossy, h, findSome?_if]
  split
  · rw [Option.map_some, List.take_of_length_le hlen]
  · rfl

/-- A call of a client that fits into a datagram. -/
theorem answerDatagram_encodeCall (xid proc : UInt32) {args : List UInt8} (h : args.length ≤ 16) :
    answerDatagram table (encodeCall xid pmapProg pmapVers proc args) =
      (serve table proc args).map (RpcReply.body xid) := by
  have hlen := length_callBytes xid pmapProg pmapVers proc args
  rw [answerDatagram, List.take_of_length_le (by rw [hlen, bufSize]; omega)]
  exact dispatch_callBytes .none xid proc args

/-- GETPORT is answered with what is looked up. -/
theorem serve_getport (m : Mapping) : serve table pmapProcGetport (Mapping.layout.encode m) =
    some (.success (encodeGetportReply (lookup table m))) := by
  have hdecode := Mapping.layout.decode_encode m [] (by simp [Mapping.layout, Layout.excess, firstExcess, Field.excess])
  rw [List.append_nil] at hdecode
  have hnull : pmapProcGetport ≠ pmapProcNull := by decide
  rw [serve, if_neg hnull, if_pos rfl, hdecode]
  rfl

/-- SET and UNSET are refused. -/
theorem serve_set (register : Bool) (args : List UInt8) :
    serve table (if register then pmapProcSet else pmapProcUnset) args = some (.success (putBool false)) := by
  cases register <;> rfl

/-- A reply is decoded to its results. -/
theorem decodeReply_success (xid : UInt32) (results : List UInt8) :
    decodeReply ((RpcReply.success results).body xid) xid = .ok (.success results) := by
  rw [decodeReply_body, if_pos rfl]
  rfl

/-- The port is learnt if the one attempt gets through. -/
theorem getport_lossy (delivered : ℕ → Bool) (m : Mapping) :
    getport (lossy table delivered) m =
      if delivered 0 then .ok (lookup table m) else .error .noAnswer := by
  have hanswer := @answerDatagram_encodeCall table 3 pmapProcGetport (Mapping.layout.encode m) le_rfl
  rw [serve_getport, Option.map_some] at hanswer
  have hlen := length_body_success 3 (encodeGetportReply (lookup table m))
  have hport : (encodeGetportReply (lookup table m)).length = 4 := length_be32 _
  obtain ⟨c', hread, -⟩ := reads_u32 (lookup table m) (Cursor.new (encodeGetportReply (lookup table m))) []
    (by rw [List.append_nil]; rfl)
  rw [getport, firstAnswer_lossy hanswer (by omega)]
  simp only [List.range_one, List.any_cons, List.any_nil, Bool.or_false]
  cases delivered 0 with
  | false => rfl
  | true =>
      simp only [if_true, decodeReply_success, hread]
      rfl

/-- A registration is refused if one of three attempts gets through. -/
theorem setRegistration_lossy (delivered : ℕ → Bool) (m : Mapping) (register : Bool) :
    setRegistration (lossy table delivered) m register =
      if (List.range 3).any delivered then .ok false else .error .noAnswer := by
  have hanswer := @answerDatagram_encodeCall table 1 (if register then pmapProcSet else pmapProcUnset)
    (Mapping.layout.encode m) le_rfl
  rw [serve_set, Option.map_some] at hanswer
  have hlen := length_body_success 1 (putBool false)
  have hbool : (putBool false).length = 4 := rfl
  obtain ⟨c', hread, -⟩ := reads_bool false (Cursor.new (putBool false)) [] (by rw [List.append_nil]; rfl)
  rw [setRegistration, firstAnswer_lossy hanswer (by omega)]
  cases (List.range 3).any delivered with
  | false => rfl
  | true =>
      simp only [if_true, decodeReply_success, hread]
      rfl

/-- A portmapper is found if one of two does. -/
theorem probe_lossy (delivered : ℕ → Bool) :
    probe (lossy table delivered) = (List.range 2).any delivered := by
  have hanswer := @answerDatagram_encodeCall table 2 pmapProcNull [] (Nat.zero_le _)
  have hserve : serve table pmapProcNull [] = some (.success []) := rfl
  rw [hserve, Option.map_some] at hanswer
  have hlen := length_body_success 2 []
  rw [probe, firstAnswer_lossy hanswer (by simp [hlen])]
  cases (List.range 2).any delivered with
  | false => rfl
  | true =>
      simp only [if_true, decodeReply_success]
      rfl

end

/-- **The clients agree**: a client that dumps the table learns all of it, and
every other one is told just what it says there, as far as the network lets its
datagrams through: the port of a mapping, that a portmapper answers, and that
nothing can be registered. -/
theorem portmap_clients_agree (table : List Mapping) (auth : Credentials) (xid : UInt32)
    (args : List UInt8) :
    ∃ reply results, dispatch table (callBytes auth xid pmapProg pmapVers pmapProcDump args) = some reply ∧
      decodeReply reply xid = .ok (.success results) ∧
      decodeDumpReply results = .ok table ∧ ∀ (delivered : ℕ → Bool) (m : Mapping),
        getport (lossy table delivered) m =
          (if delivered 0 then .ok (lookup table m) else .error .noAnswer) ∧
        (m ∈ table → ∃ m' ∈ table, m'.prog = m.prog ∧ m'.vers = m.vers ∧ m'.prot = m.prot ∧
          lookup table m = m'.port) ∧
        probe (lossy table delivered) = (delivered 0 || delivered 1) ∧
        ∀ register, setRegistration (lossy table delivered) m register =
          if delivered 0 || delivered 1 || delivered 2 then .ok false else .error .noAnswer := by
  refine ⟨_, encodeDumpReply table, dispatch_callBytes auth xid pmapProcDump args,
    decodeReply_success xid _, ?_, fun delivered m => ⟨getport_lossy delivered m, fun hm => ?_,
      by simp [probe_lossy, List.range_succ], fun register => ?_⟩⟩
  · have hread := decodeDumpReply_encode table []
    rwa [List.append_nil] at hread
  · have hsome : (table.find? fun m' => decide (m'.prog = m.prog ∧ m'.vers = m.vers ∧ m'.prot = m.prot)).isSome := by
      rw [List.find?_isSome]
      exact ⟨m, hm, by simp⟩
    obtain ⟨m', hfind⟩ := Option.isSome_iff_exists.mp hsome
    have hsame := List.find?_some hfind
    simp only [decide_eq_true_eq] at hsame
    exact ⟨m', List.mem_of_find?_eq_some hfind, hsame.1, hsame.2.1, hsame.2.2, by rw [lookup, hfind]; rfl⟩
  · rw [setRegistration_lossy]
    simp [List.range_succ, or_assoc]

/-! ## Two transports -/

/-- A record as one last fragment. -/
def lastFragment (record : List UInt8) : List UInt8 :=
  be32 (0x80000000 ||| UInt32.ofNat record.length) ++ record

section

variable {table : List Mapping}

/-- What the head of a reply adds to its results. -/
theorem length_body_le (xid : UInt32) {reply : RpcReply} {n : ℕ}
    (h : ∀ results, reply = .success results → results.length ≤ 8 + n) :
    (reply.body xid).length ≤ 32 + n := by
  have hheader (stat : UInt32) := length_accepted xid stat
  cases reply with
  | success results =>
      have := h results rfl
      rw [length_body_success]
      omega
  | progMismatch low high =>
      simp only [RpcReply.body, List.length_append, hheader, length_be32]
      omega
  | rpcMismatch =>
      simp only [RpcReply.body, List.length_append, length_be32]
      omega
  | progUnavail => exact (hheader 1).trans_le (by omega)
  | procUnavail => exact (hheader 3).trans_le (by omega)
  | garbageArgs => exact (hheader 4).trans_le (by omega)
  | systemErr => exact (hheader 5).trans_le (by omega)

/-- The longest results are a dump. -/
theorem length_serve_le {proc : UInt32} {args results : List UInt8}
    (h : serve table proc args = some (.success results)) : results.length ≤ 8 + 20 * table.length := by
  have hport (port : UInt32) : (encodeGetportReply port).length = 4 := length_be32 port
  have hbool : (putBool false).length = 4 := rfl
  rw [serve] at h
  split at h
  · cases h
    exact Nat.zero_le _
  split at h
  · split at h <;> cases h
    exact (hport _).trans_le (by omega)
  split at h
  · cases h
    exact (length_encodeDumpReply table).trans_le (by omega)
  split at h
  · cases h
    exact hbool.trans_le (by omega)
  split at h <;> cases h

/-- So replies are bounded by the table. -/
theorem length_dispatch_le {record reply : List UInt8} (h : dispatch table record = some reply) :
    reply.length ≤ 32 + 20 * table.length := by
  rw [dispatch] at h
  split at h
  · next header args hcall =>
      obtain ⟨r, hr, rfl⟩ := Option.map_eq_some_iff.mp h
      refine length_body_le _ fun results hresults => ?_
      subst hresults
      split at hr
      · cases hr
      split at hr
      · cases hr
      · exact length_serve_le hr
  · cases h
    exact length_body_le _ fun results hresults => by cases hresults
  · cases h

/-- And fit one fragment. -/
theorem writeRecord_dispatch (htable : 32 + 20 * table.length ≤ 0x7FFFFFFF) (record : List UInt8) :
    (dispatch table record).bind writeRecord = (dispatch table record).map lastFragment := by
  cases h : dispatch table record with
  | none => rfl
  | some reply =>
      have hlen := length_dispatch_le h
      rw [Option.bind_some, writeRecord, if_neg (by omega)]
      rfl

/-- The TCP loop answers call by call, whatever the fragments. -/
theorem serveTcpFrom_fragments (htable : 32 + 20 * table.length ≤ 0x7FFFFFFF)
    (calls : List (List Fragment × Fragment))
    (hcalls : ∀ call ∈ calls, (payloadOf call.1 call.2).length ≤ bufSize) {rounds : ℕ}
    (hrounds : calls.length < rounds) :
    serveTcpFrom table rounds (calls.flatMap fun call => fragmentBytes call.1 call.2) =
      (serveUdp table ((calls.map fun call => payloadOf call.1 call.2).takeWhile fun record =>
        (answerDatagram table record).isSome)).flatMap lastFragment := by
  induction calls generalizing rounds with
  | nil =>
      obtain ⟨n, rfl⟩ : ∃ n, rounds = n + 1 := ⟨rounds - 1, by omega⟩
      rfl
  | cons call calls ih =>
      obtain ⟨n, rfl⟩ : ∃ n, rounds = n + 1 := ⟨rounds - 1, by omega⟩
      have hlen := hcalls call List.mem_cons_self
      have hrec := @ih (fun c hc => hcalls c (List.mem_cons_of_mem _ hc)) n (by simpa using hrounds)
      rw [List.flatMap_cons, serveTcpFrom, readRecord_fragments, if_pos hlen, List.map_cons,
        List.takeWhile_cons]
      dsimp only
      rw [writeRecord_dispatch htable]
      have hcut : answerDatagram table (payloadOf call.1 call.2) =
          dispatch table (payloadOf call.1 call.2) := by
        rw [answerDatagram, List.take_of_length_le hlen]
      rw [hcut]
      cases hdispatch : dispatch table (payloadOf call.1 call.2) with
      | none => rfl
      | some reply =>
          rw [hdispatch] at hcut
          simp only [Option.map_some, Option.isSome_some, if_true, serveUdp, List.filterMap_cons, hcut,
            List.flatMap_cons]
          rw [hrec]
          rfl

end

/-- **Two transports, one table**: however its calls are cut into fragments, a
TCP connection is sent the answers that datagrams of the same calls get, each in
a record of its own, up to the first call that gets none. -/
theorem tcp_answers_as_udp (table : List Mapping) (htable : 32 + 20 * table.length ≤ 0x7FFFFFFF)
    (calls : List (List Fragment × Fragment))
    (hcalls : ∀ call ∈ calls, (payloadOf call.1 call.2).length ≤ bufSize) :
    serveTcp table (calls.flatMap fun call => fragmentBytes call.1 call.2) =
      (serveUdp table ((calls.map fun call => payloadOf call.1 call.2).takeWhile fun record =>
        (answerDatagram table record).isSome)).flatMap lastFragment := by
  refine serveTcpFrom_fragments htable calls hcalls (Nat.lt_succ_of_le ?_)
  clear hcalls
  induction calls with
  | nil => exact Nat.zero_le _
  | cons call calls ih =>
      have := length_le_fragmentBytes call.1 call.2
      rw [List.flatMap_cons, List.length_append, List.length_cons]
      omega

/-- A call for the port of the core channel, cut inside its header. -/
def getportCall : List Fragment × Fragment :=
  let call := encodeCall 7 pmapProg pmapVers pmapProcGetport (Mapping.layout.encode ⟨0x0607AF, 1, 6, 0⟩)
  ([⟨call.take 10, by decide +kernel⟩], ⟨call.drop 10, by decide +kernel⟩)

/-- A CALLIT, which nobody answers. -/
def callitCall : List Fragment × Fragment :=
  ([], ⟨encodeCall 8 pmapProg pmapVers pmapProcCallit [], by decide +kernel⟩)

/-- The first call is answered with the port, the second with silence, and the
third, which a datagram would get an answer to, is not read. -/
theorem tcp_answers_as_udp_two :
    let table : List Mapping := [⟨0x0607AF, 1, 6, 1024⟩]
    let calls := [getportCall, callitCall, getportCall]
    serveTcp table (calls.flatMap fun call => fragmentBytes call.1 call.2) =
        lastFragment ((RpcReply.success (encodeGetportReply 1024)).body 7) ∧
      (serveUdp table (calls.map fun call => payloadOf call.1 call.2)).length = 2 := by
  have hcalls : ∀ call ∈ [getportCall, callitCall, getportCall],
      (payloadOf call.1 call.2).length ≤ bufSize := by decide +kernel
  have htable : 32 + 20 * [(⟨0x0607AF, 1, 6, 1024⟩ : Mapping)].length ≤ 0x7FFFFFFF := by decide
  refine ⟨?_, by decide +kernel⟩
  rw [tcp_answers_as_udp _ htable _ hcalls]
  decide +kernel

end TestGear.Vxi11.Portmap
