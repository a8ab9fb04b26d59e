import TestGear.Hislip.Channels

/-!
# TestGear.Hislip.Client

The client of `hislip/client.rs`, over the wire, with the synchronous channel of
the server at the other end: the session is in synchronized mode, and the client
has said how large a message it takes.

* `calls_over_the_wire` — what it is told is what the bridge made of its
  commands, one reply to a command at most, taken in turn.
-/

namespace TestGear.Hislip.Server

open Instrument Runs

/-- Largest server reply the client accepts for a single message. -/
def maxMessageSize : UInt64 := 16 * 1024 * 1024

/-- A protocol error, as it is printed. -/
def Error.display : Error → Text
  | .fatal code text => "fatal ".toList ++ natText code.toNat ++ " (".toList ++ text ++ ")".toList
  | .nonFatal code text => "non-fatal ".toList ++ natText code.toNat ++ " (".toList ++ text ++ ")".toList

/-! ## The client -/

inductive Call where
  | write (cmd : List UInt8)
  | trigger
  | query (cmd : List UInt8)
deriving DecidableEq, Repr

def Call.message (id : UInt32) : Call → Message
  | .write cmd | .query cmd => ⟨.dataEnd, 0, id, cmd⟩
  | .trigger => ⟨.trigger, 0, id, []⟩

/-- The message fits what the server takes. -/
def Call.Fits (maxLen : UInt64) (call : Call) : Prop := (call.message 0).payload.length ≤ maxLen.toNat

instance (maxLen : UInt64) (call : Call) : Decidable (call.Fits maxLen) :=
  inferInstanceAs (Decidable (_ ≤ _))

def mismatched (got id : UInt32) : Text :=
  "response MessageID ".toList ++ natText got.toNat ++ " does not match request ".toList ++
    natText id.toNat

/-- The loop of `query`, over what there is to be read: the answer, and what is
left to be read.  With nothing more there the client waits.  Every round takes a
header, so `rounds` is never the reason. -/
def collect (id : UInt32) :
    (rounds : ℕ) → (out stream : List UInt8) → Option (Except Text (List UInt8) × List UInt8)
  | 0, _, _ => none
  | rounds + 1, out, stream =>
      (readFrom maxMessageSize stream).bind fun r =>
        match r.1 with
        | .error e => some (.error ("read query response: protocol error: ".toList ++ e.display), r.2)
        | .ok msg =>
            match msg.messageType with
            | .data =>
                if msg.messageParameter ≠ id then some (.error (mismatched msg.messageParameter id), r.2)
                else collect id rounds (out ++ msg.payload) r.2
            | .dataEnd =>
                if msg.messageParameter ≠ id then some (.error (mismatched msg.messageParameter id), r.2)
                else some (.ok (out ++ msg.payload), r.2)
            | .interrupted =>
                some (.error ("query interrupted by a device clear (message id ".toList ++
                  natText msg.messageParameter.toNat ++ ")".toList), r.2)
            | .error => some (.error ("device error: ".toList ++ fromUtf8Lossy msg.payload), r.2)
            | .fatalError => some (.error ("fatal error: ".toList ++ fromUtf8Lossy msg.payload), r.2)
            | other => some (.error ("unexpected sync reply: ".toList ++ other.debug), r.2)

/-! ## Over the wire -/

/-- Both ends of the synchronous channel. -/
structure Connection where
  /-- The id of the client's next message. -/
  messageId : UInt32 := 0xFFFFFF00
  session : Session
  bus : VirtualInstrument
  /-- What has been sent to the client, and it has not read. -/
  incoming : List UInt8 := []
  /-- The server's loop has returned. -/
  done : Bool := false

namespace Connection

variable (cfg : UInt64) (supportsOverlapped : Bool)

/-- The server takes one message. -/
def round (c : Connection) (read : Except Error Message) : Connection :=
  if c.done then c
  else
    let round := syncLoop supportsOverlapped c.session c.bus read
    { c with
      session := round.session
      bus := round.bus
      incoming := c.incoming ++ round.sent.flatMap Message.writeTo
      done := round.done }

/-- The client sends bytes, and the server reads what messages there are in them. -/
def send (c : Connection) (bytes : List UInt8) : Connection :=
  (readAll c.session.protocol cfg bytes).foldl (round supportsOverlapped) c

/-- The handshake is done. -/
def new (pad : UInt8) (protocol : UInt16) (bus : VirtualInstrument) : Connection where
  session := { pad, protocol, clientMaxMessageSize := maxMessageSize }
  bus

/-- A call of the client's; `none` if it waits for a reply that does not come. -/
def step (c : Connection) (call : Call) : Option (Connection × Except Text (List UInt8)) :=
  let sent := { c with messageId := c.messageId + 2 }.send cfg supportsOverlapped
    (call.message c.messageId).writeTo
  match call with
  | .write _ | .trigger => some (sent, .ok [])
  | .query _ =>
      (collect c.messageId (sent.incoming.length + 1) [] sent.incoming).map fun r =>
        ({ sent with incoming := r.2 }, r.1)

end Connection

/-! ## Without it -/

/-- What a command is replied with. -/
def repliesTo (id : UInt32) : Except Text Execution → List (UInt32 × Except Text (List UInt8))
  | .error e => [(id, .error e)]
  | .ok execution => (execution.data.map fun data => (id, .ok data)).toList

/-- The instrument, and the replies there are, each with the id of its command. -/
structure Direct where
  messageId : UInt32 := 0xFFFFFF00
  bus : VirtualInstrument
  replies : List (UInt32 × Except Text (List UInt8)) := []

namespace Direct

/-- A command is run; it may be replied to. -/
def run (pad : UInt8) (d : Direct) (cmd : List UInt8) : Direct :=
  let executed := execute d.bus pad cmd (queryHint cmd)
  { messageId := d.messageId + 2
    bus := executed.1
    replies := d.replies ++ repliesTo d.messageId executed.2 }

/-- The first reply, as the answer to the query with this id. -/
def answer (id : UInt32) : UInt32 × Except Text (List UInt8) → Except Text (List UInt8)
  | (_, .error e) => .error ("device error: device error: ".toList ++ e)
  | (got, .ok data) => if got = id then .ok data else .error (mismatched got id)

def step (pad : UInt8) (d : Direct) : Call → Option (Direct × Except Text (List UInt8))
  | .write cmd => some (d.run pad cmd, .ok [])
  | .trigger => some ({ d with messageId := d.messageId + 2, bus := (d.bus.trigger pad).bus }, .ok [])
  | .query cmd =>
      match (d.run pad cmd).replies with
      | [] => none
      | reply :: replies => some ({ d.run pad cmd with replies }, answer d.messageId reply)

end Direct

/-- The message that a reply is sent as. -/
def replyMessage : UInt32 × Except Text (List UInt8) → Message
  | (_, .error e) => (Error.nonFatal unidentifiedError ("device error: ".toList ++ e)).message
  | (id, .ok data) => ⟨.dataEnd, 0, id, data⟩

/-- A reply that fits one message. -/
def Modest (reply : UInt32 × Except Text (List UInt8)) : Prop :=
  (replyMessage reply).payload.length ≤ 2 * maxRead

/-- What the session keeps to. -/
structure Session.Plain (pad : UInt8) (s : Session) : Prop where
  address : s.pad = pad
  synchronized : s.overlapped = false
  chunk : s.clientMaxMessageSize = maxMessageSize
  buffer : s.buffer = []

/-- The two ends, as they stand without the wire. -/
structure Connection.Shows (pad : UInt8) (c : Connection) (d : Direct) : Prop where
  messageId : c.messageId = d.messageId
  bus : c.bus = d.bus
  incoming : c.incoming = (d.replies.map replyMessage).flatMap Message.writeTo
  modest : ∀ reply ∈ d.replies, Modest reply
  session : c.session.Plain pad
  done : c.done = false

/-! ## One message -/

section

variable {maxLen : UInt64}

/-- What is written is read, with the rest left. -/
theorem readFrom_writeTo {m : Message} (htype : m.messageType.Allowed)
    (hfits : m.payload.length ≤ maxLen.toNat) (tail : List UInt8) :
    readFrom maxLen (m.writeTo ++ tail) = some (.ok m, tail) := by
  have hlt : m.payload.length < 2 ^ 64 := lt_of_le_of_lt hfits maxLen.toNat_lt
  have hlen : (UInt64.ofNat m.payload.length).toNat = m.payload.length :=
    UInt64.toNat_ofNat_of_lt' hlt
  have hread := @readFrom_header maxLen
    ⟨m.messageType.getMessageType, m.controlCode, m.messageParameter, UInt64.ofNat m.payload.length⟩
    (m.payload ++ tail)
  have hmax : ¬maxLen < UInt64.ofNat m.payload.length := by
    rw [UInt64.lt_iff_toNat_lt, hlen]
    omega
  rw [if_neg hmax, hlen, take_append_of_length rfl, drop_append_of_length rfl, received,
    fromMessageType_eq_some_iff.mpr ⟨htype, rfl⟩] at hread
  exact hread

/-- A message on its own is all there is to be read. -/
theorem readAll_writeTo {m : Message} (htype : m.messageType.Allowed)
    (hfits : m.payload.length ≤ maxLen.toNat) (protocol : UInt16) :
    readAll protocol maxLen m.writeTo = [.ok m] := by
  have hread := readFrom_writeTo htype hfits []
  rw [List.append_nil] at hread
  rw [readAll_of_readFrom hread]
  split
  · rfl
  · rfl

end

/-! ## What a command is replied -/

/-- No more data than one read, and no long error. -/
structure Short (result : Except Text Execution) : Prop where
  error : ∀ e, result = .error e → (asBytes e).length ≤ 64
  data : ∀ execution data, result = .ok execution → execution.data = some data → data.length ≤ maxRead

theorem length_asBytes_noInstrument (pad : UInt8) : (asBytes (noInstrument pad)).length ≤ 64 := by
  have hall : ∀ n < 256, (asBytes (noInstrument (UInt8.ofNat n))).length ≤ 64 := by decide +kernel
  have hpad := hall pad.toNat pad.toNat_lt
  rwa [UInt8.ofNat_toNat] at hpad

theorem short_of_fails {vi : VirtualInstrument} {op : Op} {e : Text} (h : vi.Fails op e) :
    (asBytes e).length ≤ 64 := by
  cases h with
  | absent => exact length_asBytes_noInstrument _
  | injected => decide +kernel
  | lines => decide +kernel
  | command => decide +kernel
  | atn => decide +kernel

theorem short_error {e : Text} (h : (asBytes e).length ≤ 64) : Short (.error e) where
  error e' he := by
    cases he
    exact h
  data _ _ h := by cases h

theorem short_ok {execution : Execution}
    (h : ∀ data, execution.data = some data → data.length ≤ maxRead) : Short (.ok execution) where
  error e he := by cases he
  data execution' data hsame := by
    cases hsame
    exact h data

theorem short_drain (vi : VirtualInstrument) (pad : UInt8) (notified : Bool)
    (serviceRequest : Option UInt8) : Short (drain vi pad notified serviceRequest).2 := by
  simp only [drain]
  cases hread : (heldRead vi pad maxRead).result with
  | error e => exact short_error (short_of_fails (VirtualInstrument.read_failed hread).2)
  | ok r =>
      obtain ⟨data, eoi⟩ := r
      have hdata : data.length ≤ maxRead := by
        cases hd : vi.devices pad with
        | none =>
            rw [heldRead, VirtualInstrument.read, hd] at hread
            cases hread
        | some dev =>
            obtain ⟨data', eoi', left, mss, hresult, -, hlaw⟩ :=
              VirtualInstrument.read_present hd (min maxRead maxRead)
            rw [heldRead, hresult] at hread
            cases hread
            exact hlaw.atMost.trans (Nat.min_le_left _ _)
      have hsome (serviceRequest : Option UInt8) : Short (.ok ⟨some data, serviceRequest⟩) := by
        refine short_ok fun data' h => ?_
        cases h
        exact hdata
      dsimp only
      split
      · exact short_error (by decide +kernel)
      · split
        · exact hsome _
        · exact hsome _

theorem short_execute (vi : VirtualInstrument) (pad : UInt8) (cmd : List UInt8) (expect : Bool) :
    Short (execute vi pad cmd expect).2 := by
  have hnone (serviceRequest : Option UInt8) : Short (.ok ⟨none, serviceRequest⟩) :=
    short_ok fun data h => by cases h
  simp only [execute]
  split
  · next e hwrite => exact short_error (short_of_fails (VirtualInstrument.write_failed hwrite).2)
  · split
    · exact short_drain _ _ _ _
    · split
      · exact hnone none
      · split
        · exact hnone _
        · exact short_drain _ _ _ _

theorem modest_repliesTo {result : Except Text Execution} (h : Short result) (id : UInt32) :
    ∀ reply ∈ repliesTo id result, Modest reply := by
  intro reply hreply
  cases result with
  | error e =>
      rw [repliesTo, List.mem_singleton] at hreply
      have he := h.error e rfl
      have hprefix : (asBytes "device error: ".toList).length = 14 := by decide
      have hbytes : (replyMessage reply).payload = asBytes "device error: ".toList ++ asBytes e := by
        rw [hreply]
        exact List.flatMap_append
      rw [Modest, hbytes, List.length_append, hprefix, maxRead]
      omega
  | ok execution =>
      rw [repliesTo, Option.mem_toList, Option.map_eq_some_iff] at hreply
      obtain ⟨data, hdata, rfl⟩ := hreply
      have hlen := h.data execution data rfl hdata
      show data.length ≤ 2 * maxRead
      omega

section

variable {s : Session}

/-- With that maximum, a reply is one message. -/
theorem writeResponse_one (hsync : s.overlapped = false) (hchunk : s.clientMaxMessageSize = maxMessageSize)
    (id : UInt32) {data : List UInt8} (hdata : data.length ≤ maxRead) :
    s.writeResponse id data = (s, [⟨.dataEnd, 0, id, data⟩]) := by
  have hone (chunk : List UInt8) : s.sendChunks id [chunk] = (s, [⟨.dataEnd, 0, id, chunk⟩]) := by
    simp [Session.sendChunks, Session.responseMessageId, hsync]
  have hmax : s.maxChunk = 16777200 := by
    rw [Session.maxChunk, hchunk]
    decide
  rw [Session.writeResponse]
  split
  · next hnil => rw [hnil, hone]
  · next hne =>
      have hlen : data.length ≤ s.maxChunk := by
        rw [hmax]
        rw [maxRead] at hdata
        omega
      have hchunks : chunksOf s.maxChunk data = [data] := by
        rw [chunksOf, if_neg (by simp [hne, hmax]), List.take_of_length_le hlen,
          List.drop_of_length_le hlen, chunksOf, if_pos (.inl rfl)]
      rw [hchunks, hone]

theorem sent_runCommand (hsync : s.overlapped = false) (hchunk : s.clientMaxMessageSize = maxMessageSize)
    (vi : VirtualInstrument) (id : UInt32) (cmd : List UInt8) :
    (runCommand s vi id cmd).sent =
      (repliesTo id (execute vi s.pad cmd (queryHint cmd)).2).map replyMessage := by
  have hshort := short_execute vi s.pad cmd (queryHint cmd)
  simp only [runCommand]
  cases hresult : (execute vi s.pad cmd (queryHint cmd)).2 with
  | error e => rfl
  | ok execution =>
      cases hdata : execution.data with
      | none =>
          simp only [repliesTo, hdata]
          rfl
      | some data =>
          have hlen := hshort.data execution data hresult hdata
          have hwrite := @writeResponse_one { s with mav := true } hsync hchunk id data hlen
          simp only [repliesTo, hdata, hwrite]
          rfl

variable {pad : UInt8}

theorem Session.Plain.runCommand (h : s.Plain pad) (vi : VirtualInstrument) (id : UInt32)
    (cmd : List UInt8) : (Server.runCommand s vi id cmd).session.Plain pad := by
  have hran := ran_runCommand s vi id cmd
  generalize Server.runCommand s vi id cmd = round at hran
  obtain ⟨s', bus, sent, done⟩ := round
  cases hran with
  | silent => exact ⟨h.address, h.synchronized, h.chunk, h.buffer⟩
  | answered => exact ⟨h.address, h.synchronized, h.chunk, h.buffer⟩

theorem Session.Plain.noteClientMessage (h : s.Plain pad) (msg : Message) :
    (s.noteClears.noteClientMessage msg).Plain pad := by
  obtain ⟨epoch, buffer, hclears⟩ := exists_noteClears s
  have hbuffer : s.noteClears.buffer = [] := by
    rw [Session.noteClears]
    split
    · rfl
    · exact h.buffer
  rw [hclears] at hbuffer ⊢
  exact ⟨h.address, h.synchronized, h.chunk, hbuffer⟩

end

/-! ## Calls -/

/-- The first reply there is answers the query. -/
theorem collect_reply (id : UInt32) {reply : UInt32 × Except Text (List UInt8)} (h : Modest reply)
    (rounds : ℕ) (tail : List UInt8) :
    collect id (rounds + 1) [] ((replyMessage reply).writeTo ++ tail) =
      some (Direct.answer id reply, tail) := by
  have hmax : 2 * maxRead ≤ maxMessageSize.toNat := by decide
  have hfits : (replyMessage reply).payload.length ≤ maxMessageSize.toNat := le_trans h hmax
  obtain ⟨got, result⟩ := reply
  cases result with
  | error e =>
      have hlossy : fromUtf8Lossy (asBytes ("device error: ".toList ++ e)) = "device error: ".toList ++ e :=
        fromUtf8Lossy_asBytes _
      have htype : (replyMessage (got, .error e)).messageType.Allowed := trivial
      rw [collect, readFrom_writeTo htype hfits, Option.bind_some]
      show some (Except.error ("device error: ".toList ++
        fromUtf8Lossy (asBytes ("device error: ".toList ++ e))), tail) = _
      rw [hlossy]
      rfl
  | ok data =>
      have htype : (replyMessage (got, .ok data)).messageType.Allowed := trivial
      rw [collect, readFrom_writeTo htype hfits, Option.bind_some]
      by_cases hgot : got = id
      · simp [replyMessage, Direct.answer, hgot]
      · simp [replyMessage, Direct.answer, hgot]

section

variable {cfg : UInt64} {supportsOverlapped : Bool} {pad : UInt8} {c : Connection} {d : Direct}

/-- The server runs a command. -/
theorem Connection.Shows.command (h : c.Shows pad d) (cmd : List UInt8) :
    ({ c with messageId := c.messageId + 2 }.round supportsOverlapped
      (.ok ⟨.dataEnd, 0, c.messageId, cmd⟩)).Shows pad (d.run pad cmd) := by
  have hplain := h.session.noteClientMessage ⟨.dataEnd, 0, c.messageId, cmd⟩
  have hloop : syncLoop supportsOverlapped c.session c.bus (.ok ⟨.dataEnd, 0, c.messageId, cmd⟩) =
      runCommand { c.session.noteClears.noteClientMessage ⟨.dataEnd, 0, c.messageId, cmd⟩ with buffer := [] }
        c.bus c.messageId cmd := by
    have hcmd : (c.session.noteClears.noteClientMessage ⟨.dataEnd, 0, c.messageId, cmd⟩).buffer ++ cmd = cmd := by
      rw [hplain.buffer, List.nil_append]
    simp only [syncLoop, hcmd]
  have hnow : Session.Plain pad
      { c.session.noteClears.noteClientMessage ⟨.dataEnd, 0, c.messageId, cmd⟩ with buffer := [] } :=
    ⟨hplain.address, hplain.synchronized, hplain.chunk, rfl⟩
  generalize { c.session.noteClears.noteClientMessage ⟨.dataEnd, 0, c.messageId, cmd⟩ with
    buffer := [] } = s at hloop hnow
  have hround : { c with messageId := c.messageId + 2 }.round supportsOverlapped
      (.ok ⟨.dataEnd, 0, c.messageId, cmd⟩) =
      { messageId := c.messageId + 2
        session := (runCommand s c.bus c.messageId cmd).session
        bus := (runCommand s c.bus c.messageId cmd).bus
        incoming := c.incoming ++ (runCommand s c.bus c.messageId cmd).sent.flatMap Message.writeTo
        done := (runCommand s c.bus c.messageId cmd).done } := by
    simp only [Connection.round, h.done, hloop, Bool.false_eq_true, if_false]
  have hsent := sent_runCommand hnow.synchronized hnow.chunk c.bus c.messageId cmd
  rw [hnow.address] at hsent
  rw [hround]
  refine ⟨congrArg (· + 2) h.messageId, ?_, ?_, ?_, hnow.runCommand _ _ _, done_runCommand _ _ _ _⟩
  · show (runCommand s c.bus c.messageId cmd).bus = _
    rw [bus_runCommand_fst, hnow.address, h.bus]
    rfl
  · show c.incoming ++ _ = _
    rw [hsent, h.incoming, Direct.run, List.map_append, List.flatMap_append, h.messageId, h.bus]
  · intro reply hreply
    rw [Direct.run, List.mem_append] at hreply
    cases hreply with
    | inl hold => exact h.modest reply hold
    | inr hnew => exact modest_repliesTo (short_execute _ _ _ _) _ reply hnew

/-- It is triggered. -/
theorem Connection.Shows.trigger (h : c.Shows pad d) :
    ({ c with messageId := c.messageId + 2 }.round supportsOverlapped
      (.ok ⟨.trigger, 0, c.messageId, []⟩)).Shows pad
      { d with messageId := d.messageId + 2, bus := (d.bus.trigger pad).bus } := by
  have hplain := h.session.noteClientMessage ⟨.trigger, 0, c.messageId, []⟩
  have haddress : c.session.noteClears.pad = pad := hplain.address
  simp only [Connection.round, h.done, syncLoop, Bool.false_eq_true, if_false]
  refine ⟨congrArg (· + 2) h.messageId, ?_, ?_, h.modest, hplain, rfl⟩
  · show (c.bus.trigger c.session.noteClears.pad).bus = _
    rw [haddress, h.bus]
  · exact (List.append_nil _).trans h.incoming

/-- What is sent in a call is one message to the server. -/
theorem send_message {call : Call} (hfits : call.Fits cfg) (id : UInt32) (c : Connection) :
    c.send cfg supportsOverlapped (call.message id).writeTo =
      c.round supportsOverlapped (.ok (call.message id)) := by
  have htype : (call.message id).messageType.Allowed := by cases call <;> trivial
  have hlen : (call.message id).payload.length ≤ cfg.toNat := by cases call <;> exact hfits
  rw [Connection.send, readAll_writeTo htype hlen]
  rfl

theorem Connection.Shows.step (h : c.Shows pad d) {call : Call} (hfits : call.Fits cfg) :
    Option.Rel (fun p q => p.1.Shows pad q.1 ∧ p.2 = q.2) (c.step cfg supportsOverlapped call)
      (d.step pad call) := by
  unfold Connection.step
  rw [send_message hfits]
  cases call with
  | write cmd => exact .some ⟨h.command cmd, rfl⟩
  | trigger => exact .some ⟨h.trigger, rfl⟩
  | query cmd =>
      have hran := @Connection.Shows.command supportsOverlapped pad c d h cmd
      simp only [Call.message, Direct.step]
      generalize { c with messageId := c.messageId + 2 }.round supportsOverlapped
        (.ok ⟨.dataEnd, 0, c.messageId, cmd⟩) = sent at hran
      rw [hran.incoming, h.messageId]
      cases hreplies : (d.run pad cmd).replies with
      | nil => exact .none
      | cons reply replies =>
          have hmodest : Modest reply := hran.modest reply (by rw [hreplies]; exact List.mem_cons_self)
          rw [List.map_cons, List.flatMap_cons, collect_reply _ hmodest]
          refine .some ⟨⟨hran.messageId, hran.bus, rfl, ?_, hran.session, hran.done⟩, rfl⟩
          intro reply' hreply'
          exact hran.modest reply' (by rw [hreplies]; exact List.mem_cons_of_mem reply hreply')

theorem trace_of_shows (h : c.Shows pad d) {calls : List Call} (hfits : ∀ call ∈ calls, call.Fits cfg) :
    trace (Connection.step cfg supportsOverlapped) c calls = trace (Direct.step pad) d calls := by
  induction calls generalizing c d with
  | nil => rfl
  | cons call calls ih =>
      have hstep := @Connection.Shows.step cfg supportsOverlapped pad c d h call
        (hfits call List.mem_cons_self)
      have hrest : ∀ call ∈ calls, call.Fits cfg := fun call' hcall =>
        hfits call' (List.mem_cons_of_mem call hcall)
      simp only [trace]
      cases hwire : c.step cfg supportsOverlapped call with
      | none =>
          rw [hwire] at hstep
          cases hdirect : d.step pad call with
          | none => rfl
          | some q => rw [hdirect] at hstep; cases hstep
      | some p =>
          rw [hwire] at hstep
          cases hdirect : d.step pad call with
          | none => rw [hdirect] at hstep; cases hstep
          | some q =>
              rw [hdirect] at hstep
              cases hstep with
              | some hboth => exact congrArg₂ List.cons hboth.2 (ih hboth.1 hrest)

/-- **Calls over the wire**: whatever a client writes, triggers and queries, it
is told what the bridge made of it: a query gets the first reply that there is,
its own unless a command before it was replied to as well, and waits if there is
none. -/
theorem calls_over_the_wire (supportsOverlapped : Bool) (pad : UInt8) (protocol : UInt16)
    (bus : VirtualInstrument) {calls : List Call} (hfits : ∀ call ∈ calls, call.Fits cfg) :
    trace (Connection.step cfg supportsOverlapped) (.new pad protocol bus) calls =
      trace (Direct.step pad) { bus } calls :=
  trace_of_shows ⟨rfl, rfl, rfl, fun _ h => absurd h List.not_mem_nil, ⟨rfl, rfl, rfl, rfl⟩, rfl⟩ hfits

/-- A trigger is an error, which the query behind it reads. -/
theorem calls_over_the_wire_triggered :
    trace (Connection.step (1024 * 1024) false) (.new 5 protocol20 (.new [5]))
        [.trigger, .query (asBytes "*ESR?".toList)] =
      [.ok [], .ok (asBytes "16\n".toList)] := by
  rw [calls_over_the_wire false 5 protocol20 (.new [5]) (by decide +kernel)]
  decide +kernel

end

end TestGear.Hislip.Server
