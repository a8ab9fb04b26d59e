import TestGear.Bytes
import TestGear.Hislip.Bridge
import TestGear.Control.Scripted

/-!
# TestGear.Hislip.Server

The synchronous channel of a HiSLIP session, `hislip/server.rs`: one round of
`sync_loop` for what was read off the socket, and `write_response`, which cuts a
reply into messages that fit the client's maximum.

Cutting loses nothing (`writeResponse_whole`), so what reaches the client is
what the bridge read — and that is one read, which need not be the whole reply
(`big_reply_iff`).
-/

namespace TestGear.Hislip.Server

open Instrument

/-! ## Messages -/

/-- Message types from Table 4 of the specification. -/
inductive MessageType where
  | init
  | initializeResponse
  | fatalError
  | error
  | asyncLock
  | asyncLockResponse
  | data
  | dataEnd
  | deviceClearComplete
  | deviceClearAcknowledge
  | asyncRemoteLocalControl
  | asyncRemoteLocalResponse
  | trigger
  | interrupted
  | asyncInterrupted
  | asyncMaximumMessageSize
  | asyncMaximumMessageSizeResponse
  | asyncInitialize
  | asyncInitializeResponse
  | asyncDeviceClear
  | asyncServiceRequest
  | asyncStatusQuery
  | asyncStatusResponse
  | asyncDeviceClearAcknowledge
  | asyncLockInfo
  | asyncLockInfoResponse
  | getDescriptors
  | getDescriptorsResponse
  | startTls
  | asyncStartTls
  | asyncStartTlsResponse
  | endTls
  | asyncEndTls
  | asyncEndTlsResponse
  | getSaslMechanismList
  | getSaslMechanismListResponse
  | authenticationStart
  | authenticationExchange
  | authenticationResult
  | vendorSpecific (code : UInt8)
deriving DecidableEq, Repr

/-- A message type as the log prints it. -/
def MessageType.debug : MessageType → Text
  | .init => "Initialize".toList
  | .initializeResponse => "InitializeResponse".toList
  | .fatalError => "FatalError".toList
  | .error => "Error".toList
  | .asyncLock => "AsyncLock".toList
  | .asyncLockResponse => "AsyncLockResponse".toList
  | .data => "Data".toList
  | .dataEnd => "DataEnd".toList
  | .deviceClearComplete => "DeviceClearComplete".toList
  | .deviceClearAcknowledge => "DeviceClearAcknowledge".toList
  | .asyncRemoteLocalControl => "AsyncRemoteLocalControl".toList
  | .asyncRemoteLocalResponse => "AsyncRemoteLocalResponse".toList
  | .trigger => "Trigger".toList
  | .interrupted => "Interrupted".toList
  | .asyncInterrupted => "AsyncInterrupted".toList
  | .asyncMaximumMessageSize => "AsyncMaximumMessageSize".toList
  | .asyncMaximumMessageSizeResponse => "AsyncMaximumMessageSizeResponse".toList
  | .asyncInitialize => "AsyncInitialize".toList
  | .asyncInitializeResponse => "AsyncInitializeResponse".toList
  | .asyncDeviceClear => "AsyncDeviceClear".toList
  | .asyncServiceRequest => "AsyncServiceRequest".toList
  | .asyncStatusQuery => "AsyncStatusQuery".toList
  | .asyncStatusResponse => "AsyncStatusResponse".toList
  | .asyncDeviceClearAcknowledge => "AsyncDeviceClearAcknowledge".toList
  | .asyncLockInfo => "AsyncLockInfo".toList
  | .asyncLockInfoResponse => "AsyncLockInfoResponse".toList
  | .getDescriptors => "GetDescriptors".toList
  | .getDescriptorsResponse => "GetDescriptorsResponse".toList
  | .startTls => "StartTLS".toList
  | .asyncStartTls => "AsyncStartTLS".toList
  | .asyncStartTlsResponse => "AsyncStartTLSResponse".toList
  | .endTls => "EndTLS".toList
  | .asyncEndTls => "AsyncEndTLS".toList
  | .asyncEndTlsResponse => "AsyncEndTLSResponse".toList
  | .getSaslMechanismList => "GetSaslMechanismList".toList
  | .getSaslMechanismListResponse => "GetSaslMechanismListResponse".toList
  | .authenticationStart => "AuthenticationStart".toList
  | .authenticationExchange => "AuthenticationExchange".toList
  | .authenticationResult => "AuthenticationResult".toList
  | .vendorSpecific code => "VendorSpecific(".toList ++ natText code.toNat ++ ")".toList

structure Message where
  messageType : MessageType
  controlCode : UInt8
  messageParameter : UInt32
  payload : List UInt8
deriving DecidableEq, Repr

/-- What the session answers a bad message with.  The codes are those of the
specification. -/
inductive Error where
  | fatal (code : UInt8) (message : Text)
  | nonFatal (code : UInt8) (message : Text)
deriving DecidableEq, Repr

/-- Non-fatal: unidentified error. -/
def unidentifiedError : UInt8 := 0

/-- Non-fatal: unrecognized message type. -/
def unrecognizedMessageType : UInt8 := 1

/-- Fatal: a secure connection failed. -/
def secureConnectionFailed : UInt8 := 5

/-- An error, as it is sent. -/
def Error.message : Error → Message
  | .fatal code text => ⟨.fatalError, code, 0, asBytes text⟩
  | .nonFatal code text => ⟨.error, code, 0, asBytes text⟩

/-! ## Sessions -/

/-- Something the session needs written on the async channel. -/
inductive AsyncPush where
  | serviceRequest (stb : UInt8)
  | fatal (code : UInt8) (message : Text)
deriving DecidableEq, Repr

/-- Depth of the self-raised service request queue. -/
def srqQueueDepth : Nat := 4

/-- The first protocol version that has TLS. -/
def protocol20 : UInt16 := 0x0200

/-- A session, with what `sync_loop` keeps between messages. -/
structure Session where
  /-- The primary address of the session's device. -/
  pad : UInt8
  protocol : UInt16 := protocol20
  /-- The maximum the client says it can receive. -/
  clientMaxMessageSize : UInt64
  /-- The last status byte consumed on this client's behalf. -/
  consumedStb : Option UInt8 := none
  /-- Bumped by every device clear. -/
  clearEpoch : UInt64 := 0
  /-- This client has a response it has not consumed. -/
  mav : Bool := false
  lastMessageId : UInt32 := 0xFFFFFEFE
  overlapped : Bool := false
  nextServerMessageId : UInt32 := 0xFFFFFF00
  /-- What waits for the async channel. -/
  asyncQueue : List AsyncPush := []
  /-- The message assembled so far, and the clear it is from. -/
  buffer : List UInt8 := []
  epoch : UInt64 := 0
deriving DecidableEq, Repr

namespace Session

/-- `try_send`: a full queue drops. -/
def push (s : Session) (push : AsyncPush) : Session :=
  if s.asyncQueue.length < srqQueueDepth then { s with asyncQueue := s.asyncQueue ++ [push] } else s

/-- Note a Data, DataEND or Trigger arriving from the client. -/
def noteClientMessage (s : Session) (msg : Message) : Session :=
  { s with
    lastMessageId := msg.messageParameter
    -- RMT-delivered: the client has consumed the previous response
    mav := s.mav && msg.controlCode &&& 1 == 0
    consumedStb := none }

/-- Push a service request observed on this session's behalf. -/
def raiseServiceRequest (s : Session) (stb : UInt8) : Session :=
  { s with consumedStb := some stb }.push (.serviceRequest stb)

/-- Enter the mode a device clear agreed on. -/
def setOverlapped (s : Session) (overlapped : Bool) : Session :=
  { s with mav := false, overlapped, nextServerMessageId := 0xFFFFFF00 }

/-- A device clear since the last message voids a half-assembled one. -/
def noteClears (s : Session) : Session :=
  if s.clearEpoch ≠ s.epoch then { s with epoch := s.clearEpoch, buffer := [] } else s

/-- MessageID for a Data or DataEND about to be sent: the next one of the
server's own, or that of the message that asked for it. -/
def responseMessageId (s : Session) (requestId : UInt32) : Session × UInt32 :=
  if s.overlapped then
    ({ s with nextServerMessageId := s.nextServerMessageId + 2 }, s.nextServerMessageId)
  else (s, requestId)

/-! ## Replies -/

/-- Smallest response chunk, whatever the client declared. -/
def minChunk : Nat := 256

/-- Room for a payload behind the 16 bytes of a header. -/
def maxChunk (s : Session) : Nat := max (s.clientMaxMessageSize.toNat - 16) minChunk

/-- One message for each chunk, the last one a DataEND. -/
def sendChunks (s : Session) (requestId : UInt32) : List (List UInt8) → Session × List Message
  | [] => (s, [])
  | chunk :: rest =>
      let (s, id) := s.responseMessageId requestId
      let sent := s.sendChunks requestId rest
      (sent.1, ⟨if rest.isEmpty then .dataEnd else .data, 0, id, chunk⟩ :: sent.2)

/-- Push a reply on the sync channel. -/
def writeResponse (s : Session) (requestId : UInt32) (data : List UInt8) : Session × List Message :=
  -- an empty reply is still a reply
  if data = [] then s.sendChunks requestId [[]]
  else s.sendChunks requestId (chunksOf s.maxChunk data)

end Session

/-! ## The loop -/

/-- What one round of the loop leaves: `done` says that it returned. -/
structure Round where
  session : Session
  bus : VirtualInstrument
  sent : List Message := []
  done : Bool := false

/-- A complete message: run it, and send what it is answered with. -/
def runCommand (s : Session) (vi : VirtualInstrument) (requestId : UInt32) (cmd : List UInt8) :
    Round :=
  let executed := execute vi s.pad cmd (queryHint cmd)
  match executed.2 with
  | .error e =>
      { session := s
        bus := executed.1
        sent := [(Error.nonFatal unidentifiedError ("device error: ".toList ++ e)).message] }
  | .ok execution =>
      let answered := match execution.data with
        | some data => { s with mav := true }.writeResponse requestId data
        | none => (s, [])
      -- raised after the reply is on the wire
      let raised := match execution.serviceRequest with
        | some stb => answered.1.raiseServiceRequest stb
        | none => answered.1
      { session := raised, bus := executed.1, sent := answered.2 }

/-- One round of `sync_loop`, for what was read off the socket.  Where the
session waits for a lock it has it; `supportsOverlapped` is the server's. -/
def syncLoop (supportsOverlapped : Bool) (s : Session) (vi : VirtualInstrument) :
    Except Error Message → Round
  | .error (.fatal code text) =>
      -- reported on both channels
      { session := s.push (.fatal code text)
        bus := vi
        sent := [(Error.fatal code text).message]
        done := true }
  | .error (.nonFatal code text) =>
      { session := s, bus := vi, sent := [(Error.nonFatal code text).message] }
  | .ok msg =>
      let s := s.noteClears
      match msg.messageType with
      | .data =>
          let s := s.noteClientMessage msg
          { session := { s with buffer := s.buffer ++ msg.payload }, bus := vi }
      | .dataEnd =>
          let s := s.noteClientMessage msg
          runCommand { s with buffer := [] } vi msg.messageParameter (s.buffer ++ msg.payload)
      | .trigger => { session := s.noteClientMessage msg, bus := (vi.trigger s.pad).bus }
      | .deviceClearComplete =>
          let overlapped := msg.controlCode &&& 1 != 0 && supportsOverlapped
          { session := s.setOverlapped overlapped
            bus := vi
            sent := [⟨.deviceClearAcknowledge, if overlapped then 1 else 0, 0, []⟩] }
      | .fatalError => { session := s, bus := vi, done := true }
      | .error => { session := s, bus := vi }
      | other =>
          let tls := [.startTls, .endTls, .getSaslMechanismList, .authenticationStart,
            .authenticationExchange].contains other
          if tls && protocol20 ≤ s.protocol then
            let error := Error.fatal secureConnectionFailed "TLS/SASL not supported".toList
            { session := s.push (.fatal secureConnectionFailed "TLS/SASL not supported".toList)
              bus := vi
              sent := [error.message]
              done := true }
          else
            let error := Error.nonFatal unrecognizedMessageType
              ("unexpected sync message: ".toList ++ other.debug)
            { session := s, bus := vi, sent := [error.message] }

/-! ## What a reply becomes -/

/-- Any number of Data messages and one DataEND, with this payload in all. -/
structure Whole (sent : List Message) (payload : List UInt8) : Prop where
  ends : ∃ parts last, sent = parts ++ [last] ∧ (∀ m ∈ parts, m.messageType = .data) ∧
    last.messageType = .dataEnd
  payload : sent.flatMap Message.payload = payload

theorem payloads_sendChunks (s : Session) (requestId : UInt32) (cs : List (List UInt8)) :
    (s.sendChunks requestId cs).2.map Message.payload = cs := by
  induction cs generalizing s with
  | nil => rfl
  | cons chunk rest ih =>
      have hrest := ih (s.responseMessageId requestId).1
      rw [Session.sendChunks, List.map_cons, hrest]

theorem sendChunks_ends (s : Session) (requestId : UInt32) {cs : List (List UInt8)} (h : cs ≠ []) :
    ∃ parts last, (s.sendChunks requestId cs).2 = parts ++ [last] ∧
      (∀ m ∈ parts, m.messageType = .data) ∧ last.messageType = .dataEnd := by
  induction cs generalizing s with
  | nil => exact absurd rfl h
  | cons chunk rest ih =>
      cases rest with
      | nil => exact ⟨[], _, rfl, fun m hm => absurd hm List.not_mem_nil, rfl⟩
      | cons next more =>
          obtain ⟨parts, last, hsent, hparts, hlast⟩ :=
            ih (s.responseMessageId requestId).1 (List.cons_ne_nil _ _)
          refine ⟨⟨.data, 0, (s.responseMessageId requestId).2, chunk⟩ :: parts, last, ?_, ?_, hlast⟩
          · rw [List.cons_append, ← hsent]
            rfl
          · intro m hm
            cases List.mem_cons.mp hm with
            | inl hfirst => rw [hfirst]
            | inr hrest => exact hparts m hrest

theorem sendChunks_whole (s : Session) (requestId : UInt32) {cs : List (List UInt8)} (h : cs ≠ []) :
    Whole (s.sendChunks requestId cs).2 cs.flatten where
  ends := sendChunks_ends s requestId h
  payload := by rw [List.flatMap_def, payloads_sendChunks]

theorem maxChunk_pos (s : Session) : 0 < s.maxChunk := by
  have := Nat.le_max_right (s.clientMaxMessageSize.toNat - 16) Session.minChunk
  exact Nat.lt_of_lt_of_le (by decide) this

/-- **Cutting a reply** loses nothing, whatever the client's maximum. -/
theorem writeResponse_whole (s : Session) (requestId : UInt32) (data : List UInt8) :
    Whole (s.writeResponse requestId data).2 data := by
  by_cases hdata : data = []
  · rw [Session.writeResponse, if_pos hdata, hdata]
    exact sendChunks_whole s requestId (List.cons_ne_nil _ _)
  · have hflatten := flatten_chunksOf (maxChunk_pos s) data
    have hne : chunksOf s.maxChunk data ≠ [] := by
      intro hnil
      rw [hnil] at hflatten
      exact hdata hflatten.symm
    have hwhole := sendChunks_whole s requestId hne
    rw [hflatten] at hwhole
    rwa [Session.writeResponse, if_neg hdata]

/-- No message, header included, exceeds the client's maximum, unless that is
too small to be meant. -/
theorem writeResponse_fits (s : Session) (requestId : UInt32) (data : List UInt8) :
    ∀ m ∈ (s.writeResponse requestId data).2,
      16 + m.payload.length ≤ max s.clientMaxMessageSize.toNat (16 + Session.minChunk) := by
  intro m hm
  have hlength : m.payload.length ≤ s.maxChunk := by
    have hpayload := List.mem_map_of_mem (f := Message.payload) hm
    by_cases hdata : data = []
    · rw [Session.writeResponse, if_pos hdata, payloads_sendChunks, List.mem_singleton] at hpayload
      rw [hpayload]
      exact Nat.zero_le _
    · rw [Session.writeResponse, if_neg hdata, payloads_sendChunks] at hpayload
      exact length_le_of_mem_chunksOf hpayload
  rw [Session.maxChunk] at hlength
  omega

/-- An error is no reply. -/
theorem not_whole_error (e : Error) (payload : List UInt8) : ¬ Whole [e.message] payload := by
  rintro ⟨⟨parts, last, hsent, -, hlast⟩, -⟩
  have hone : e.message = last := by simpa using congrArg List.getLast? hsent
  rw [← hone] at hlast
  cases e <;> cases hlast

/-! ## What a query is answered with -/

/-- One read of at most `maxLen` takes the whole queue. -/
structure OneRead (eos : UInt8 × Bool) (maxLen : Nat) (queue : List UInt8) : Prop where
  length : queue.length ≤ maxLen
  eos : eos.2 = true → ∀ i, queue[i]? = some eos.1 → i + 1 = queue.length

theorem left_eq_nil_iff {eos : UInt8 × Bool} {maxLen : Nat} {queue data left : List UInt8}
    {eoi : Bool} (h : VirtualInstrument.ReadLaw eos maxLen queue data left eoi) :
    left = [] ↔ OneRead eos maxLen queue := by
  constructor
  · rintro rfl
    have hall : data = queue := by simpa using h.conserves
    rw [← hall]
    exact ⟨h.atMost, h.eosLast⟩
  · intro hone
    by_contra hleft
    have hpos := List.length_pos_iff.mpr hleft
    have hlen := congrArg List.length h.conserves
    rw [List.length_append] at hlen
    have hshort : data.length < maxLen := by have := hone.length; omega
    obtain ⟨hon, hlast⟩ := h.early hshort hleft
    rw [List.getLast?_eq_getElem?] at hlast
    have hlt : data.length - 1 < data.length :=
      (List.getElem?_eq_some_iff.mp hlast).1
    have hqueue : queue[data.length - 1]? = some eos.1 := by
      rw [← h.conserves, List.getElem?_append_left hlt, hlast]
    have := hone.eos hon _ hqueue
    omega

section

variable {s : Session} {vi : VirtualInstrument} {cmd reply : List UInt8}

theorem bus_runCommand (hquery : queryHint cmd = true) (requestId : UInt32) :
    (runCommand s vi requestId cmd).bus = (execute vi s.pad cmd true).1 := by
  simp only [runCommand, hquery]
  split <;> rfl

/-- What is sent for a query is what was read. -/
theorem whole_sent_iff (hquery : queryHint cmd = true) (hreply : reply ≠ []) (requestId : UInt32)
    {data : List UInt8} {eoi : Bool} (h : Drained data eoi (execute vi s.pad cmd true).2) :
    Whole (runCommand s vi requestId cmd).sent reply ↔ data = reply := by
  simp only [runCommand, hquery]
  generalize (execute vi s.pad cmd true).2 = result at h
  cases h with
  | silent hdata heoi e =>
      refine ⟨fun h => absurd h (not_whole_error _ _), fun h => ?_⟩
      exact absurd (h.symm.trans hdata) hreply
  | data hsome serviceRequest =>
      have hwhole := writeResponse_whole { s with mav := true } requestId data
      constructor
      · intro hother
        exact hwhole.payload.symm.trans hother.payload
      · rintro rfl
        exact hwhole

/-- **A query** is answered with the whole reply, and nothing of it left, just
when that is what the device queues and one read takes it. -/
theorem runCommand_whole_iff {dev : Device} (hf : vi.faults.failNextWrite = false)
    (hd : vi.devices s.pad = some dev) (requestId : UInt32) (hquery : queryHint cmd = true)
    (hreply : reply ≠ []) :
    (Whole (runCommand s vi requestId cmd).sent reply ∧
      ((runCommand s vi requestId cmd).bus.devices s.pad).map Device.output = some []) ↔
    (dev.receive cmd true).output = reply ∧ OneRead vi.eos maxRead reply := by
  obtain ⟨data, left, eoi, hlaw, hdrained, -, dev', hd', hleft⟩ := execute_query hf hd cmd
  rw [whole_sent_iff hquery hreply requestId hdrained, bus_runCommand hquery, hd', Option.map_some,
    hleft, Option.some.injEq]
  constructor
  · rintro ⟨rfl, rfl⟩
    have hqueue : (dev.receive cmd true).output = data := by simpa using hlaw.conserves.symm
    rw [hqueue] at hlaw
    exact ⟨hqueue, (left_eq_nil_iff hlaw).mp rfl⟩
  · rintro ⟨hqueue, hone⟩
    rw [hqueue] at hlaw
    have hnil := (left_eq_nil_iff hlaw).mpr hone
    have hconserves := hlaw.conserves
    rw [hnil, List.append_nil] at hconserves
    exact ⟨hconserves, hnil⟩

end

/-! ## The big query -/

/-- The digits over and over. -/
def digits (n : Nat) : List UInt8 := (List.range n).map fun i => 0x30 + UInt8.ofNat (i % 10)

/-- The query for the big reply. -/
def bigQuery : Text := "TEST:BIG?".toList

theorem queryHint_bigQuery : queryHint (asBytes bigQuery) = true := by decide

theorem asBytes_bigReply (n : Nat) : asBytes (bigReply n) = digits n := by
  have hdigit : ∀ d < 10, String.utf8EncodeChar (Char.ofNat ('0'.toNat + d)) =
      [0x30 + UInt8.ofNat d] := by decide
  rw [asBytes, bigReply, List.flatMap_map, digits, List.map_eq_flatMap]
  exact List.flatMap_congr fun i _ => hdigit (i % 10) (Nat.mod_lt i (by decide))

theorem digits_newline_ne_nil (n : Nat) : digits n ++ [0x0A] ≠ [] :=
  List.append_ne_nil_of_right_ne_nil _ (List.cons_ne_nil _ _)

/-- The big reply reached the client whole, and left nothing behind. -/
structure Arrives (n : Nat) (pad : UInt8) (round : Round) : Prop where
  whole : Whole round.sent (digits n ++ [0x0A])
  drained : (round.bus.devices pad).map Device.output = some []

/-- The query is the built-in one: with nothing pending and nothing queued it is
not scripted, or with the same text.  Behind other input it is a part of what the
device takes for a message, and that is run. -/
def Asked (dev : Device) : Prop :=
  if dev.input = [] ∧ dev.output = [] then
    ∀ text, dev.responses.lookup bigQuery = some text → text = bigReply dev.bigReplyLen
  else (dev.receive (asBytes bigQuery) true).output = digits dev.bigReplyLen ++ [0x0A]

/-- When it does. -/
structure FitsOneRead (eos : UInt8 × Bool) (dev : Device) : Prop where
  asked : Asked dev
  length : dev.bigReplyLen < maxRead
  eos : eos.2 = true → eos.1 ∉ digits dev.bigReplyLen

theorem oneRead_digits_iff (eos : UInt8 × Bool) (n : Nat) :
    OneRead eos maxRead (digits n ++ [0x0A]) ↔ n < maxRead ∧ (eos.2 = true → eos.1 ∉ digits n) := by
  have hlen : (digits n).length = n := by simp [digits]
  have hlen' : (digits n ++ [0x0A]).length = n + 1 := by simp [hlen]
  constructor
  · rintro ⟨hlength, heos⟩
    refine ⟨by omega, fun hon hmem => ?_⟩
    obtain ⟨i, hi⟩ := List.mem_iff_getElem?.mp hmem
    have hlt := (List.getElem?_eq_some_iff.mp hi).1
    have := heos hon i (by rw [List.getElem?_append_left hlt, hi])
    omega
  · rintro ⟨hlength, heos⟩
    refine ⟨by omega, fun hon i hi => ?_⟩
    have hlt := (List.getElem?_eq_some_iff.mp hi).1
    by_contra hne
    have hdigit : i < (digits n).length := by omega
    rw [List.getElem?_append_left hdigit] at hi
    exact heos hon (List.mem_of_getElem? hi)

theorem output_receive_iff {dev : Device} (hin : dev.input = []) (hout : dev.output = []) :
    (dev.receive (asBytes bigQuery) true).output = digits dev.bigReplyLen ++ [0x0A] ↔
      ∀ text, dev.responses.lookup bigQuery = some text → text = bigReply dev.bigReplyLen := by
  have hunit : IsUnit bigQuery := ⟨by decide, by decide, by decide⟩
  have htrim : trim bigQuery = bigQuery := by decide
  have hhead : Device.headAndArg bigQuery = (bigQuery, []) := by decide
  have hupper : toAsciiUppercase bigQuery = bigQuery := by decide
  rw [receive_isUnit hunit hin, htrim, ← asBytes_bigReply]
  have hoff (d : Device) : d.noteMss.output = d.output := rfl
  simp only [hoff, Device.executeUnit, hhead, hupper]
  have hreply (text : Text) : (dev.reply text).output = asBytes text ++ [0x0A] := by
    rw [Device.reply, hout, List.nil_append]
  cases hscript : dev.responses.lookup bigQuery with
  | none =>
      have hperform : dev.perform bigQuery [] (Command.ofHeader bigQuery) =
          dev.reply (bigReply dev.bigReplyLen) := rfl
      simp [hperform, hreply]
  | some canned =>
      simp only [hreply, List.append_cancel_right_eq, Option.some.injEq]
      constructor
      · rintro hbytes text rfl
        exact asBytes_injective hbytes
      · intro h
        rw [h canned rfl]

/-- The query is the built-in one just when the digits are what it queues. -/
theorem asked_iff (dev : Device) :
    Asked dev ↔ (dev.receive (asBytes bigQuery) true).output = digits dev.bigReplyLen ++ [0x0A] := by
  rw [Asked]
  split
  · next h => exact (output_receive_iff h.1 h.2).symm
  · exact Iff.rfl

/-- A DataEND with nothing assembled before it is a complete message. -/
theorem syncLoop_dataEnd (supportsOverlapped : Bool) {s : Session} (vi : VirtualInstrument)
    {msg : Message} (hbuffer : s.buffer = []) (htype : msg.messageType = .dataEnd) :
    ∃ s', s'.pad = s.pad ∧ syncLoop supportsOverlapped s vi (.ok msg) =
      runCommand s' vi msg.messageParameter msg.payload := by
  have hclears : s.noteClears.pad = s.pad ∧ s.noteClears.buffer = [] := by
    unfold Session.noteClears
    split
    · exact ⟨rfl, rfl⟩
    · exact ⟨rfl, hbuffer⟩
  have hempty : (s.noteClears.noteClientMessage msg).buffer = [] := hclears.2
  refine ⟨{ s.noteClears.noteClientMessage msg with buffer := [] }, hclears.1, ?_⟩
  simp only [syncLoop, htype, hempty, List.nil_append]

/-- **The big reply arrives** just when one read of the bridge takes it. -/
theorem big_reply_iff (supportsOverlapped : Bool) {s : Session} {vi : VirtualInstrument}
    {dev : Device} {msg : Message} (hbuffer : s.buffer = []) (hd : vi.devices s.pad = some dev)
    (hf : vi.faults.failNextWrite = false) (htype : msg.messageType = .dataEnd)
    (hpayload : msg.payload = asBytes bigQuery) :
    Arrives dev.bigReplyLen s.pad (syncLoop supportsOverlapped s vi (.ok msg)) ↔
      FitsOneRead vi.eos dev := by
  obtain ⟨s', hpad, hround⟩ := syncLoop_dataEnd supportsOverlapped vi hbuffer htype
  rw [← hpad] at hd ⊢
  rw [hpayload] at hround
  have hiff := runCommand_whole_iff hf hd msg.messageParameter queryHint_bigQuery
    (digits_newline_ne_nil dev.bigReplyLen)
  rw [← hround, oneRead_digits_iff] at hiff
  constructor
  · rintro ⟨hwhole, hdrained⟩
    obtain ⟨hasked, hlength, heos⟩ := hiff.mp ⟨hwhole, hdrained⟩
    exact ⟨(asked_iff dev).mpr hasked, hlength, heos⟩
  · rintro ⟨hasked, hlength, heos⟩
    obtain ⟨hwhole, hdrained⟩ := hiff.mpr ⟨(asked_iff dev).mp hasked, hlength, heos⟩
    exact ⟨hwhole, hdrained⟩

/-- A session that has just been opened. -/
def opened : Session where
  pad := 5
  clientMaxMessageSize := 256

/-- Its first query. -/
def askBig : Message := ⟨.dataEnd, 0, 0xFFFFFF00, asBytes bigQuery⟩

/-- A device that has been told how long its reply is to be. -/
def withBigReply (n : Nat) : VirtualInstrument :=
  (VirtualInstrument.new [5]).setDevice 5 (Device.setBigReplyLen {} n)

theorem withBigReply_device (n : Nat) :
    (withBigReply n).devices opened.pad = some (Device.setBigReplyLen {} n) := by
  rw [withBigReply, VirtualInstrument.setDevice_devices]
  exact Function.update_self ..

/-- The longest reply that arrives. -/
theorem big_reply_longest :
    Arrives 65535 5 (syncLoop false opened (withBigReply 65535) (.ok askBig)) := by
  have hasked : Asked (Device.setBigReplyLen {} 65535) := by
    rw [Asked, if_pos ⟨rfl, rfl⟩]
    exact fun text h => by cases h
  have hfits : FitsOneRead (withBigReply 65535).eos (Device.setBigReplyLen {} 65535) :=
    ⟨hasked, Nat.lt_succ_self 65535, Bool.noConfusion⟩
  exact (big_reply_iff false rfl (withBigReply_device 65535) rfl rfl rfl).mpr hfits

/-- One digit more, and the newline stays behind. -/
theorem big_reply_cut :
    ¬ Arrives 65536 5 (syncLoop false opened (withBigReply 65536) (.ok askBig)) := by
  rintro ⟨hwhole, hdrained⟩
  obtain ⟨s', hpad, hround⟩ := syncLoop_dataEnd false (withBigReply 65536)
    (rfl : opened.buffer = []) (rfl : askBig.messageType = .dataEnd)
  have hdev : (withBigReply 65536).devices s'.pad = some (Device.setBigReplyLen {} 65536) := by
    rw [hpad, withBigReply_device]
  rw [hround] at hwhole hdrained
  have hiff := runCommand_whole_iff rfl hdev askBig.messageParameter queryHint_bigQuery
    (digits_newline_ne_nil 65536)
  rw [hpad] at hiff
  obtain ⟨-, hone⟩ := hiff.mp ⟨hwhole, hdrained⟩
  exact Nat.lt_irrefl 65536 ((oneRead_digits_iff _ _).mp hone).1

end TestGear.Hislip.Server
