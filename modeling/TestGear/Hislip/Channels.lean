import TestGear.Frontend.Lock
import TestGear.Hislip.Wire

/-!
# TestGear.Hislip.Channels

A session with both of its channels, `hislip/server.rs`: the loops of the two,
the forwarder that polls for service requests, and the tasks that write what one
channel has for the other.  They step in any order, and others use the bus
meanwhile; a message that has to wait for a lock is run in a step of its own.
Taking a message in, answering one and making up a status byte are each one
step, though the source stores and loads the fields of the session one by one:
what is said of MAV is about a query that the synchronous channel is not in the
middle of either of the others for.

* `proceed_readSync` — with nobody else about this is `syncLoop`;
* `written_is_assembled` — what the instrument is sent, and what a device clear
  takes back;
* `replies_numbered` — the ids of the replies;
* `status_tells_transcript` — MAV, from what went over the wire, while the
  synchronous channel rests.
-/

namespace TestGear.Hislip.Server

open Instrument Runs

/-- Fatal: a poorly formatted message header, of the size request. -/
def sizePayloadText : Text := "AsyncMaximumMessageSize payload must be 8 bytes".toList

/-- Non-fatal: an unrecognized control code. -/
def unrecognizedControlCode : UInt8 := 2

/-- What the server has on offer. -/
structure Config where
  maxMessageSize : UInt64 := 1024 * 1024
  supportsOverlapped : Bool := false
  prefersOverlapped : Bool := false
deriving DecidableEq, Repr

/-- A message of the synchronous channel that is to be run. -/
inductive Waiting where
  | command (requestId : UInt32) (cmd : List UInt8)
  | trigger
deriving DecidableEq, Repr

structure Channels where
  session : Session
  bus : VirtualInstrument
  /-- What the synchronous channel waits with for the bus, or for a lock. -/
  waiting : Option Waiting := none
  syncOpen : Bool := true
  asyncOpen : Bool := true
  /-- A fatal error that the synchronous channel is to report as well. -/
  syncFatal : Option Error := none

inductive Input where
  /-- The synchronous channel reads. -/
  | sync (read : Except Error Message)
  /-- It runs what it waits with. -/
  | proceed
  /-- The asynchronous channel reads; the lock registry answers, if it is asked. -/
  | async (read : Except Error Message) (answer : Frontend.LockResponse) (info : Bool × UInt32)
  /-- The forwarder polls. -/
  | poll
  /-- What the session has for the asynchronous channel is written there. -/
  | push
  /-- And what it has for the synchronous one. -/
  | mirror
  /-- Somebody else uses the bus. -/
  | elsewhere (op : Op)

/-- What is written by a step. -/
structure Sent where
  sync : List Message := []
  async : List Message := []

namespace Channels

variable (cfg : Config) (c : Channels)

/-- A message without payload. -/
def bare (messageType : MessageType) (controlCode : UInt8) (parameter : UInt32) : Message :=
  ⟨messageType, controlCode, parameter, []⟩

/-- The synchronous channel has read: a message to be run is left waiting. -/
def readSync (read : Except Error Message) : Channels × Sent :=
  let round := syncLoop cfg.supportsOverlapped c.session c.bus read
  let loop : Channels × Sent :=
    ({ c with session := round.session, bus := round.bus, syncOpen := !round.done }, { sync := round.sent })
  match read with
  | .error _ => loop
  | .ok msg =>
      let s := c.session.noteClears.noteClientMessage msg
      match msg.messageType with
      | .dataEnd =>
          ({ c with
              session := { s with buffer := [] }
              waiting := some (.command msg.messageParameter (s.buffer ++ msg.payload)) }, {})
      | .trigger => ({ c with session := s, waiting := some .trigger }, {})
      | _ => loop

/-- What was waiting is run. -/
def proceed : Waiting → Channels × Sent
  | .command requestId cmd =>
      let round := runCommand c.session c.bus requestId cmd
      ({ c with session := round.session, bus := round.bus, waiting := none }, { sync := round.sent })
  | .trigger => ({ c with bus := (c.bus.trigger c.session.pad).bus, waiting := none }, {})

/-- `AsyncRemoteLocalControl`, in the spec's own names; `none` for a control code
that there is not. -/
def remoteLocal (vi : VirtualInstrument) (pad : UInt8) : UInt8 → Option VirtualInstrument
  | 0 => some (vi.setRen false).bus
  | 1 => some (vi.setRen true).bus
  | 2 =>
      let gone := vi.goToLocal pad
      match gone.result with
      | .ok () => some (gone.bus.setRen false).bus
      | .error _ => some gone.bus
  | 3 => some (vi.goToRemote pad).bus
  | 4 => some ((vi.setRen true).bus.localLockout).bus
  | 5 =>
      let gone := vi.goToRemote pad
      match gone.result with
      | .ok () => some gone.bus.localLockout.bus
      | .error _ => some gone.bus
  | 6 => some (vi.goToLocal pad).bus
  | _ => none

/-- MAV as a status-byte bit, for a status query quoting `messageId`. -/
def mavBit (s : Session) (messageId : UInt32) : UInt8 :=
  if s.overlapped then
    if messageId = s.nextServerMessageId - 2 then 0 else stbMav
  else if !s.mav then 0
  else if messageId ≠ s.lastMessageId then 0
  else stbMav

/-- The status byte of an `AsyncStatusResponse`: what the poll says, or, if that
is nothing, the byte consumed on the client's behalf, and MAV. -/
def statusByte (s : Session) (polled : UInt8) (messageId : UInt32) : UInt8 :=
  let stb := if polled = 0 then s.consumedStb.getD 0 else polled
  stb &&& ~~~stbMav ||| mavBit s messageId

def unexpectedAsync (t : MessageType) : Error :=
  .nonFatal unrecognizedMessageType ("unexpected async message: ".toList ++ t.debug)

/-- The channel ends on a fatal error that it sends. -/
def endAsync (e : Error) : Channels × Sent := ({ c with asyncOpen := false }, { async := [e.message] })

/-- The asynchronous channel has read, and has the lock if it waits for one. -/
def readAsync (read : Except Error Message) (answer : Frontend.LockResponse) (info : Bool × UInt32) :
    Channels × Sent :=
  let reply (m : Message) : Channels × Sent := (c, { async := [m] })
  match read with
  | .error (.fatal code text) =>
      -- one fatal ends the session, so there is never a second to queue
      { c with syncFatal := some (c.syncFatal.getD (.fatal code text)) }.endAsync (.fatal code text)
  | .error (.nonFatal code text) => reply (Error.nonFatal code text).message
  | .ok msg =>
      match msg.messageType with
      | .asyncLock => reply (bare .asyncLockResponse answer.controlCode 0)
      | .asyncLockInfo => reply (bare .asyncLockInfoResponse info.1.toUInt8 info.2)
      | .asyncMaximumMessageSize =>
          if msg.payload.length ≠ 8 then
            c.endAsync (.fatal poorlyFormattedMessageHeader sizePayloadText)
          else
            ({ c with session := { c.session with clientMaxMessageSize := ofBE64 msg.payload } },
              { async := [⟨.asyncMaximumMessageSizeResponse, 0, 0, be64 cfg.maxMessageSize⟩] })
      | .asyncDeviceClear =>
          ({ c with
              session := { c.session with clearEpoch := c.session.clearEpoch + 1 }
              bus := (c.bus.deviceClear c.session.pad).bus },
            { async := [bare .asyncDeviceClearAcknowledge cfg.prefersOverlapped.toUInt8 0] })
      | .asyncRemoteLocalControl =>
          match remoteLocal c.bus c.session.pad msg.controlCode with
          | some bus => ({ c with bus }, { async := [bare .asyncRemoteLocalResponse 0 0] })
          | none =>
              reply (Error.nonFatal unrecognizedControlCode
                ("unknown remote/local code ".toList ++ natText msg.controlCode.toNat)).message
      | .asyncStatusQuery =>
          let poll := c.bus.serialPoll c.session.pad
          -- an error can only be reported as 0
          let polled := match poll.result with
            | .ok stb => stb
            | .error _ => 0
          ({ c with session := { c.session with consumedStb := none }, bus := poll.bus },
            { async := [bare .asyncStatusResponse
                (statusByte c.session polled msg.messageParameter) 0] })
      | .fatalError => ({ c with asyncOpen := false }, {})
      | .error => (c, {})
      | other =>
          if [.asyncStartTls, .asyncEndTls].contains other && protocol20 ≤ c.session.protocol then
            c.endAsync (.fatal secureConnectionFailed "TLS not supported".toList)
          else reply (unexpectedAsync other).message

/-- One poll of the forwarder; while the line stays asserted it makes several. -/
def poll : Channels × Sent :=
  let poll := c.bus.serialPoll c.session.pad
  match poll.result with
  | .error _ => ({ c with bus := poll.bus }, {})
  | .ok stb =>
      if stb &&& stbRqs ≠ 0 then
        ({ c with session := { c.session with consumedStb := some stb }, bus := poll.bus },
          { async := [bare .asyncServiceRequest stb 0] })
      else ({ c with bus := poll.bus }, {})

/-- What is pushed on the asynchronous channel. -/
def AsyncPush.message : AsyncPush → Message
  | .serviceRequest stb => bare .asyncServiceRequest stb 0
  | .fatal code text => (Error.fatal code text).message

/-- One step of one of the tasks, if it can be taken. -/
def step (c : Channels) : Input → Option (Channels × Sent)
  | .sync read => if c.syncOpen && c.waiting.isNone then some (c.readSync cfg read) else none
  | .proceed => c.waiting.map c.proceed
  | .async read answer info => if c.asyncOpen then some (c.readAsync cfg read answer info) else none
  | .poll => if c.asyncOpen then some c.poll else none
  | .push =>
      match c.asyncOpen, c.session.asyncQueue with
      | true, p :: queue =>
          some ({ c with session := { c.session with asyncQueue := queue } },
            { async := [AsyncPush.message p] })
      | _, _ => none
  | .mirror =>
      -- only the writer is shut down: what the client still sends is read
      match c.syncOpen, c.syncFatal with
      | true, some e => some ({ c with syncFatal := none }, { sync := [e.message] })
      | _, _ => none
  | .elsewhere op => some ({ c with bus := (c.bus.perform op).bus }, {})

/-- A session that has just been opened. -/
def new (cfg : Config) (pad : UInt8) (protocol : UInt16) (bus : VirtualInstrument) : Channels where
  session := {
    pad
    protocol
    clientMaxMessageSize := cfg.maxMessageSize
    overlapped := cfg.prefersOverlapped }
  bus

/-- With nobody in between, a message that is read and run is one round of
`syncLoop`. -/
theorem proceed_readSync {msg : Message} {w : Waiting}
    (h : (c.readSync cfg (.ok msg)).1.waiting = some w) (hnone : c.waiting = none) :
    let round := syncLoop cfg.supportsOverlapped c.session c.bus (.ok msg)
    let run := (c.readSync cfg (.ok msg)).1.proceed w
    run.1.session = round.session ∧ run.1.bus = round.bus ∧ run.2.sync = round.sent := by
  cases htype : msg.messageType with
  | dataEnd =>
      simp only [readSync, syncLoop, htype] at h ⊢
      cases h
      exact ⟨rfl, rfl, rfl⟩
  | trigger =>
      simp only [readSync, syncLoop, htype] at h ⊢
      cases h
      exact ⟨rfl, rfl, rfl⟩
  | _ =>
      simp only [readSync, htype, hnone] at h
      cases h

end Channels

/-! ## What a step can do -/

/-- A message that reports an error. -/
def IsError (m : Message) : Prop := m.messageType = .error ∨ m.messageType = .fatalError

/-- What an error is sent as reports an error. -/
theorem isError_message (e : Error) : IsError e.message := by
  cases e with
  | fatal => exact .inr rfl
  | nonFatal => exact .inl rfl

/-- The message types that carry a message id. -/
def IsCommand (t : MessageType) : Prop := t = .data ∨ t = .dataEnd ∨ t = .trigger

/-- What the synchronous channel makes of what it reads. -/
inductive Synced (c : Channels) : Except Error Message → Channels × Sent → Prop where
  | data {msg : Message} (htype : msg.messageType = .data) (syncOpen : Bool) :
      Synced c (.ok msg)
        ({ c with
            session := { c.session.noteClears.noteClientMessage msg with
              buffer := c.session.noteClears.buffer ++ msg.payload }
            syncOpen }, {})
  | dataEnd {msg : Message} (htype : msg.messageType = .dataEnd) :
      Synced c (.ok msg)
        ({ c with
            session := { c.session.noteClears.noteClientMessage msg with buffer := [] }
            waiting := some (.command msg.messageParameter
              (c.session.noteClears.buffer ++ msg.payload)) }, {})
  | trigger {msg : Message} (htype : msg.messageType = .trigger) :
      Synced c (.ok msg)
        ({ c with session := c.session.noteClears.noteClientMessage msg, waiting := some .trigger }, {})
  | cleared {msg : Message} (htype : msg.messageType = .deviceClearComplete) (overlapped syncOpen : Bool) :
      Synced c (.ok msg)
        ({ c with session := c.session.noteClears.setOverlapped overlapped, syncOpen },
          { sync := [⟨.deviceClearAcknowledge, if overlapped then 1 else 0, 0, []⟩] })
  | other {read : Except Error Message} (hread : ∀ msg, read = .ok msg → ¬IsCommand msg.messageType)
      (s : Session) (hs : s = c.session ∨ s = c.session.noteClears) (asyncQueue : List AsyncPush)
      (sent : List Message) (hsent : ∀ m ∈ sent, IsError m) (syncOpen : Bool) :
      Synced c read ({ c with session := { s with asyncQueue }, syncOpen }, { sync := sent })

/-- A queue that is pushed to is all that changes. -/
theorem exists_push (s : Session) (p : AsyncPush) :
    ∃ asyncQueue, s.push p = { s with asyncQueue } := by
  rw [Session.push]
  split
  · exact ⟨_, rfl⟩
  · exact ⟨s.asyncQueue, rfl⟩

/-- The same, as a list of one message. -/
theorem forall_isError (e : Error) : ∀ m ∈ [e.message], IsError m := by
  intro m hm
  rw [List.mem_singleton.mp hm]
  exact isError_message e

/-- Whatever is read, it is one of these. -/
theorem synced (cfg : Config) (c : Channels) (read : Except Error Message) :
    Synced c read (c.readSync cfg read) := by
  cases read with
  | error e =>
      have hread : ∀ msg : Message, (.error e : Except Error Message) = .ok msg →
          ¬IsCommand msg.messageType := fun msg h => by cases h
      cases e with
      | fatal code text =>
          obtain ⟨queue, hqueue⟩ := exists_push c.session (.fatal code text)
          simp only [Channels.readSync, syncLoop, hqueue]
          exact .other hread _ (.inl rfl) _ _ (forall_isError (.fatal code text)) _
      | nonFatal code text =>
          exact .other hread _ (.inl rfl) _ _ (forall_isError (.nonFatal code text)) _
  | ok msg =>
      simp only [Channels.readSync, syncLoop]
      have hread (h : ¬IsCommand msg.messageType) :
          ∀ msg', (.ok msg : Except Error Message) = .ok msg' → ¬IsCommand msg'.messageType := by
        rintro _ ⟨⟩
        exact h
      cases htype : msg.messageType with
      | data => exact .data htype _
      | dataEnd => exact .dataEnd htype
      | trigger => exact .trigger htype
      | deviceClearComplete => exact .cleared htype _ _
      | fatalError | error =>
          refine .other (hread ?_) _ (.inr rfl) _ _ (fun m hm => by cases hm) _
          simp [IsCommand, htype]
      | _ =>
          have hcommand : ¬IsCommand msg.messageType := by simp [IsCommand, htype]
          dsimp only
          split
          · obtain ⟨queue, hqueue⟩ := exists_push c.session.noteClears
              (.fatal secureConnectionFailed "TLS/SASL not supported".toList)
            rw [hqueue]
            exact .other (hread hcommand) _ (.inr rfl) _ _ (forall_isError _) _
          · exact .other (hread hcommand) _ (.inr rfl) _ _ (forall_isError _) _

/-- The first id of the server's own. -/
def firstMessageId : UInt32 := 0xFFFFFF00

/-- The ids of `n` messages in a row, from `first` on. -/
def idsFrom (first : UInt32) (n : ℕ) : List UInt32 :=
  (List.range n).map fun i => first + 2 * UInt32.ofNat i

/-- The first id, and those behind it. -/
theorem idsFrom_succ (first : UInt32) (n : ℕ) :
    idsFrom first (n + 1) = first :: idsFrom (first + 2) n := by
  rw [idsFrom, List.range_succ_eq_map, List.map_cons, List.map_map, idsFrom]
  congr 1
  · simp
  · refine List.map_congr_left fun i _ => ?_
    rw [Function.comp_apply, Nat.succ_eq_add_one, UInt32.ofNat_add]
    grind

/-- Two stretches of ids are one. -/
theorem idsFrom_add (first : UInt32) (m n : ℕ) :
    idsFrom first (m + n) = idsFrom first m ++ idsFrom (first + 2 * UInt32.ofNat m) n := by
  rw [idsFrom, List.range_add, List.map_append, List.map_map, idsFrom, idsFrom]
  refine congrArg _ (List.map_congr_left fun i _ => ?_)
  rw [Function.comp_apply, UInt32.ofNat_add]
  grind

/-- What the chunks of a reply carry: the next ids of the server's own, or that
of the request. -/
def chunkIds (s : Session) (requestId : UInt32) (n : ℕ) : List UInt32 :=
  if s.overlapped then idsFrom s.nextServerMessageId n else List.replicate n requestId

/-- Sending chunks takes ids, and changes nothing else. -/
theorem sendChunks_fst (s : Session) (requestId : UInt32) (cs : List (List UInt8)) :
    (s.sendChunks requestId cs).1 =
      { s with
        nextServerMessageId :=
          s.nextServerMessageId + if s.overlapped then 2 * UInt32.ofNat cs.length else 0 } := by
  induction cs generalizing s with
  | nil =>
      rw [Session.sendChunks]
      cases s
      simp
  | cons chunk rest ih =>
      rw [Session.sendChunks, ih, Session.responseMessageId]
      cases h : s.overlapped with
      | false => simp [h]
      | true =>
          have hnext : s.nextServerMessageId + 2 + 2 * UInt32.ofNat rest.length =
              s.nextServerMessageId + 2 * UInt32.ofNat (rest.length + 1) := by
            rw [UInt32.ofNat_add]
            grind
          simp only [if_true, List.length_cons, hnext]

/-- The ids the chunks are sent with. -/
theorem ids_sendChunks (s : Session) (requestId : UInt32) (cs : List (List UInt8)) :
    (s.sendChunks requestId cs).2.map Message.messageParameter = chunkIds s requestId cs.length := by
  induction cs generalizing s with
  | nil =>
      rw [chunkIds]
      cases s.overlapped <;> rfl
  | cons chunk rest ih =>
      rw [Session.sendChunks, List.map_cons, ih, Session.responseMessageId, chunkIds, chunkIds]
      cases h : s.overlapped with
      | false => simp [h, List.replicate_succ]
      | true => simp [idsFrom_succ]

/-- A Data or a DataEND. -/
def IsReply (m : Message) : Prop := m.messageType = .data ∨ m.messageType = .dataEnd

/-- Chunks are sent as Data and DataEND only. -/
theorem isReply_sendChunks (s : Session) (requestId : UInt32) (cs : List (List UInt8)) :
    ∀ m ∈ (s.sendChunks requestId cs).2, IsReply m := by
  intro m hm
  cases cs with
  | nil => cases hm
  | cons chunk rest =>
      obtain ⟨parts, last, hsent, hparts, hlast⟩ :=
        sendChunks_ends s requestId (List.cons_ne_nil chunk rest)
      rw [hsent, List.mem_append, List.mem_singleton] at hm
      rcases hm with hm | rfl
      · exact .inl (hparts m hm)
      · exact .inr hlast

/-- A chunk is sent as a message. -/
theorem sendChunks_ne_nil (s : Session) (requestId : UInt32) {cs : List (List UInt8)} (h : cs ≠ []) :
    (s.sendChunks requestId cs).2 ≠ [] := by
  obtain ⟨parts, last, hsent, -⟩ := sendChunks_ends s requestId h
  rw [hsent]
  exact List.append_ne_nil_of_right_ne_nil _ (List.cons_ne_nil _ _)

/-- A reply is sent in chunks, be it empty. -/
theorem exists_chunks (s : Session) (requestId : UInt32) (data : List UInt8) :
    ∃ cs, cs ≠ [] ∧ s.writeResponse requestId data = s.sendChunks requestId cs := by
  have hwhole := writeResponse_whole s requestId data
  rw [Session.writeResponse] at hwhole ⊢
  split at hwhole
  · exact ⟨[[]], List.cons_ne_nil _ _, if_pos ‹_›⟩
  · refine ⟨chunksOf s.maxChunk data, fun hnil => ?_, if_neg ‹_›⟩
    obtain ⟨parts, last, hsent, -⟩ := hwhole.ends
    rw [hnil, Session.sendChunks] at hsent
    simp at hsent

/-- What running a command does to the session, and sends. -/
inductive Ran (s : Session) (requestId : UInt32) : Session → List Message → Prop where
  | silent (consumedStb : Option UInt8) (asyncQueue : List AsyncPush) (sent : List Message)
      (hsent : ∀ m ∈ sent, IsError m) :
      Ran s requestId { s with consumedStb, asyncQueue } sent
  | answered (consumedStb : Option UInt8) (asyncQueue : List AsyncPush) (cs : List (List UInt8))
      (hcs : cs ≠ []) :
      Ran s requestId
        { s with
          mav := true
          nextServerMessageId :=
            s.nextServerMessageId + if s.overlapped then 2 * UInt32.ofNat cs.length else 0
          consumedStb
          asyncQueue }
        (Session.sendChunks { s with mav := true } requestId cs).2

/-- A service request changes the status byte that is kept, and the queue. -/
theorem exists_raise (s : Session) (stb : UInt8) :
    ∃ asyncQueue, s.raiseServiceRequest stb = { s with consumedStb := some stb, asyncQueue } := by
  obtain ⟨queue, hqueue⟩ := exists_push { s with consumedStb := some stb } (.serviceRequest stb)
  exact ⟨queue, hqueue⟩

/-- Whatever the instrument does, it is one of these. -/
theorem ran_runCommand (s : Session) (vi : VirtualInstrument) (requestId : UInt32) (cmd : List UInt8) :
    Ran s requestId (runCommand s vi requestId cmd).session (runCommand s vi requestId cmd).sent := by
  simp only [runCommand]
  cases (execute vi s.pad cmd (queryHint cmd)).2 with
  | error e => exact .silent _ _ _ (forall_isError (.nonFatal unidentifiedError _))
  | ok execution =>
      obtain ⟨data, serviceRequest⟩ := execution
      cases data with
      | none =>
          have hsent : ∀ m ∈ ([] : List Message), IsError m := fun m hm => by cases hm
          cases serviceRequest with
          | none => exact .silent s.consumedStb s.asyncQueue [] hsent
          | some stb =>
              obtain ⟨queue, hraised⟩ := exists_raise s stb
              dsimp only
              rw [hraised]
              exact .silent (some stb) queue [] hsent
      | some data =>
          obtain ⟨cs, hcs, hwrite⟩ := exists_chunks { s with mav := true } requestId data
          cases serviceRequest with
          | none =>
              dsimp only
              rw [hwrite, sendChunks_fst]
              exact .answered s.consumedStb s.asyncQueue cs hcs
          | some stb =>
              obtain ⟨queue, hraised⟩ :=
                exists_raise (Session.sendChunks { s with mav := true } requestId cs).1 stb
              dsimp only
              rw [hwrite, hraised, sendChunks_fst]
              exact .answered (some stb) queue cs hcs

/-! ## What is written -/

/-- What a logged event wrote to `pad`. -/
def loggedAt (pad : UInt8) : Instrument.Event → Option (List UInt8)
  | .write p data _ => if p = pad then some data else none
  | _ => none

/-- What has been written to `pad`, as the bus has logged it. -/
def written (pad : UInt8) (vi : VirtualInstrument) : List (List UInt8) :=
  vi.observed.filterMap (loggedAt pad)

/-- What an operation writes to `pad`. -/
def writesAt (pad : UInt8) : Op → List (List UInt8)
  | .write p data _ => if p = pad then [data] else []
  | _ => []

section

variable {pad : UInt8} {vi vi' : VirtualInstrument}

/-- What is written to an address is told from the log alone. -/
theorem written_congr (h : vi'.observed = vi.observed) : written pad vi' = written pad vi := by
  rw [written, written, h]

/-- One event logged is one write more at most. -/
theorem written_push (pad : UInt8) (vi : VirtualInstrument) (event : Instrument.Event) :
    written pad (vi.push event) = written pad vi ++ (loggedAt pad event).toList := by
  simp only [written, VirtualInstrument.push, List.filterMap_append]
  cases h : loggedAt pad event <;> simp [h]

/-- Looking after the SRQ line logs nothing. -/
theorem observed_thenUpdateSrq {α : Type} (vi : VirtualInstrument) (p : UInt8) (value : α) :
    (vi.thenUpdateSrq p value).bus.observed = vi.observed := by
  simp only [VirtualInstrument.thenUpdateSrq, VirtualInstrument.updateSrq]
  cases vi.devices p with
  | none => rfl
  | some dev => rfl

/-- A write is logged once, whatever the device makes of it. -/
theorem observed_write (vi : VirtualInstrument) (p : UInt8) (data : List UInt8) (eoi : Bool) :
    (vi.write p data eoi).bus.observed = (vi.push (.write p data eoi)).observed := by
  simp only [VirtualInstrument.write]
  split
  · rfl
  · cases (vi.push (.write p data eoi)).devices p with
    | none => rfl
    | some dev =>
        dsimp only
        split
        · rfl
        · rw [VirtualInstrument.foldlM_execute]
          exact observed_thenUpdateSrq _ _ _

/-- Only a write writes. -/
theorem written_perform (pad : UInt8) (vi : VirtualInstrument) (op : Op) :
    written pad (vi.perform op).bus = written pad vi ++ writesAt pad op := by
  have hpush (event : Instrument.Event) (hevent : loggedAt pad event = none) :
      written pad (vi.push event) = written pad vi := by
    rw [written_push, hevent, Option.toList_none, List.append_nil]
  have hlogs {vi' : VirtualInstrument} (event : Instrument.Event) (hevent : loggedAt pad event = none)
      (h : vi'.observed = (vi.push event).observed) : written pad vi' = written pad vi :=
    (written_congr h).trans (hpush event hevent)
  cases op with
  | write p data eoi =>
      refine (written_congr (observed_write vi p data eoi)).trans ?_
      rw [written_push, loggedAt, writesAt]
      split
      · rfl
      · rfl
  | read p maxLen =>
      refine Eq.trans ?_ (List.append_nil _).symm
      simp only [VirtualInstrument.perform, VirtualInstrument.read, Outcome.data]
      cases vi.devices p with
      | none => rfl
      | some dev =>
          dsimp only
          split
          · exact hlogs (.readTimeout p) rfl rfl
          · refine (written_push _ _ _).trans ((List.append_nil _).trans ?_)
            exact written_congr (observed_thenUpdateSrq _ _ _)
  | deviceClear p =>
      refine Eq.trans ?_ (List.append_nil _).symm
      simp only [VirtualInstrument.perform, VirtualInstrument.deviceClear, Outcome.done]
      cases (vi.push (.clear p)).devices p with
      | none => exact hlogs (.clear p) rfl rfl
      | some dev => exact hlogs (.clear p) rfl (observed_thenUpdateSrq _ _ _)
  | trigger p =>
      refine Eq.trans ?_ (List.append_nil _).symm
      simp only [VirtualInstrument.perform, VirtualInstrument.trigger, Outcome.done]
      cases (vi.push (.trigger p)).devices p with
      | none => exact hlogs (.trigger p) rfl rfl
      | some dev => exact hlogs (.trigger p) rfl (observed_thenUpdateSrq _ _ _)
  | ifc => exact (hlogs .ifc rfl rfl).trans (List.append_nil _).symm
  | ren enable => exact (hlogs (.ren enable) rfl rfl).trans (List.append_nil _).symm
  | goToRemote p =>
      refine Eq.trans ?_ (List.append_nil _).symm
      simp only [VirtualInstrument.perform, VirtualInstrument.goToRemote, Outcome.done]
      split
      · exact hlogs (.goToRemote p) rfl rfl
      · exact hlogs (.goToRemote p) rfl rfl
  | goToLocal p =>
      refine Eq.trans ?_ (List.append_nil _).symm
      simp only [VirtualInstrument.perform, VirtualInstrument.goToLocal, Outcome.done]
      split
      · exact hlogs (.goToLocal p) rfl rfl
      · exact hlogs (.goToLocal p) rfl rfl
  | localLockout => exact (hlogs .localLockout rfl rfl).trans (List.append_nil _).symm
  | serialPoll p =>
      refine Eq.trans ?_ (List.append_nil _).symm
      simp only [VirtualInstrument.perform, VirtualInstrument.serialPoll]
      cases vi.faults.forced with
      | some forced => exact hlogs (.serialPoll p forced) rfl rfl
      | none =>
          cases vi.devices p with
          | none => rfl
          | some dev => exact hlogs (.serialPoll p dev.stb) rfl rfl
  | sendDataUnaddressed data eoi =>
      exact (hlogs (.unaddressedWrite data eoi) rfl rfl).trans (List.append_nil _).symm
  | readUnaddressed maxLen => exact (hlogs .unaddressedRead rfl rfl).trans (List.append_nil _).symm
  | _ => exact (List.append_nil _).symm

/-- A poll writes nothing. -/
theorem written_serialPoll (p : UInt8) : written pad (vi.serialPoll p).bus = written pad vi :=
  (written_perform pad vi (.serialPoll p)).trans (List.append_nil _)

/-- Nor does the poll before a read. -/
theorem written_pollBeforeRead (p : UInt8) :
    written pad (pollBeforeRead vi p).1 = written pad vi := by
  rw [pollBeforeRead]
  split
  · dsimp only
    split
    · exact written_serialPoll p
    · exact written_serialPoll p
  · rfl

/-- Nor does a read. -/
theorem written_drain (p : UInt8) (notified : Bool) (serviceRequest : Option UInt8) :
    written pad (drain vi p notified serviceRequest).1 = written pad vi := by
  have hread : written pad (heldRead vi p maxRead).bus = written pad vi :=
    (written_perform pad vi (.read p (min maxRead maxRead))).trans (List.append_nil _)
  simp only [drain]
  split
  · exact hread
  · split
    · exact hread
    · split
      · exact hread
      · exact hread

/-- Running a command writes it, once. -/
theorem written_execute (pad : UInt8) (vi : VirtualInstrument) (cmd : List UInt8) (expect : Bool) :
    written pad (execute vi pad cmd expect).1 = written pad vi ++ [cmd] := by
  have hwrite : written pad (vi.write pad cmd true).bus = written pad vi ++ [cmd] := by
    have h := written_perform pad vi (.write pad cmd true)
    rwa [writesAt, if_pos rfl] at h
  simp only [execute]
  split
  · exact hwrite
  · split
    · rw [written_drain, written_pollBeforeRead, hwrite]
    · split
      · rw [written_serialPoll, hwrite]
      · split
        · rw [written_serialPoll, hwrite]
        · rw [written_drain, written_serialPoll, hwrite]

/-- The bus is left as the bridge leaves it. -/
theorem bus_runCommand_fst (s : Session) (requestId : UInt32) (cmd : List UInt8) :
    (runCommand s vi requestId cmd).bus = (execute vi s.pad cmd (queryHint cmd)).1 := by
  rw [runCommand]
  dsimp only
  split
  · rfl
  · rfl

/-- Remote and local control write nothing. -/
theorem written_remoteLocal {code : UInt8} (h : Channels.remoteLocal vi pad code = some vi') :
    written pad vi' = written pad vi := by
  have hperform (vi : VirtualInstrument) (op : Op) (hop : writesAt pad op = []) :
      written pad (vi.perform op).bus = written pad vi := by
    rw [written_perform, hop, List.append_nil]
  unfold Channels.remoteLocal at h
  split at h
  · cases h
    exact hperform vi (.ren false) rfl
  · cases h
    exact hperform vi (.ren true) rfl
  · dsimp only at h
    split at h
    · cases h
      exact (hperform _ (.ren false) rfl).trans (hperform vi (.goToLocal pad) rfl)
    · cases h
      exact hperform vi (.goToLocal pad) rfl
  · cases h
    exact hperform vi (.goToRemote pad) rfl
  · cases h
    exact (hperform _ .localLockout rfl).trans (hperform vi (.ren true) rfl)
  · dsimp only at h
    split at h
    · cases h
      exact (hperform _ .localLockout rfl).trans (hperform vi (.goToRemote pad) rfl)
    · cases h
      exact hperform vi (.goToRemote pad) rfl
  · cases h
    exact hperform vi (.goToLocal pad) rfl
  · cases h

end

/-! ## Messages assembled -/

/-- What the instrument is due, with the device clear taking effect at once. -/
structure Assembly where
  /-- The message that the client has begun. -/
  pending : List UInt8 := []
  /-- The one that it has ended, and that is not run yet. -/
  waiting : Option (List UInt8) := none
  /-- Those that have been written, by this session or past it. -/
  ran : List (List UInt8) := []
deriving DecidableEq

def Assembly.note (pad : UInt8) (a : Assembly) (i : Input) (_ : Sent) : Assembly :=
  match i with
  | .sync (.ok msg) =>
      match msg.messageType with
      | .data => { a with pending := a.pending ++ msg.payload }
      | .dataEnd => { a with pending := [], waiting := some (a.pending ++ msg.payload) }
      | _ => a
  | .proceed => { a with waiting := none, ran := a.ran ++ a.waiting.toList }
  | .async (.ok msg) _ _ => if msg.messageType = .asyncDeviceClear then { a with pending := [] } else a
  | .elsewhere op => { a with ran := a.ran ++ writesAt pad op }
  | _ => a

/-- What is no command is not assembled. -/
theorem Assembly.note_of_not_command {read : Except Error Message}
    (hread : ∀ msg, read = .ok msg → ¬IsCommand msg.messageType) {pad : UInt8} {a : Assembly}
    {sent : Sent} : a.note pad (.sync read) sent = a := by
  cases read with
  | error e => rfl
  | ok msg =>
      have hcommand := hread msg rfl
      simp only [Assembly.note]
      split
      · next htype => exact absurd (.inl htype) hcommand
      · next htype => exact absurd (.inr (.inl htype)) hcommand
      · rfl

/-- A command that waits. -/
def Waiting.command? : Waiting → Option (List UInt8)
  | .command _ cmd => some cmd
  | .trigger => none

/-- The buffer is what is pending, unless there has been a clear since it was
last looked at; the count of clears does not come round within `n` more. -/
def Session.Holds (s : Session) (pending : List UInt8) (n : ℕ) : Prop :=
  ∃ clears, clears + n < 2 ^ 64 ∧ s.clearEpoch = s.epoch + UInt64.ofNat clears ∧
    pending = if clears = 0 then s.buffer else []

structure Assembles (pad : UInt8) (log : List (List UInt8)) (n : ℕ) (a : Assembly) (c : Channels) :
    Prop where
  address : c.session.pad = pad
  logged : written pad c.bus = log ++ a.ran
  waiting : a.waiting = c.waiting.bind Waiting.command?
  pending : c.session.Holds a.pending n

section

variable {s : Session} {pending : List UInt8} {n : ℕ}

/-- A larger budget of clears serves as well. -/
theorem Session.Holds.mono (h : s.Holds pending (n + 1)) : s.Holds pending n := by
  obtain ⟨clears, hn, hepoch, hpending⟩ := h
  exact ⟨clears, by omega, hepoch, hpending⟩

/-- Looking at the clears settles what is pending. -/
theorem Session.Holds.noteClears (h : s.Holds pending (n + 1)) :
    s.noteClears.buffer = pending ∧ s.noteClears.clearEpoch = s.noteClears.epoch := by
  obtain ⟨clears, hn, hepoch, hpending⟩ := h
  by_cases hzero : clears = 0
  · have hsame : s.clearEpoch = s.epoch := by simpa [hzero] using hepoch
    rw [if_pos hzero] at hpending
    rw [Session.noteClears, if_neg (not_not.mpr hsame)]
    exact ⟨hpending.symm, hsame⟩
  · have hne : s.clearEpoch ≠ s.epoch := by
      intro hsame
      have hnat := congrArg UInt64.toNat (hepoch.symm.trans hsame)
      rw [UInt64.toNat_add, UInt64.toNat_ofNat'] at hnat
      have := s.epoch.toNat_lt
      omega
    rw [if_neg hzero] at hpending
    rw [Session.noteClears, if_pos hne]
    exact ⟨hpending.symm, rfl⟩

/-- With no clear outstanding the buffer is what is pending. -/
theorem Session.holds_of_same (hepoch : s.clearEpoch = s.epoch) (hbuffer : s.buffer = pending)
    (hn : n < 2 ^ 64) : s.Holds pending n :=
  ⟨0, by omega, by simp [hepoch], by simp [hbuffer]⟩

/-- The budget is below the wrap of the clear counter. -/
theorem Session.Holds.lt (h : s.Holds pending (n + 1)) : n < 2 ^ 64 := by
  obtain ⟨clears, hn, -⟩ := h
  omega

/-- A device clear voids what is pending. -/
theorem Session.Holds.clear (h : s.Holds pending (n + 1)) :
    Session.Holds { s with clearEpoch := s.clearEpoch + 1 } [] n := by
  obtain ⟨clears, hn, hepoch, hpending⟩ := h
  refine ⟨clears + 1, by omega, ?_, rfl⟩
  show s.clearEpoch + 1 = s.epoch + UInt64.ofNat (clears + 1)
  rw [hepoch, UInt64.ofNat_add, add_assoc]
  rfl

end

section

variable {cfg : Config} {c : Channels} {pad : UInt8} {log : List (List UInt8)} {n : ℕ} {a : Assembly}

/-- What the synchronous channel reads is assembled. -/
theorem Assembles.synced (h : Assembles pad log (n + 1) a c) (hwaiting : c.waiting = none)
    {read : Except Error Message} {r : Channels × Sent} (hr : Synced c read r) :
    Assembles pad log n (a.note pad (.sync read) r.2) r.1 := by
  obtain ⟨hbuffer, hepoch⟩ := h.pending.noteClears
  have hpad : c.session.noteClears.pad = pad := by
    rw [← h.address, Session.noteClears]
    split
    · rfl
    · rfl
  have hnone : a.waiting = none := by rw [h.waiting, hwaiting, Option.bind_none]
  cases hr with
  | @data msg htype =>
      simp only [Assembly.note, htype]
      refine ⟨hpad, h.logged, h.waiting, Session.holds_of_same hepoch ?_ h.pending.lt⟩
      exact congrArg (· ++ msg.payload) hbuffer
  | @dataEnd msg htype =>
      simp only [Assembly.note, htype]
      refine ⟨hpad, h.logged, ?_, Session.holds_of_same hepoch rfl h.pending.lt⟩
      rw [← hbuffer]
      rfl
  | @trigger msg htype =>
      simp only [Assembly.note, htype]
      exact ⟨hpad, h.logged, hnone, Session.holds_of_same hepoch hbuffer h.pending.lt⟩
  | @cleared msg htype overlapped syncOpen =>
      simp only [Assembly.note, htype]
      exact ⟨hpad, h.logged, h.waiting, Session.holds_of_same hepoch hbuffer h.pending.lt⟩
  | other hread s hs asyncQueue sent hsent syncOpen =>
      rw [Assembly.note_of_not_command hread]
      rcases hs with rfl | rfl
      · exact ⟨h.address, h.logged, h.waiting, h.pending.mono⟩
      · exact ⟨hpad, h.logged, h.waiting, Session.holds_of_same hepoch hbuffer h.pending.lt⟩

/-- What it runs is written once. -/
theorem Assembles.proceed (h : Assembles pad log (n + 1) a c) {w : Waiting} (hw : c.waiting = some w) :
    Assembles pad log n (a.note pad .proceed (c.proceed w).2) (c.proceed w).1 := by
  cases w with
  | command requestId cmd =>
      have hwaiting : a.waiting = some cmd := by rw [h.waiting, hw]; rfl
      have hbus : written pad (runCommand c.session c.bus requestId cmd).bus =
          log ++ (a.ran ++ [cmd]) := by
        rw [bus_runCommand_fst, h.address, written_execute, h.logged, List.append_assoc]
      simp only [Assembly.note, hwaiting, Option.toList_some, Channels.proceed]
      have hran := ran_runCommand c.session c.bus requestId cmd
      generalize runCommand c.session c.bus requestId cmd = round at hbus hran
      obtain ⟨s, bus, sent, done⟩ := round
      cases hran with
      | silent => exact ⟨h.address, hbus, rfl, h.pending.mono⟩
      | answered => exact ⟨h.address, hbus, rfl, h.pending.mono⟩
  | trigger =>
      have hwaiting : a.waiting = none := by rw [h.waiting, hw]; rfl
      have hbus : written pad (c.bus.trigger c.session.pad).bus = log ++ (a.ran ++ []) := by
        have htrigger := written_perform pad c.bus (.trigger c.session.pad)
        rw [List.append_nil, ← h.logged]
        exact htrigger.trans (List.append_nil _)
      simp only [Assembly.note, hwaiting, Option.toList_none, Channels.proceed]
      exact ⟨h.address, hbus, rfl, h.pending.mono⟩

/-- A step that leaves the bus log, what waits and what is pending alone. -/
theorem Assembles.still (h : Assembles pad log (n + 1) a c) {c' : Channels}
    (hpad : c'.session.pad = c.session.pad) (hbus : written pad c'.bus = written pad c.bus)
    (hwaiting : c'.waiting = c.waiting) (hclear : c'.session.clearEpoch = c.session.clearEpoch)
    (hepoch : c'.session.epoch = c.session.epoch) (hbuffer : c'.session.buffer = c.session.buffer) :
    Assembles pad log n a c' := by
  obtain ⟨clears, hn, hsame, hpending⟩ := h.pending
  refine ⟨hpad.trans h.address, hbus.trans h.logged, by rw [hwaiting]; exact h.waiting, clears, by omega, ?_, ?_⟩
  · rw [hclear, hepoch]
    exact hsame
  · rw [hbuffer]
    exact hpending

/-- The asynchronous channel voids what is pending, and writes nothing. -/
theorem Assembles.async (h : Assembles pad log (n + 1) a c) (read : Except Error Message)
    (answer : Frontend.LockResponse) (info : Bool × UInt32) :
    Assembles pad log n (a.note pad (.async read answer info) (c.readAsync cfg read answer info).2)
      (c.readAsync cfg read answer info).1 := by
  have hstill {c' : Channels} (hbus : written pad c'.bus = written pad c.bus)
      (hsession : c'.session = { c.session with
        clientMaxMessageSize := c'.session.clientMaxMessageSize, consumedStb := c'.session.consumedStb })
      (hwaiting : c'.waiting = c.waiting) : Assembles pad log n a c' := by
    refine h.still ?_ hbus hwaiting ?_ ?_ ?_
    all_goals rw [hsession]
  cases read with
  | error e =>
      cases e with
      | fatal code text => exact hstill rfl rfl rfl
      | nonFatal code text => exact hstill rfl rfl rfl
  | ok msg =>
      simp only [Assembly.note, Channels.readAsync]
      cases htype : msg.messageType with
      | asyncDeviceClear =>
          have hbus : written pad (c.bus.deviceClear c.session.pad).bus = log ++ a.ran := by
            have hclear := written_perform pad c.bus (.deviceClear c.session.pad)
            rw [← h.logged]
            exact hclear.trans (List.append_nil _)
          rw [if_pos rfl]
          exact ⟨h.address, hbus, h.waiting, h.pending.clear⟩
      | asyncStatusQuery =>
          rw [if_neg (by simp)]
          exact hstill (written_serialPoll _) rfl rfl
      | asyncRemoteLocalControl =>
          rw [if_neg (by simp)]
          dsimp only
          split
          · next bus hremote =>
              rw [h.address] at hremote
              exact hstill (written_remoteLocal hremote) rfl rfl
          · exact hstill rfl rfl rfl
      | _ =>
          rw [if_neg (by simp)]
          dsimp only
          try split
          all_goals exact hstill rfl rfl rfl

/-- **One step** keeps the account. -/
theorem Assembles.step (h : Assembles pad log (n + 1) a c) {i : Input} {c' : Channels} {sent : Sent}
    (hstep : c.step cfg i = some (c', sent)) : Assembles pad log n (a.note pad i sent) c' := by
  cases i with
  | sync read =>
      simp only [Channels.step, Option.ite_none_right_eq_some, Bool.and_eq_true,
        Option.isNone_iff_eq_none, Option.some.injEq] at hstep
      obtain ⟨⟨-, hwaiting⟩, heq⟩ := hstep
      have hsynced := h.synced hwaiting (Server.synced cfg c read)
      rwa [heq] at hsynced
  | proceed =>
      simp only [Channels.step, Option.map_eq_some_iff] at hstep
      obtain ⟨w, hw, heq⟩ := hstep
      have hproceed := h.proceed hw
      rwa [heq] at hproceed
  | async read answer info =>
      simp only [Channels.step, Option.ite_none_right_eq_some, Option.some.injEq] at hstep
      have hasync := @Assembles.async cfg c pad log n a h read answer info
      rwa [hstep.2] at hasync
  | poll =>
      simp only [Channels.step, Option.ite_none_right_eq_some, Option.some.injEq] at hstep
      have hpoll : Assembles pad log n a c.poll.1 := by
        simp only [Channels.poll]
        split
        · exact h.still rfl (written_serialPoll _) rfl rfl rfl rfl
        · split
          · exact h.still rfl (written_serialPoll _) rfl rfl rfl rfl
          · exact h.still rfl (written_serialPoll _) rfl rfl rfl rfl
      rwa [hstep.2] at hpoll
  | push =>
      simp only [Channels.step] at hstep
      split at hstep
      · cases hstep
        exact h.still rfl rfl rfl rfl rfl rfl
      · cases hstep
  | mirror =>
      simp only [Channels.step] at hstep
      split at hstep
      · cases hstep
        exact h.still rfl rfl rfl rfl rfl rfl
      · cases hstep
  | elsewhere op =>
      cases hstep
      refine ⟨h.address, ?_, h.waiting, h.pending.mono⟩
      rw [written_perform, h.logged, List.append_assoc]
      rfl

/-- **Messages assembled**: however the two channels, the tasks that push and
others on the bus take their turns, what has been written to the instrument are
the messages that the client ended, each once and in order, less what a device
clear came upon half-assembled, and what others wrote in between. -/
theorem written_is_assembled {protocol : UInt16} {bus : VirtualInstrument} {is : List Input}
    {c' : Channels} (h : exec (Channels.step cfg) (Channels.new cfg pad protocol bus) is = some c')
    (hlen : is.length < 2 ^ 64) :
    written pad c'.bus = written pad bus ++
      (Runs.account (Channels.step cfg) (Assembly.note pad) {} (Channels.new cfg pad protocol bus) is).ran := by
  have hstart : Assembles pad (written pad bus) (is.length + 0) {} (Channels.new cfg pad protocol bus) :=
    ⟨rfl, (List.append_nil _).symm, rfl, 0, by omega, rfl, rfl⟩
  exact (exec_account (fun _ _ _ _ _ _ hs hstep => hs.step hstep) 0 hstart h).logged

/-- A message begun before a device clear, and one begun behind it, with
somebody else's in between. -/
def clearedHalfway : List Input :=
  [.sync (.ok ⟨.data, 0, 0xFFFFFF00, asBytes "*RS".toList⟩),
    .async (.ok ⟨.asyncDeviceClear, 0, 0, []⟩) .error (false, 0),
    .elsewhere (.write 5 (asBytes "*CLS".toList) true),
    .sync (.ok ⟨.deviceClearComplete, 0, 0, []⟩),
    .sync (.ok ⟨.dataEnd, 0, 0xFFFFFF00, asBytes "*ESR?".toList⟩),
    .proceed]

/-- Half a message is lost in a clear, and what is sent behind it is run. -/
theorem written_is_assembled_halfway :
    ∃ c', exec (Channels.step {}) (Channels.new {} 5 protocol20 (.new [5])) clearedHalfway = some c' ∧
      written 5 c'.bus = [asBytes "*CLS".toList, asBytes "*ESR?".toList] :=
  ⟨_, rfl, (written_is_assembled rfl (by decide : clearedHalfway.length < 2 ^ 64)).trans rfl⟩

end

/-! ## What went over the wire -/

/-- What the messages of the synchronous channel tell. -/
structure Transcript where
  overlapped : Bool
  /-- There has been a reply since the client last said that it had its last. -/
  unread : Bool := false
  /-- The id of the last command. -/
  lastId : UInt32 := firstMessageId - 2
  /-- Behind the last device clear: the id of every reply, and that of the last
  command when it was sent. -/
  replies : List (UInt32 × UInt32) := []
deriving DecidableEq

namespace Transcript

/-- The client says something. -/
def hear (t : Transcript) (msg : Message) : Transcript :=
  match msg.messageType with
  | .data | .dataEnd | .trigger =>
      { t with lastId := msg.messageParameter, unread := t.unread && msg.controlCode &&& 1 == 0 }
  | _ => t

/-- The server does. -/
def tell (t : Transcript) (msg : Message) : Transcript :=
  match msg.messageType with
  | .data | .dataEnd =>
      { t with unread := true, replies := t.replies ++ [(msg.messageParameter, t.lastId)] }
  | .deviceClearAcknowledge =>
      { t with overlapped := msg.controlCode == 1, unread := false, replies := [] }
  | _ => t

def heard (t : Transcript) : Input → Transcript
  | .sync (.ok msg) => t.hear msg
  | _ => t

def note (t : Transcript) (i : Input) (sent : Sent) : Transcript := sent.sync.foldl tell (t.heard i)

/-- Replies are numbered consecutively from the first id on, or like the command
that asks for them. -/
structure Numbered (t : Transcript) : Prop where
  overlapped : t.overlapped = true →
    t.replies.map Prod.fst = idsFrom firstMessageId t.replies.length
  synchronized : t.overlapped = false → ∀ r ∈ t.replies, r.1 = r.2

/-- There is a reply that a client quoting this id has not had. -/
def Available (t : Transcript) (quoted : UInt32) : Prop :=
  if t.overlapped then quoted ≠ (t.replies.map Prod.fst).getLastD (firstMessageId - 2)
  else t.unread = true ∧ quoted = t.lastId

/-- What is no command carries no id. -/
theorem heard_of_not_command {read : Except Error Message}
    (hread : ∀ msg, read = .ok msg → ¬IsCommand msg.messageType) (t : Transcript) :
    t.heard (.sync read) = t := by
  cases read with
  | error e => rfl
  | ok msg =>
      have hcommand := hread msg rfl
      rw [heard, hear]
      split
      · next htype => exact absurd (.inl htype) hcommand
      · next htype => exact absurd (.inr (.inl htype)) hcommand
      · next htype => exact absurd (.inr (.inr htype)) hcommand
      · rfl

/-- An error is no reply. -/
theorem tell_of_isError {m : Message} (h : IsError m) (t : Transcript) : t.tell m = t := by
  rcases h with h | h
  · rw [tell, h]
  · rw [tell, h]

/-- Nor are several. -/
theorem foldl_tell_errors {sent : List Message} (h : ∀ m ∈ sent, IsError m) (t : Transcript) :
    sent.foldl tell t = t := by
  induction sent generalizing t with
  | nil => rfl
  | cons m sent ih =>
      rw [List.foldl_cons, tell_of_isError (h m List.mem_cons_self) t]
      exact ih (fun m' hm' => h m' (List.mem_cons_of_mem m hm')) t

/-- A reply is noted with the command that had been sent last. -/
theorem tell_of_isReply {m : Message} (h : IsReply m) (t : Transcript) :
    t.tell m = { t with unread := true, replies := t.replies ++ [(m.messageParameter, t.lastId)] } := by
  rcases h with h | h
  · rw [tell, h]
  · rw [tell, h]

/-- So are those of one command. -/
theorem foldl_tell_replies {sent : List Message} (h : ∀ m ∈ sent, IsReply m) (hne : sent ≠ [])
    (t : Transcript) :
    sent.foldl tell t =
      { t with
        unread := true
        replies := t.replies ++ (sent.map Message.messageParameter).map fun id => (id, t.lastId) } := by
  induction sent generalizing t with
  | nil => exact absurd rfl hne
  | cons m sent ih =>
      rw [List.foldl_cons, tell_of_isReply (h m List.mem_cons_self)]
      cases sent with
      | nil => rfl
      | cons next more =>
          rw [ih (fun m' hm' => h m' (List.mem_cons_of_mem m hm')) (List.cons_ne_nil _ _)]
          simp

/-- Replies that take the next ids, or that of the last command. -/
theorem Numbered.append {t : Transcript} (h : t.Numbered) {n : ℕ} {ids : List UInt32}
    (hids : ids = if t.overlapped then idsFrom (firstMessageId + 2 * UInt32.ofNat t.replies.length) n
      else List.replicate n t.lastId) :
    Numbered { t with unread := true, replies := t.replies ++ ids.map fun id => (id, t.lastId) } where
  overlapped := by
    intro (ht : t.overlapped = true)
    rw [ht, if_pos rfl] at hids
    have hlen : ids.length = n := by rw [hids]; simp [idsFrom]
    have hfst : (ids.map fun id => (id, t.lastId)).map Prod.fst = ids := by
      rw [List.map_map]
      exact List.map_id ids
    rw [List.map_append, hfst, h.overlapped ht, List.length_append, List.length_map, hlen, idsFrom_add,
      hids]
  synchronized := by
    intro (ht : t.overlapped = false) r hr
    rw [ht, if_neg Bool.false_ne_true] at hids
    rcases List.mem_append.mp hr with hr | hr
    · exact h.synchronized ht r hr
    · obtain ⟨id, hmem, rfl⟩ := List.mem_map.mp hr
      rw [hids] at hmem
      exact List.eq_of_mem_replicate hmem

end Transcript

/-- The session is in accord with the transcript. -/
structure Accords (t : Transcript) (c : Channels) : Prop where
  overlapped : c.session.overlapped = t.overlapped
  unread : c.session.mav = t.unread
  lastId : c.session.lastMessageId = t.lastId
  /-- What waits is the last command. -/
  asked : ∀ requestId cmd, c.waiting = some (.command requestId cmd) → requestId = t.lastId
  numbered : t.Numbered
  next : t.overlapped = true →
    c.session.nextServerMessageId = firstMessageId + 2 * UInt32.ofNat t.replies.length

section

variable {t : Transcript} {c : Channels} {cfg : Config}

/-- A change to the session that the transcript does not tell. -/
theorem Accords.still (h : Accords t c) {c' : Channels}
    (hoverlapped : c'.session.overlapped = c.session.overlapped) (hmav : c'.session.mav = c.session.mav)
    (hlast : c'.session.lastMessageId = c.session.lastMessageId)
    (hnext : c'.session.nextServerMessageId = c.session.nextServerMessageId)
    (hwaiting : c'.waiting = c.waiting ∨ ∀ requestId cmd, c'.waiting ≠ some (.command requestId cmd)) :
    Accords t c' := by
  refine ⟨hoverlapped.trans h.overlapped, hmav.trans h.unread, hlast.trans h.lastId, ?_, h.numbered,
    fun ht => hnext.trans (h.next ht)⟩
  intro requestId cmd hcommand
  cases hwaiting with
  | inl hsame => exact h.asked requestId cmd (hsame.symm.trans hcommand)
  | inr hnone => exact absurd hcommand (hnone requestId cmd)

/-- Looking at the clears tells nothing. -/
theorem exists_noteClears (s : Session) : ∃ epoch buffer, s.noteClears = { s with epoch, buffer } := by
  rw [Session.noteClears]
  split
  · exact ⟨_, _, rfl⟩
  · exact ⟨s.epoch, s.buffer, rfl⟩

/-- What the synchronous channel reads is told. -/
theorem Accords.synced (h : Accords t c) (hwaiting : c.waiting = none) {read : Except Error Message}
    {r : Channels × Sent} (hr : Synced c read r) : Accords (t.note (.sync read) r.2) r.1 := by
  obtain ⟨epoch, buffer, hclears⟩ := exists_noteClears c.session
  cases hr with
  | @data msg htype =>
      simp only [Transcript.note, List.foldl_nil, Transcript.heard, Transcript.hear, htype, hclears]
      refine ⟨h.overlapped, congrArg (· && _) h.unread, rfl, fun _ _ hw => ?_,
        ⟨h.numbered.overlapped, h.numbered.synchronized⟩, h.next⟩
      rw [hwaiting] at hw
      cases hw
  | @dataEnd msg htype =>
      simp only [Transcript.note, List.foldl_nil, Transcript.heard, Transcript.hear, htype, hclears]
      refine ⟨h.overlapped, congrArg (· && _) h.unread, rfl, fun _ _ hw => ?_,
        ⟨h.numbered.overlapped, h.numbered.synchronized⟩, h.next⟩
      cases hw
      rfl
  | @trigger msg htype =>
      simp only [Transcript.note, List.foldl_nil, Transcript.heard, Transcript.hear, htype, hclears]
      refine ⟨h.overlapped, congrArg (· && _) h.unread, rfl, fun _ _ hw => ?_,
        ⟨h.numbered.overlapped, h.numbered.synchronized⟩, h.next⟩
      cases hw
  | @cleared msg htype overlapped syncOpen =>
      have hnote : t.note (.sync (.ok msg))
          { sync := [⟨.deviceClearAcknowledge, if overlapped then 1 else 0, 0, []⟩] } =
          { t with overlapped, unread := false, replies := [] } := by
        simp only [Transcript.note, Transcript.heard, Transcript.hear, htype, List.foldl_cons, List.foldl_nil, Transcript.tell]
        cases overlapped <;> rfl
      rw [hnote, hclears]
      refine ⟨rfl, rfl, h.lastId, fun _ _ hw => ?_, ?_, fun _ => rfl⟩
      · rw [hwaiting] at hw
        cases hw
      · exact ⟨fun _ => rfl, fun _ r hr => by cases hr⟩
  | other hread s hs asyncQueue sent hsent syncOpen =>
      rw [Transcript.note, Transcript.heard_of_not_command hread, Transcript.foldl_tell_errors hsent]
      rcases hs with rfl | rfl
      · exact h.still rfl rfl rfl rfl (.inl rfl)
      · rw [hclears]
        exact h.still rfl rfl rfl rfl (.inl rfl)

/-- So is what it answers. -/
theorem Accords.proceed (h : Accords t c) {w : Waiting} (hw : c.waiting = some w) :
    Accords (t.note .proceed (c.proceed w).2) (c.proceed w).1 := by
  cases w with
  | trigger =>
      refine h.still rfl rfl rfl rfl (.inr fun _ _ hcommand => ?_)
      cases hcommand
  | command requestId cmd =>
      have hid := h.asked requestId cmd hw
      simp only [Transcript.note, Transcript.heard, Channels.proceed]
      have hran := ran_runCommand c.session c.bus requestId cmd
      generalize runCommand c.session c.bus requestId cmd = round at hran
      obtain ⟨s, bus, sent, done⟩ := round
      cases hran with
      | silent consumedStb asyncQueue sent hsent =>
          rw [Transcript.foldl_tell_errors hsent t]
          refine h.still rfl rfl rfl rfl (.inr fun _ _ hcommand => ?_)
          cases hcommand
      | answered consumedStb asyncQueue cs hcs =>
          have hids := ids_sendChunks { c.session with mav := true } requestId cs
          rw [Transcript.foldl_tell_replies (isReply_sendChunks _ requestId cs)
            (sendChunks_ne_nil _ requestId hcs) t]
          have hnext : (Session.sendChunks { c.session with mav := true } requestId cs).2.map
              Message.messageParameter =
              if t.overlapped then idsFrom (firstMessageId + 2 * UInt32.ofNat t.replies.length) cs.length
              else List.replicate cs.length t.lastId := by
            rw [hids, chunkIds]
            dsimp only
            rw [h.overlapped, hid]
            split
            · next ht => rw [h.next ht]
            · rfl
          refine ⟨h.overlapped, rfl, h.lastId, ?_, h.numbered.append hnext, ?_⟩
          · intro _ _ hcommand
            cases hcommand
          · intro (ht : t.overlapped = true)
            rw [ht, if_pos rfl] at hnext
            have hlen := congrArg List.length hnext
            rw [List.length_map, idsFrom, List.length_map, List.length_range] at hlen
            show c.session.nextServerMessageId + (if c.session.overlapped then 2 * UInt32.ofNat cs.length else 0) =
              firstMessageId + 2 * UInt32.ofNat (t.replies ++ _).length
            rw [List.length_append, List.length_map, List.length_map, hlen, h.overlapped, if_pos ht,
              h.next ht, UInt32.ofNat_add]
            grind

/-- The asynchronous channel leaves the transcript as it is. -/
theorem Accords.async (h : Accords t c) (read : Except Error Message) (answer : Frontend.LockResponse)
    (info : Bool × UInt32) :
    Accords (t.note (.async read answer info) (c.readAsync cfg read answer info).2)
      (c.readAsync cfg read answer info).1 := by
  cases read with
  | error e =>
      cases e with
      | fatal code text => exact h.still rfl rfl rfl rfl (.inl rfl)
      | nonFatal code text => exact h.still rfl rfl rfl rfl (.inl rfl)
  | ok msg =>
      simp only [Channels.readAsync]
      cases msg.messageType with
      | asyncRemoteLocalControl =>
          dsimp only
          split
          · exact h.still rfl rfl rfl rfl (.inl rfl)
          · exact h.still rfl rfl rfl rfl (.inl rfl)
      | _ =>
          dsimp only
          try split
          all_goals exact h.still rfl rfl rfl rfl (.inl rfl)

/-- **One step** keeps session and transcript in accord. -/
theorem Accords.step (h : Accords t c) {i : Input} {c' : Channels} {sent : Sent}
    (hstep : c.step cfg i = some (c', sent)) : Accords (t.note i sent) c' := by
  cases i with
  | sync read =>
      simp only [Channels.step, Option.ite_none_right_eq_some, Bool.and_eq_true,
        Option.isNone_iff_eq_none, Option.some.injEq] at hstep
      obtain ⟨⟨-, hwaiting⟩, heq⟩ := hstep
      have hsynced := h.synced hwaiting (Server.synced cfg c read)
      rwa [heq] at hsynced
  | proceed =>
      simp only [Channels.step, Option.map_eq_some_iff] at hstep
      obtain ⟨w, hw, heq⟩ := hstep
      have hproceed := h.proceed hw
      rwa [heq] at hproceed
  | async read answer info =>
      simp only [Channels.step, Option.ite_none_right_eq_some, Option.some.injEq] at hstep
      have hasync := @Accords.async t c cfg h read answer info
      rwa [hstep.2] at hasync
  | poll =>
      simp only [Channels.step, Option.ite_none_right_eq_some, Option.some.injEq] at hstep
      have hpoll : Accords (t.note .poll c.poll.2) c.poll.1 := by
        simp only [Channels.poll]
        split
        · exact h.still rfl rfl rfl rfl (.inl rfl)
        · split
          · exact h.still rfl rfl rfl rfl (.inl rfl)
          · exact h.still rfl rfl rfl rfl (.inl rfl)
      rwa [hstep.2] at hpoll
  | push =>
      simp only [Channels.step] at hstep
      split at hstep
      · cases hstep
        exact h.still rfl rfl rfl rfl (.inl rfl)
      · cases hstep
  | mirror =>
      simp only [Channels.step] at hstep
      split at hstep
      · cases hstep
        rw [Transcript.note, Transcript.foldl_tell_errors (forall_isError _)]
        exact h.still rfl rfl rfl rfl (.inl rfl)
      · cases hstep
  | elsewhere op =>
      cases hstep
      exact h.still rfl rfl rfl rfl (.inl rfl)

/-- What is told of a session from its opening on. -/
def transcript (cfg : Config) (pad : UInt8) (protocol : UInt16) (bus : VirtualInstrument)
    (is : List Input) : Transcript :=
  Runs.account (Channels.step cfg) Transcript.note { overlapped := cfg.prefersOverlapped }
    (Channels.new cfg pad protocol bus) is

variable {pad : UInt8} {protocol : UInt16} {bus : VirtualInstrument} {is : List Input} {c' : Channels}

/-- **A whole run** does. -/
theorem accords_exec
    (h : exec (Channels.step cfg) (Channels.new cfg pad protocol bus) is = some c') :
    Accords (transcript cfg pad protocol bus is) c' := by
  have hstart : Accords { overlapped := cfg.prefersOverlapped } (Channels.new cfg pad protocol bus) := by
    refine ⟨rfl, rfl, rfl, ?_, ?_, fun _ => rfl⟩
    · intro _ _ hw
      cases hw
    · exact ⟨fun _ => rfl, fun _ r hr => by cases hr⟩
  have hstep (n : ℕ) (k : Transcript) (s : Channels) (i : Input) (t : Channels) (o : Sent)
      (hs : Accords k s) (h : Channels.step cfg s i = some (t, o)) : Accords (k.note i o) t :=
    hs.step h
  exact exec_account (R := fun _ => Accords) hstep 0 hstart h

/-- **Numbering**: whatever the interleaving, the replies since the last device
clear have consecutive ids from the first on in overlapped mode, and otherwise
each the id of the command that the client had sent last. -/
theorem replies_numbered
    (h : exec (Channels.step cfg) (Channels.new cfg pad protocol bus) is = some c') :
    (transcript cfg pad protocol bus is).Numbered :=
  (accords_exec h).numbered

/-- One query, in overlapped mode. -/
def askedOnce : List Input :=
  [.sync (.ok ⟨.dataEnd, 0, 0xFFFFFF00, asBytes "*ESR?".toList⟩), .proceed]

/-- And another one. -/
def askedTwice : List Input :=
  askedOnce ++ [.sync (.ok ⟨.dataEnd, 1, 0xFFFFFF02, asBytes "*STB?".toList⟩), .proceed]

/-- Their replies have ids of their own. -/
theorem replies_numbered_overlapped :
    ∃ c', exec (Channels.step { prefersOverlapped := true })
        (Channels.new { prefersOverlapped := true } 5 protocol20 (.new [5])) askedTwice = some c' ∧
      (transcript { prefersOverlapped := true } 5 protocol20 (.new [5]) askedTwice).replies.map Prod.fst =
        [0xFFFFFF00, 0xFFFFFF02] := by
  have hlen : (transcript { prefersOverlapped := true } 5 protocol20 (.new [5]) askedTwice).replies.length =
      2 := by decide +kernel
  refine ⟨_, rfl, ?_⟩
  have hnumbered := @replies_numbered { prefersOverlapped := true } 5 protocol20 (.new [5]) askedTwice _ rfl
  have hoverlapped : (transcript { prefersOverlapped := true } 5 protocol20 (.new [5]) askedTwice).overlapped =
      true := by decide +kernel
  rw [hnumbered.overlapped hoverlapped, hlen]
  decide

/-- The last of `n` ids, or the one before the first. -/
theorem getLastD_idsFrom (n : ℕ) :
    (idsFrom firstMessageId n).getLastD (firstMessageId - 2) =
      firstMessageId + 2 * UInt32.ofNat n - 2 := by
  cases n with
  | zero => decide
  | succ n =>
      rw [idsFrom, List.range_succ, List.map_append, UInt32.ofNat_add]
      simp only [List.map_cons, List.map_nil, List.getLastD_concat]
      grind

/-- In accord, MAV is what the transcript says. -/
theorem mavBit_ne_zero_iff {t : Transcript} (h : Accords t c) (quoted : UInt32) :
    Channels.mavBit c.session quoted ≠ 0 ↔ t.Available quoted := by
  have hmav : stbMav ≠ 0 := by decide
  rw [Channels.mavBit, h.overlapped, h.unread, h.lastId, Transcript.Available]
  cases ht : t.overlapped with
  | true =>
      simp only [if_true, h.numbered.overlapped ht, getLastD_idsFrom, h.next ht]
      split
      · next heq => simp [heq]
      · next hne => simp [hne, hmav]
  | false =>
      simp only [Bool.false_eq_true, if_false]
      cases t.unread with
      | false => simp
      | true => by_cases hquoted : quoted = t.lastId <;> simp [hquoted, hmav]

/-- It is a bit or nothing. -/
theorem mavBit_cases (s : Session) (quoted : UInt32) :
    Channels.mavBit s quoted = 0 ∨ Channels.mavBit s quoted = stbMav := by
  rw [Channels.mavBit]
  split_ifs
  all_goals simp

/-- Whatever the instrument says of MAV is overwritten. -/
theorem and_stbMav_statusByte (s : Session) (polled : UInt8) (quoted : UInt32) :
    Channels.statusByte s polled quoted &&& stbMav = Channels.mavBit s quoted := by
  have hbits (bit : UInt8) (h : ∀ n < 256, (UInt8.ofNat n &&& ~~~stbMav ||| bit) &&& stbMav = bit)
      (stb : UInt8) : (stb &&& ~~~stbMav ||| bit) &&& stbMav = bit := by
    have hstb := h stb.toNat stb.toNat_lt
    rwa [UInt8.ofNat_toNat] at hstb
  rw [Channels.statusByte]
  rcases mavBit_cases s quoted with hbit | hbit
  · rw [hbit]
    exact hbits 0 (by decide +kernel) _
  · rw [hbit]
    exact hbits stbMav (by decide +kernel) _

/-- **MAV**: whatever the interleaving before it, a status query that comes while
the synchronous channel rests, or waits with a message, is answered with a status
byte that has MAV set just when, by what went over the wire, there is a reply
that a client quoting its message id has not had.  Of a query that comes while a
message is taken in or answered nothing is said. -/
theorem status_tells_transcript
    (h : exec (Channels.step cfg) (Channels.new cfg pad protocol bus) is = some c') {msg : Message}
    (hquery : msg.messageType = .asyncStatusQuery) (answer : Frontend.LockResponse) (info : Bool × UInt32) :
    ∃ stb, (c'.readAsync cfg (.ok msg) answer info).2.async = [Channels.bare .asyncStatusResponse stb 0] ∧
      (stb &&& stbMav ≠ 0 ↔ (transcript cfg pad protocol bus is).Available msg.messageParameter) := by
  have hreply : ∃ polled, (c'.readAsync cfg (.ok msg) answer info).2.async =
      [Channels.bare .asyncStatusResponse (Channels.statusByte c'.session polled msg.messageParameter) 0] := by
    simp only [Channels.readAsync, hquery]
    exact ⟨_, rfl⟩
  obtain ⟨polled, hasync⟩ := hreply
  refine ⟨_, hasync, ?_⟩
  rw [and_stbMav_statusByte]
  exact mavBit_ne_zero_iff (accords_exec h) _

/-- A client that says it has had nothing is told of the reply. -/
theorem status_tells_transcript_overlapped :
    ∃ c', exec (Channels.step { prefersOverlapped := true })
        (Channels.new { prefersOverlapped := true } 5 protocol20 (.new [5])) askedOnce = some c' ∧
      ∃ stb, (c'.readAsync { prefersOverlapped := true } (.ok ⟨.asyncStatusQuery, 0, 0xFFFFFEFE, []⟩)
        .error (false, 0)).2.async = [Channels.bare .asyncStatusResponse stb 0] ∧ stb &&& stbMav ≠ 0 := by
  have htold : transcript { prefersOverlapped := true } 5 protocol20 (.new [5]) askedOnce =
      ⟨true, true, 0xFFFFFF00, [(0xFFFFFF00, 0xFFFFFF00)]⟩ := by decide +kernel
  refine ⟨_, rfl, ?_⟩
  obtain ⟨stb, hasync, hmav⟩ :=
    @status_tells_transcript { prefersOverlapped := true } 5 protocol20 (.new [5]) askedOnce _ rfl
      ⟨.asyncStatusQuery, 0, 0xFFFFFEFE, []⟩ rfl .error (false, 0)
  refine ⟨stb, hasync, hmav.mpr ?_⟩
  rw [htold]
  exact fun h => by cases h

end

end TestGear.Hislip.Server
