import TestGear.Hislip.Server
import TestGear.Hislip.Walk

/-!
# TestGear.Hislip.Wire

HiSLIP messages on the wire, as the server and its client read and write them,
`hislip/messages.rs`.  A stream is the bytes the peer sends before it closes the
connection.

* `readFrom_eq_ok_iff` — what is read as a message, also when the stream ends
  inside it;
* `syncRounds_wire` — messages of any type keep the synchronous channel in step,
  up to one over the limit or one that ends the loop.
-/

namespace TestGear.Hislip.Server

open Instrument

/-! ## Message types -/

def MessageType.getMessageType : MessageType → UInt8
  | .init => 0
  | .initializeResponse => 1
  | .fatalError => 2
  | .error => 3
  | .asyncLock => 4
  | .asyncLockResponse => 5
  | .data => 6
  | .dataEnd => 7
  | .deviceClearComplete => 8
  | .deviceClearAcknowledge => 9
  | .asyncRemoteLocalControl => 10
  | .asyncRemoteLocalResponse => 11
  | .trigger => 12
  | .interrupted => 13
  | .asyncInterrupted => 14
  | .asyncMaximumMessageSize => 15
  | .asyncMaximumMessageSizeResponse => 16
  | .asyncInitialize => 17
  | .asyncInitializeResponse => 18
  | .asyncDeviceClear => 19
  | .asyncServiceRequest => 20
  | .asyncStatusQuery => 21
  | .asyncStatusResponse => 22
  | .asyncDeviceClearAcknowledge => 23
  | .asyncLockInfo => 24
  | .asyncLockInfoResponse => 25
  | .getDescriptors => 26
  | .getDescriptorsResponse => 27
  | .startTls => 28
  | .asyncStartTls => 29
  | .asyncStartTlsResponse => 30
  | .endTls => 31
  | .asyncEndTls => 32
  | .asyncEndTlsResponse => 33
  | .getSaslMechanismList => 34
  | .getSaslMechanismListResponse => 35
  | .authenticationStart => 36
  | .authenticationExchange => 37
  | .authenticationResult => 38
  | .vendorSpecific x => x

def MessageType.fromMessageType (typ : UInt8) : Option MessageType :=
  match typ with
  | 0 => some .init
  | 1 => some .initializeResponse
  | 2 => some .fatalError
  | 3 => some .error
  | 4 => some .asyncLock
  | 5 => some .asyncLockResponse
  | 6 => some .data
  | 7 => some .dataEnd
  | 8 => some .deviceClearComplete
  | 9 => some .deviceClearAcknowledge
  | 10 => some .asyncRemoteLocalControl
  | 11 => some .asyncRemoteLocalResponse
  | 12 => some .trigger
  | 13 => some .interrupted
  | 14 => some .asyncInterrupted
  | 15 => some .asyncMaximumMessageSize
  | 16 => some .asyncMaximumMessageSizeResponse
  | 17 => some .asyncInitialize
  | 18 => some .asyncInitializeResponse
  | 19 => some .asyncDeviceClear
  | 20 => some .asyncServiceRequest
  | 21 => some .asyncStatusQuery
  | 22 => some .asyncStatusResponse
  | 23 => some .asyncDeviceClearAcknowledge
  | 24 => some .asyncLockInfo
  | 25 => some .asyncLockInfoResponse
  | 26 => some .getDescriptors
  | 27 => some .getDescriptorsResponse
  | 28 => some .startTls
  | 29 => some .asyncStartTls
  | 30 => some .asyncStartTlsResponse
  | 31 => some .endTls
  | 32 => some .asyncEndTls
  | 33 => some .asyncEndTlsResponse
  | 34 => some .getSaslMechanismList
  | 35 => some .getSaslMechanismListResponse
  | 36 => some .authenticationStart
  | 37 => some .authenticationExchange
  | 38 => some .authenticationResult
  | _ => if 128 ≤ typ then some (.vendorSpecific typ) else none

/-- Vendor-specific, only codes 128-255 are allowed. -/
def MessageType.Allowed : MessageType → Prop
  | .vendorSpecific code => 128 ≤ code
  | _ => True

/-- The table reads both ways. -/
theorem fromMessageType_eq_some_iff {typ : UInt8} {t : MessageType} :
    MessageType.fromMessageType typ = some t ↔ t.Allowed ∧ t.getMessageType = typ := by
  constructor
  · intro h
    unfold MessageType.fromMessageType at h
    split at h
    case h_40 =>
      split at h
      · next hvendor =>
          cases h
          exact ⟨hvendor, rfl⟩
      · cases h
    all_goals
      cases h
      exact ⟨trivial, rfl⟩
  · rintro ⟨hallowed, rfl⟩
    cases t with
    | vendorSpecific code =>
        have hvendor : 128 ≤ code := hallowed
        unfold MessageType.fromMessageType MessageType.getMessageType
        split
        case h_40 => exact if_pos hvendor
        all_goals
          next hcode =>
            subst hcode
            exact absurd hvendor (by decide)
    | _ => rfl

/-! ## Reading and writing -/

/-- Fatal: a poorly formatted message header. -/
def poorlyFormattedMessageHeader : UInt8 := 1

/-- Non-fatal: a message is too large. -/
def messageTooLarge : UInt8 := 4

def invalidPrologue : Error := .fatal poorlyFormattedMessageHeader "invalid prologue".toList

def payloadTooLarge : Error := .nonFatal messageTooLarge "message payload too large".toList

def unrecognizedType (typ : UInt8) : Error :=
  .nonFatal unrecognizedMessageType ("unrecognized message type ".toList ++ natText typ.toNat)

/-- The bytes of a message: `write_to`. -/
def Message.writeTo (m : Message) : List UInt8 :=
  message m.messageType.getMessageType m.controlCode m.messageParameter m.payload

/-- What a header and its payload are taken for. -/
def received (header : Header) (payload : List UInt8) : Except Error Message :=
  match MessageType.fromMessageType header.messageType with
  | some messageType =>
      .ok { messageType
            controlCode := header.controlCode
            messageParameter := header.messageParameter
            payload }
  | none => .error (unrecognizedType header.messageType)

/-- `read_from`, and what it leaves of the stream.  There is nothing to be read
if the stream ends before a header does; of a payload it takes what there is. -/
def readFrom (maxLen : UInt64) (stream : List UInt8) :
    Option (Except Error Message × List UInt8) :=
  if stream.length < headerLen then none
  else
    let rest := stream.drop headerLen
    if hasPrologue stream 0 then
      let header := readHeader stream 0
      if maxLen < header.payloadLen then some (.error payloadTooLarge, rest)
      else
        let len := header.payloadLen.toNat
        some (received header (rest.take len), rest.drop len)
    else some (.error invalidPrologue, rest)

def isFatal : Except Error Message → Bool
  | .error (.fatal _ _) => true
  | _ => false

/-- Message types that are refused from version 2.0 of the protocol on. -/
def secured : List MessageType :=
  [.startTls, .endTls, .getSaslMechanismList, .authenticationStart, .authenticationExchange]

/-- `sync_loop` returns on what it has read: a fatal error, reported by the
client or to it, or a request to secure the connection. -/
def syncEnds (protocol : UInt16) : Except Error Message → Bool
  | .error e => isFatal (.error e)
  | .ok msg => msg.messageType = .fatalError || secured.contains msg.messageType && protocol20 ≤ protocol

/-- All that `sync_loop` reads: up to the end of the stream, or to what it
returns on.  Every round takes a header, so `rounds` is never the reason to
stop. -/
def readAllFrom (protocol : UInt16) (maxLen : UInt64) :
    (rounds : ℕ) → (stream : List UInt8) → List (Except Error Message)
  | 0, _ => []
  | rounds + 1, stream =>
      (readFrom maxLen stream).elim [] fun r =>
        r.1 :: if syncEnds protocol r.1 then [] else readAllFrom protocol maxLen rounds r.2

def readAll (protocol : UInt16) (maxLen : UInt64) (stream : List UInt8) : List (Except Error Message) :=
  readAllFrom protocol maxLen (stream.length + 1) stream

/-- `sync_loop` over a stream: what each round reads, and what it leaves.  Others
are at the session and the bus between its rounds: `found` is how the `n`-th one
comes upon them. -/
def syncRoundsFrom (supportsOverlapped : Bool) (found : ℕ → Session × VirtualInstrument)
    (maxLen : UInt64) : (rounds n : ℕ) → (stream : List UInt8) → List (Except Error Message × Round)
  | 0, _, _ => []
  | rounds + 1, n, stream =>
      (readFrom maxLen stream).elim [] fun r =>
        let round := syncLoop supportsOverlapped (found n).1 (found n).2 r.1
        (r.1, round) ::
          if round.done then [] else syncRoundsFrom supportsOverlapped found maxLen rounds (n + 1) r.2

def syncRounds (supportsOverlapped : Bool) (found : ℕ → Session × VirtualInstrument) (maxLen : UInt64)
    (stream : List UInt8) : List (Except Error Message × Round) :=
  syncRoundsFrom supportsOverlapped found maxLen (stream.length + 1) 0 stream

section

variable {maxLen : UInt64} {stream rest : List UInt8}

/-- What is read behind a header. -/
theorem readFrom_header (h : Header) (tail : List UInt8) :
    readFrom maxLen (h.bytes ++ tail) =
      if maxLen < h.payloadLen then some (.error payloadTooLarge, tail)
      else some (received h (tail.take h.payloadLen.toNat), tail.drop h.payloadLen.toNat) := by
  have hdrop : (h.bytes ++ tail).drop 0 = h.bytes ++ tail := rfl
  have hlen : ¬(h.bytes ++ tail).length < headerLen := by
    rw [List.length_append, h.length_bytes]
    omega
  simp only [readFrom, if_neg hlen, hasPrologue_of_drop hdrop, if_true, readHeader_of_drop hdrop,
    drop_append_of_length h.length_bytes]

theorem exists_header (hlen : ¬stream.length < headerLen) (hprologue : hasPrologue stream 0 = true) :
    ∃ (h : Header) (tail : List UInt8), stream = h.bytes ++ tail := by
  have hstands : Stands stream 0 := ⟨by omega, hprologue⟩
  obtain ⟨h, tail, heq⟩ := exists_drop_of_stands hstands
  exact ⟨h, tail, heq⟩

/-- **Messages read**: a message is read exactly if the stream begins with a
header of its type, code and parameter, of a type there is and with a length
within the limit, and the payload is as many bytes as the length says — or all
that is left, if the stream ends before. -/
theorem readFrom_eq_ok_iff (m : Message) :
    readFrom maxLen stream = some (.ok m, rest) ↔
      m.messageType.Allowed ∧ ∃ len : UInt64, len ≤ maxLen ∧
        stream = Header.bytes ⟨m.messageType.getMessageType, m.controlCode, m.messageParameter, len⟩ ++
          (m.payload ++ rest) ∧
        (m.payload.length = len.toNat ∨ m.payload.length < len.toNat ∧ rest = []) := by
  constructor
  · intro h
    by_cases hlen : stream.length < headerLen
    · rw [readFrom, if_pos hlen] at h
      cases h
    by_cases hprologue : hasPrologue stream 0 = true
    · obtain ⟨header, tail, rfl⟩ := exists_header hlen hprologue
      rw [readFrom_header] at h
      split at h
      · cases h
      next hmax =>
        simp only [received, Option.some.injEq, Prod.mk.injEq] at h
        obtain ⟨hm, rfl⟩ := h
        split at hm
        · next t ht =>
            cases hm
            obtain ⟨hallowed, htype⟩ := fromMessageType_eq_some_iff.mp ht
            refine ⟨hallowed, header.payloadLen, UInt64.not_lt.mp hmax, ?_, ?_⟩
            · simp only [htype, List.take_append_drop]
            · simp only [List.length_take, List.drop_eq_nil_iff]
              omega
        · cases hm
    · simp [readFrom, hlen, hprologue] at h
  · rintro ⟨hallowed, len, hmax, rfl, hpayload⟩
    have htake : (m.payload ++ rest).take len.toNat = m.payload ∧ (m.payload ++ rest).drop len.toNat = rest := by
      rcases hpayload with heq | ⟨hlt, rfl⟩
      · rw [← heq]
        simp
      · rw [List.append_nil, List.take_of_length_le hlt.le, List.drop_of_length_le hlt.le]
        exact ⟨rfl, rfl⟩
    have htype := fromMessageType_eq_some_iff.mpr ⟨hallowed, rfl⟩
    rw [readFrom_header, if_neg (UInt64.not_lt.mpr hmax)]
    simp only [received, htype, htake.1, htake.2]

theorem length_readFrom {read : Except Error Message} (h : readFrom maxLen stream = some (read, rest)) :
    rest.length < stream.length := by
  by_cases hlen : stream.length < headerLen
  · rw [readFrom, if_pos hlen] at h
    cases h
  · have hpos : 0 < headerLen := by decide
    simp only [readFrom, if_neg hlen] at h
    split at h
    · split at h <;> cases h <;> simp only [List.length_drop] <;> omega
    · cases h
      rw [List.length_drop]
      omega

theorem isFatal_received (h : Header) (payload : List UInt8) : isFatal (received h payload) = false := by
  rw [received]
  split <;> rfl

variable {protocol : UInt16}

theorem readAllFrom_eq {rounds rounds' : ℕ} (h : stream.length < rounds) (h' : stream.length < rounds') :
    readAllFrom protocol maxLen rounds stream = readAllFrom protocol maxLen rounds' stream := by
  induction rounds generalizing rounds' stream with
  | zero => omega
  | succ n ih =>
      obtain ⟨n', rfl⟩ : ∃ n', rounds' = n' + 1 := ⟨rounds' - 1, by omega⟩
      rw [readAllFrom, readAllFrom]
      cases hread : readFrom maxLen stream with
      | none => rfl
      | some r =>
          have hlt := length_readFrom hread
          rw [Option.elim_some, Option.elim_some, @ih r.2 n' (by omega) (by omega)]

/-- One round of the loop. -/
theorem readAll_of_readFrom {read : Except Error Message} (h : readFrom maxLen stream = some (read, rest)) :
    readAll protocol maxLen stream =
      read :: if syncEnds protocol read then [] else readAll protocol maxLen rest := by
  have hlt := length_readFrom h
  rw [readAll, readAllFrom, h, Option.elim_some, readAllFrom_eq hlt (Nat.lt_succ_self _), readAll]

/-- One message in its frame. -/
theorem readAll_bytes (m : Hislip.Message) (tail : List UInt8) :
    readAll protocol maxLen (m.bytes ++ tail) =
      if m.payload.length ≤ maxLen.toNat then
        received m.header m.payload ::
          if syncEnds protocol (received m.header m.payload) then [] else readAll protocol maxLen tail
      else .error payloadTooLarge :: readAll protocol maxLen (m.payload ++ tail) := by
  have hlen := m.toNat_payloadLen_header
  have hmax : maxLen < m.header.payloadLen ↔ ¬m.payload.length ≤ maxLen.toNat := by
    rw [UInt64.lt_iff_toNat_lt, hlen, Nat.not_le]
  have hread := @readFrom_header maxLen m.header (m.payload ++ tail)
  rw [hlen, ← List.append_assoc, ← m.bytes_eq, take_append_of_length rfl, drop_append_of_length rfl] at hread
  split
  · next hfits =>
      rw [if_neg (mt hmax.mp (not_not.mpr hfits))] at hread
      exact readAll_of_readFrom hread
  · next hlarge =>
      rw [if_pos (hmax.mpr hlarge)] at hread
      exact readAll_of_readFrom hread

/-- The message is read whole, and the loop goes on. -/
def Passes (protocol : UInt16) (maxLen : UInt64) (m : Hislip.Message) : Bool :=
  m.payload.length ≤ maxLen.toNat && !syncEnds protocol (received m.header m.payload)

/-- **Streams of messages**: they are read one by one, up to the first one that
ends the loop, which is the last thing read, or that is over the limit; the
payload of that one is read as messages. -/
theorem readAll_wire (ms : List Hislip.Message) (tail : List UInt8) :
    readAll protocol maxLen (wire ms ++ tail) =
      (ms.takeWhile (Passes protocol maxLen)).map (fun m => received m.header m.payload) ++
        match ms.dropWhile (Passes protocol maxLen) with
        | [] => readAll protocol maxLen tail
        | m :: ms =>
            if m.payload.length ≤ maxLen.toNat then [received m.header m.payload]
            else .error payloadTooLarge :: readAll protocol maxLen (m.payload ++ wire ms ++ tail) := by
  induction ms with
  | nil => rfl
  | cons m ms ih =>
      rw [wire_cons, List.append_assoc, readAll_bytes]
      by_cases hfits : m.payload.length ≤ maxLen.toNat
      · by_cases hends : syncEnds protocol (received m.header m.payload) = true
        · have hpasses : Passes protocol maxLen m = false := by simp [Passes, hends]
          simp only [List.takeWhile_cons, List.dropWhile_cons, hpasses, hfits, hends, if_true,
            Bool.false_eq_true, if_false, List.map_nil, List.nil_append]
        · have hpasses : Passes protocol maxLen m = true := by simp [Passes, hends, hfits]
          simp only [List.takeWhile_cons, List.dropWhile_cons, hpasses, hfits, hends, if_true,
            List.map_cons, List.cons_append, ih]
          simp
      · have hpasses : Passes protocol maxLen m = false := by simp [Passes, hfits]
        simp only [List.takeWhile_cons, List.dropWhile_cons, hpasses, hfits, Bool.false_eq_true,
          if_false, List.map_nil, List.nil_append, List.append_assoc]

end

/-! ## The loop over a stream -/

section

variable {supportsOverlapped : Bool} {found : ℕ → Session × VirtualInstrument} {maxLen : UInt64}
  {protocol : UInt16}

theorem done_runCommand (s : Session) (vi : VirtualInstrument) (id : UInt32) (cmd : List UInt8) :
    (runCommand s vi id cmd).done = false := by
  rw [runCommand]
  dsimp only
  split
  · rfl
  · rfl

/-- What a round returns on. -/
theorem done_syncLoop (s : Session) (vi : VirtualInstrument) (read : Except Error Message) :
    (syncLoop supportsOverlapped s vi read).done = syncEnds s.protocol read := by
  cases read with
  | error e => cases e <;> rfl
  | ok msg =>
      have hprotocol : s.noteClears.protocol = s.protocol := by
        rw [Session.noteClears]
        split <;> rfl
      simp only [syncLoop, syncEnds]
      cases msg.messageType with
      | dataEnd => exact done_runCommand _ _ _ _
      | startTls | endTls | getSaslMechanismList | authenticationStart | authenticationExchange =>
          simp only [hprotocol]
          split
          · next h => exact h.symm
          · next h => exact (Bool.not_eq_true _ ▸ h).symm
      | _ => rfl

/-- An error that is not fatal is answered, and is all that comes of it. -/
theorem syncLoop_nonFatal (s : Session) (vi : VirtualInstrument) {e : Error}
    (h : isFatal (.error e) = false) :
    syncLoop supportsOverlapped s vi (.error e) = { session := s, bus := vi, sent := [e.message] } := by
  cases e with
  | fatal code text => cases h
  | nonFatal code text => rfl

theorem map_fst_syncRoundsFrom (h : ∀ n, (found n).1.protocol = protocol) (rounds n : ℕ)
    (stream : List UInt8) :
    (syncRoundsFrom supportsOverlapped found maxLen rounds n stream).map Prod.fst =
      readAllFrom protocol maxLen rounds stream := by
  induction rounds generalizing n stream with
  | zero => rfl
  | succ rounds ih =>
      rw [syncRoundsFrom, readAllFrom]
      cases hread : readFrom maxLen stream with
      | none => rfl
      | some r =>
          simp only [Option.elim_some, done_syncLoop, h, List.map_cons]
          split
          · rfl
          · rw [ih]

theorem getElem?_syncRoundsFrom {rounds n i : ℕ} {stream : List UInt8} {read : Except Error Message}
    {round : Round}
    (h : (syncRoundsFrom supportsOverlapped found maxLen rounds n stream)[i]? = some (read, round)) :
    round = syncLoop supportsOverlapped (found (n + i)).1 (found (n + i)).2 read := by
  induction rounds generalizing n i stream with
  | zero => cases h
  | succ rounds ih =>
      rw [syncRoundsFrom] at h
      cases hread : readFrom maxLen stream with
      | none =>
          rw [hread] at h
          cases h
      | some r =>
          rw [hread, Option.elim_some] at h
          cases i with
          | zero =>
              cases h
              rfl
          | succ i =>
              rw [List.getElem?_cons_succ] at h
              split at h
              · cases h
              · rw [ih h, Nat.add_right_comm, Nat.add_assoc]

/-- **The synchronous channel over a stream of messages**, of types there are or
not, whatever others do to the session and the bus between its rounds: it reads
them one by one, and each message of no type there is is answered with that, and
with nothing else.  It goes on up to the first message that ends the loop, which
is the last thing it reads, or that is over the limit, which is answered in the
same way and whose payload is read as messages. -/
theorem syncRounds_wire (supportsOverlapped : Bool) {found : ℕ → Session × VirtualInstrument}
    (h : ∀ n, (found n).1.protocol = protocol) (ms : List Hislip.Message) (tail : List UInt8) :
    (syncRounds supportsOverlapped found maxLen (wire ms ++ tail)).map Prod.fst =
        (ms.takeWhile (Passes protocol maxLen)).map (fun m => received m.header m.payload) ++
          (match ms.dropWhile (Passes protocol maxLen) with
          | [] => readAll protocol maxLen tail
          | m :: ms =>
              if m.payload.length ≤ maxLen.toNat then [received m.header m.payload]
              else .error payloadTooLarge :: readAll protocol maxLen (m.payload ++ wire ms ++ tail)) ∧
      ∀ n read round, (syncRounds supportsOverlapped found maxLen (wire ms ++ tail))[n]? = some (read, round) →
        round = syncLoop supportsOverlapped (found n).1 (found n).2 read ∧
        ∀ e, read = .error e → isFatal read = false →
          round = { session := (found n).1, bus := (found n).2, sent := [e.message] } := by
  refine ⟨?_, fun n read round hround => ?_⟩
  · rw [← readAll_wire, syncRounds, map_fst_syncRoundsFrom h, readAll]
  · have hloop := getElem?_syncRoundsFrom hround
    rw [Nat.zero_add] at hloop
    refine ⟨hloop, ?_⟩
    rintro e rfl hfatal
    rw [hloop, syncLoop_nonFatal _ _ hfatal]

end

/-- A message of a type there is not. -/
def unheardOf : Hislip.Message := ⟨99, 0, 0, [1, 2, 3], Hislip.Message.short_three⟩

/-- A client gives up. -/
def clientFatal : Hislip.Message := ⟨2, 0, 0, [], Hislip.Message.short_nil⟩

/-- What a new session reads of a message of no type there is, a client's fatal
error and that message again. -/
def givenUp : List (Except Error Message × Round) :=
  syncRounds false (fun _ => (opened, .new [5])) 1024 (wire [unheardOf, clientFatal, unheardOf] ++ [])

/-- The first message is answered, the second ends the loop, and the third is not
read. -/
theorem syncRounds_wire_fatal :
    givenUp.map Prod.fst = [.error (unrecognizedType 99), .ok ⟨.fatalError, 0, 0, []⟩] ∧
      givenUp[0]?.map (fun r => r.2.sent) = some [(unrecognizedType 99).message] := by
  obtain ⟨hreads, hrounds⟩ := @syncRounds_wire 1024 protocol20 false (fun _ => (opened, .new [5]))
    (fun _ => rfl) [unheardOf, clientFatal, unheardOf] []
  have hfst : givenUp.map Prod.fst = [.error (unrecognizedType 99), .ok ⟨.fatalError, 0, 0, []⟩] :=
    hreads.trans (by decide +kernel)
  have hfirst : givenUp[0]?.map Prod.fst = some (.error (unrecognizedType 99)) := by
    rw [← List.getElem?_map, hfst]
    rfl
  obtain ⟨⟨read, round⟩, hget, hread⟩ := Option.map_eq_some_iff.mp hfirst
  have hround := (hrounds 0 read round hget).2 _ hread (congrArg isFatal hread)
  refine ⟨hfst, ?_⟩
  rw [hget, Option.map_some, hround]

end TestGear.Hislip.Server
