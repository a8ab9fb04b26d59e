import TestGear.Bytes

/-!
# TestGear.Hislip.Header

The HiSLIP header walkers of `hislip_fault.rs`: the encoder `message`, the
header reader, and the two loops over a buffer's headers — `scan`, which
observation uses and which also reports the payload bytes still owed past
the end of the buffer, and `headers`, which injection uses and which reports
offsets.

Both loops add a 64-bit payload length to a position.  The server is built
in release mode, where that sum wraps, so a payload length close to `2^64`
can send a loop back to where it was.  The loops are therefore modelled with
a bound on the number of rounds, one more than the buffer has bytes: a loop
that ends at all ends sooner, since it cannot be at one position twice, and
`none` stands for a loop that never ends.  No message whose length stays
below `2^63` can reach that case.
-/

namespace TestGear.Hislip

/-- Every HiSLIP message opens with a header of this size. -/
def headerLen : Nat := 16

/-- The prologue, ASCII "HS". -/
def prologue : List UInt8 := [0x48, 0x53]

def msgData : UInt8 := 6

def msgDataEnd : UInt8 := 7

/-- The fields of one message header. -/
structure Header where
  messageType : UInt8
  controlCode : UInt8
  messageParameter : UInt32
  payloadLen : UInt64
deriving DecidableEq, Repr

/-- One HiSLIP message, header and payload. -/
def message (messageType controlCode : UInt8) (parameter : UInt32) (payload : List UInt8) :
    List UInt8 :=
  prologue ++ [messageType, controlCode] ++ be32 parameter ++
    be64 (UInt64.ofNat payload.length) ++ payload

/-- The header at `pos`.  The callers have checked that all 16 bytes are
there. -/
def readHeader (buf : List UInt8) (pos : Nat) : Header where
  messageType := buf.getD (pos + 2) 0
  controlCode := buf.getD (pos + 3) 0
  messageParameter := ofBE32 (slice buf (pos + 4) 4)
  payloadLen := ofBE64 (slice buf (pos + 8) 8)

/-- Does the buffer carry the prologue at `pos`? -/
def hasPrologue (buf : List UInt8) (pos : Nat) : Bool :=
  buf.getD pos 0 == 0x48 && buf.getD (pos + 1) 0 == 0x53

/-- The loop of `scan` from position `pos`, for at most `rounds` rounds. -/
def scanFrom (buf : List UInt8) : (rounds pos : Nat) → Option (List Header × Nat)
  | 0, _ => none
  | rounds + 1, pos =>
      if buf.length < pos + headerLen then
        some ([], 0)
      else if !hasPrologue buf pos then
        some ([], 0)
      else
        let header := readHeader buf pos
        -- `pos as u64 + HEADER_LEN as u64 + payload` wraps in a release build
        let stop := (pos + headerLen + header.payloadLen.toNat) % 2 ^ 64
        if buf.length < stop then
          some ([header], stop - buf.length)
        else
          (scanFrom buf rounds stop).map fun r => (header :: r.1, r.2)

/-- Headers in `buf`, plus payload bytes still owed past its end. -/
def scan (buf : List UInt8) : Option (List Header × Nat) := scanFrom buf (buf.length + 1) 0

/-- The loop of `headers` from position `pos`, for at most `rounds` rounds. -/
def headersFrom (buf : List UInt8) : (rounds pos : Nat) → Option (List (Nat × Header))
  | 0, _ => none
  | rounds + 1, pos =>
      if pos + headerLen ≤ buf.length then
        if !hasPrologue buf pos then
          some []
        else
          let header := readHeader buf pos
          let step := (headerLen + header.payloadLen.toNat) % 2 ^ 64
          if buf.length - pos < step then
            some [(pos, header)]
          else
            (headersFrom buf rounds (pos + step)).map fun r => (pos, header) :: r
      else
        some []

/-- Every `(offset, header)` in the buffer, walking payload lengths. -/
def headers (buf : List UInt8) : Option (List (Nat × Header)) :=
  headersFrom buf (buf.length + 1) 0

/-! ## Header bytes -/

/-- The 16 bytes a header is sent as. -/
def Header.bytes (h : Header) : List UInt8 :=
  prologue ++ [h.messageType, h.controlCode] ++ be32 h.messageParameter ++ be64 h.payloadLen

@[simp] theorem Header.length_bytes (h : Header) : h.bytes.length = headerLen := by
  simp [Header.bytes, prologue, headerLen]

theorem hasPrologue_of_drop {buf tail : List UInt8} {h : Header}
    (hbuf : buf.drop pos = h.bytes ++ tail) : hasPrologue buf pos = true := by
  have h0 : buf.getD pos 0 = (buf.drop pos).getD 0 0 := by simp [List.getD_eq_getElem?_getD]
  have h1 : buf.getD (pos + 1) 0 = (buf.drop pos).getD 1 0 := by
    simp [List.getD_eq_getElem?_getD]
  rw [hasPrologue, h0, h1, hbuf]
  simp [Header.bytes, prologue]

/-- A header reads back from its own bytes, wherever they stand. -/
theorem readHeader_of_drop {buf tail : List UInt8} {h : Header}
    (hbuf : buf.drop pos = h.bytes ++ tail) : readHeader buf pos = h := by
  have hget (i : Nat) : buf.getD (pos + i) 0 = (buf.drop pos).getD i 0 := by
    simp [List.getD_eq_getElem?_getD]
  have hparam : slice (h.bytes ++ tail) 4 4 = be32 h.messageParameter := by
    have hlen : (prologue ++ [h.messageType, h.controlCode]).length = 4 := rfl
    rw [slice, Header.bytes, List.append_assoc, List.append_assoc,
      drop_append_of_length hlen, take_append_of_length (length_be32 _)]
  have hpay : slice (h.bytes ++ tail) 8 8 = be64 h.payloadLen := by
    have hlen : (prologue ++ [h.messageType, h.controlCode] ++
        be32 h.messageParameter).length = 8 := by simp [prologue]
    rw [slice, Header.bytes, List.append_assoc, drop_append_of_length hlen,
      take_append_of_length (length_be64 _)]
  rw [readHeader, hget, hget, slice_add, slice_add, hbuf, hparam, hpay]
  simp [Header.bytes, prologue]

/-! ## One round of the loops -/

/-- Is there a header at `pos`? -/
def Stands (buf : List UInt8) (pos : Nat) : Prop :=
  pos + headerLen ≤ buf.length ∧ hasPrologue buf pos = true

instance (buf : List UInt8) (pos : Nat) : Decidable (Stands buf pos) :=
  inferInstanceAs (Decidable (_ ∧ _))

theorem stands_of_drop {buf rest : List UInt8} {h : Header} (hbuf : buf.drop pos = h.bytes ++ rest) :
    Stands buf pos := by
  have hlen := congrArg List.length hbuf
  rw [List.length_drop, List.length_append, Header.length_bytes] at hlen
  refine ⟨?_, hasPrologue_of_drop hbuf⟩
  simp only [headerLen] at hlen ⊢
  omega

/-- Where no header stands, both loops end. -/
theorem headersFrom_of_not_stands {buf : List UInt8} (hs : ¬ Stands buf pos) (rounds : Nat) :
    headersFrom buf (rounds + 1) pos = some [] := by
  rw [headersFrom]
  by_cases hfit : pos + headerLen ≤ buf.length
  · have hp : ¬ hasPrologue buf pos = true := fun hp => hs ⟨hfit, hp⟩
    rw [if_pos hfit, if_pos (by simpa using hp)]
  · rw [if_neg hfit]

theorem scanFrom_of_not_stands {buf : List UInt8} (hs : ¬ Stands buf pos) (rounds : Nat) :
    scanFrom buf (rounds + 1) pos = some ([], 0) := by
  rw [scanFrom]
  by_cases hfit : buf.length < pos + headerLen
  · rw [if_pos hfit]
  · have hp : ¬ hasPrologue buf pos = true := fun hp => hs ⟨Nat.le_of_not_lt hfit, hp⟩
    rw [if_neg hfit, if_pos (by simpa using hp)]

/-- One round of either loop at a header. -/
theorem headersFrom_of_stands {buf : List UInt8} (hs : Stands buf pos) (rounds : Nat) :
    headersFrom buf (rounds + 1) pos =
      if buf.length - pos < (headerLen + (readHeader buf pos).payloadLen.toNat) % 2 ^ 64 then
        some [(pos, readHeader buf pos)]
      else
        (headersFrom buf rounds
          (pos + (headerLen + (readHeader buf pos).payloadLen.toNat) % 2 ^ 64)).map
            ((pos, readHeader buf pos) :: ·) := by
  rw [headersFrom, if_pos hs.1, hs.2]
  rfl

theorem scanFrom_of_stands {buf : List UInt8} (hs : Stands buf pos) (rounds : Nat) :
    scanFrom buf (rounds + 1) pos =
      if buf.length < (pos + headerLen + (readHeader buf pos).payloadLen.toNat) % 2 ^ 64 then
        some ([readHeader buf pos],
          (pos + headerLen + (readHeader buf pos).payloadLen.toNat) % 2 ^ 64 - buf.length)
      else
        (scanFrom buf rounds
          ((pos + headerLen + (readHeader buf pos).payloadLen.toNat) % 2 ^ 64)).map
            fun r => (readHeader buf pos :: r.1, r.2) := by
  rw [scanFrom, if_neg (Nat.not_lt.mpr hs.1), hs.2]
  rfl

end TestGear.Hislip
