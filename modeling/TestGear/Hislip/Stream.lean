import TestGear.Hislip.Header

/-!
# TestGear.Hislip.Stream

What a HiSLIP byte stream is, as opposed to how the tracker walks it: a list
of well-formed `Message`s, sent back to back (`wire`), and cut by TCP into
chunks.

A chunk that starts at a message boundary and does not end inside a header
holds whole messages and perhaps the beginning of one more.  Such a chunk is
a chain of `Piece`s — headers, each with the payload bytes that have arrived —
and `Arrived` relates it to the messages it is made of and to the payload
still to come (`carry`).  The results the tracker proofs rest on:

* `scan_chain`, `headers_chain` — both walkers find exactly the chain's
  headers, and `scan`'s leftover is the length of the carry;
* `exists_arrived` — every chunk that cuts no header is such a chain.
-/

namespace TestGear.Hislip

/-! ## Messages on the wire -/

/-- One well-formed HiSLIP message. -/
structure Message where
  messageType : UInt8
  controlCode : UInt8
  messageParameter : UInt32
  payload : List UInt8
  short : payload.length < 2 ^ 63

namespace Message

theorem short_nil : ([] : List UInt8).length < 2 ^ 63 := by decide

theorem short_three : ([1, 2, 3] : List UInt8).length < 2 ^ 63 := by decide

/-- The header a message is sent with: its length field counts its payload. -/
def header (m : Message) : Header where
  messageType := m.messageType
  controlCode := m.controlCode
  messageParameter := m.messageParameter
  payloadLen := UInt64.ofNat m.payload.length

/-- The bytes of a message, by the server's own encoder. -/
def bytes (m : Message) : List UInt8 :=
  message m.messageType m.controlCode m.messageParameter m.payload

def size (m : Message) : Nat := headerLen + m.payload.length

theorem bytes_eq (m : Message) : m.bytes = m.header.bytes ++ m.payload := rfl

@[simp] theorem length_bytes (m : Message) : m.bytes.length = m.size := by
  simp [bytes_eq, size]

@[simp] theorem toNat_payloadLen_header (m : Message) :
    m.header.payloadLen.toNat = m.payload.length := by
  have hlt : m.payload.length < 2 ^ 64 := Nat.lt_trans m.short (by decide)
  exact UInt64.toNat_ofNat_of_lt' hlt

theorem headerLen_le_size (m : Message) : headerLen ≤ m.size := Nat.le_add_right _ _

end Message

/-- A message list as one connection sends it. -/
def wire (ms : List Message) : List UInt8 := ms.flatMap Message.bytes

@[simp] theorem wire_nil : wire [] = [] := rfl

@[simp] theorem wire_cons (m : Message) (ms : List Message) :
    wire (m :: ms) = m.bytes ++ wire ms := rfl

@[simp] theorem wire_append (xs ys : List Message) : wire (xs ++ ys) = wire xs ++ wire ys := by
  simp [wire]

/-! ## Chains of pieces -/

/-- A message as far as a chunk holds it: its header and the payload bytes
that have arrived. -/
structure Piece where
  header : Header
  body : List UInt8
  fits : body.length ≤ header.payloadLen.toNat
  short : header.payloadLen.toNat < 2 ^ 63

namespace Piece

def bytes (p : Piece) : List UInt8 := p.header.bytes ++ p.body

/-- Payload bytes the header promises that have not arrived. -/
def missing (p : Piece) : Nat := p.header.payloadLen.toNat - p.body.length

@[simp] theorem length_bytes (p : Piece) : p.bytes.length = headerLen + p.body.length := by
  simp [bytes]

end Piece

/-- A whole message as a piece with nothing missing. -/
def Message.piece (m : Message) : Piece where
  header := m.header
  body := m.payload
  fits := by simp
  short := by simpa using m.short

@[simp] theorem Message.bytes_piece (m : Message) : m.piece.bytes = m.bytes := rfl

@[simp] theorem Message.missing_piece (m : Message) : m.piece.missing = 0 := by
  simp [Piece.missing, Message.piece]

def pieceBytes (ps : List Piece) : List UInt8 := ps.flatMap Piece.bytes

@[simp] theorem pieceBytes_nil : pieceBytes [] = [] := rfl

@[simp] theorem pieceBytes_cons (p : Piece) (ps : List Piece) :
    pieceBytes (p :: ps) = p.bytes ++ pieceBytes ps := rfl

@[simp] theorem pieceBytes_append (ps qs : List Piece) :
    pieceBytes (ps ++ qs) = pieceBytes ps ++ pieceBytes qs := by
  simp [pieceBytes]

/-- Pieces that can stand in one chunk: only the last may be incomplete. -/
def Chain : List Piece → Prop
  | [] => True
  | p :: ps => (ps ≠ [] → p.missing = 0) ∧ Chain ps

/-- Payload bytes owed past the end of a chain. -/
def owed : List Piece → Nat
  | [] => 0
  | p :: ps => p.missing + owed ps

/-- The pieces' headers with the offsets they stand at, from `pos` on. -/
def offsets : Nat → List Piece → List (Nat × Header)
  | _, [] => []
  | pos, p :: ps => (pos, p.header) :: offsets (pos + p.bytes.length) ps

theorem length_le_pieceBytes (ps : List Piece) : ps.length ≤ (pieceBytes ps).length := by
  induction ps with
  | nil => simp
  | cons p ps ih =>
      simp only [pieceBytes_cons, List.length_cons, List.length_append, Piece.length_bytes,
        headerLen]
      omega

/-! ## The walkers on a chain -/

/-- Bytes behind a chain that make no header, and there are none behind a
message that is still arriving. -/
structure Trails (ps : List Piece) (tail : List UInt8) : Prop where
  short : tail.length < headerLen
  whole : tail ≠ [] → owed ps = 0

theorem trails_nil (ps : List Piece) : Trails ps [] := ⟨by decide, fun h => absurd rfl h⟩

theorem Trails.of_cons {p : Piece} {ps : List Piece} (h : Trails (p :: ps) tail) : Trails ps tail :=
  ⟨h.short, fun hne => (Nat.add_eq_zero_iff.mp (h.whole hne)).2⟩

/-- A chain's first piece, seen by a walker standing at its header. -/
theorem drop_piece {buf rest : List UInt8} {p : Piece} (hpos : pos ≤ buf.length)
    (hbuf : buf.drop pos = p.bytes ++ rest) :
    buf.drop pos = p.header.bytes ++ (p.body ++ rest) ∧
      buf.length = pos + headerLen + p.body.length + rest.length ∧
      buf.drop (pos + headerLen + p.body.length) = rest := by
  have hfull : buf.drop pos = p.header.bytes ++ (p.body ++ rest) := by
    rw [hbuf, Piece.bytes, List.append_assoc]
  refine ⟨hfull, ?_, ?_⟩
  · have hlen := length_of_drop_eq hpos hfull
    simp only [List.length_append, Header.length_bytes] at hlen
    omega
  · have hp : p.bytes.length = headerLen + p.body.length := p.length_bytes
    rw [Nat.add_assoc, ← List.drop_drop, hbuf, drop_append_of_length hp]

/-- `headers` finds exactly the headers of a chain, at their offsets. -/
theorem headersFrom_chain {buf tail : List UInt8} {ps : List Piece} (hc : Chain ps)
    (htail : Trails ps tail) (hpos : pos ≤ buf.length) (hbuf : buf.drop pos = pieceBytes ps ++ tail)
    (hr : ps.length < rounds) : headersFrom buf rounds pos = some (offsets pos ps) := by
  induction ps generalizing pos rounds with
  | nil =>
      obtain ⟨r, rfl⟩ := Nat.exists_eq_add_one.mpr (Nat.zero_lt_of_lt hr)
      have hend : buf.length = pos + tail.length := by simpa using length_of_drop_eq hpos hbuf
      have hshort : ¬ pos + headerLen ≤ buf.length := by have := htail.short; omega
      exact headersFrom_of_not_stands (fun hs => hshort hs.1) r
  | cons p ps ih =>
      obtain ⟨r, rfl⟩ := Nat.exists_eq_add_one.mpr (Nat.zero_lt_of_lt hr)
      rw [pieceBytes_cons, List.append_assoc] at hbuf
      obtain ⟨hhead, hsize, hrest⟩ := drop_piece hpos hbuf
      have hfits := p.fits
      have hshort := p.short
      have hwrap : (headerLen + p.header.payloadLen.toNat) % 2 ^ 64 =
          headerLen + p.header.payloadLen.toNat := Nat.mod_eq_of_lt (by simp only [headerLen]; omega)
      rw [headersFrom_of_stands (stands_of_drop hhead), readHeader_of_drop hhead, hwrap]
      by_cases hm : p.missing = 0
      · -- the message is whole: the walk goes on behind its payload
        have hwhole : p.header.payloadLen.toNat = p.body.length := by
          rw [Piece.missing] at hm; omega
        have hnext : pos + (headerLen + p.header.payloadLen.toNat) =
            pos + headerLen + p.body.length := by omega
        rw [if_neg (by omega), hnext, ih hc.2 htail.of_cons (by omega) hrest (by simpa using hr)]
        simp [offsets, Nat.add_assoc]
      · -- the message is still arriving, so it is the last thing here
        have hps : ps = [] := by
          by_contra hne
          exact hm (hc.1 hne)
        have hnone : tail = [] := by
          by_contra hne
          exact hm (Nat.add_eq_zero_iff.mp (htail.whole hne)).1
        subst hps hnone
        have hover : buf.length - pos < headerLen + p.header.payloadLen.toNat := by
          rw [Piece.missing] at hm
          simp only [pieceBytes_nil, List.append_nil, List.length_nil] at hsize
          omega
        rw [if_pos hover, offsets, offsets]

/-- `scan` finds the same headers, and its leftover is what the chain owes. -/
theorem scanFrom_chain {buf : List UInt8} (hlen : buf.length < 2 ^ 63) {ps : List Piece}
    (hc : Chain ps) (hpos : pos ≤ buf.length) (hbuf : buf.drop pos = pieceBytes ps)
    (hr : ps.length < rounds) :
    scanFrom buf rounds pos = some (ps.map Piece.header, owed ps) := by
  induction ps generalizing pos rounds with
  | nil =>
      obtain ⟨r, rfl⟩ := Nat.exists_eq_add_one.mpr (Nat.zero_lt_of_lt hr)
      have hend : buf.length = pos := by simpa using length_of_drop_eq hpos hbuf
      have hshort : ¬ pos + headerLen ≤ buf.length := by rw [hend, headerLen]; omega
      exact scanFrom_of_not_stands (fun hs => hshort hs.1) r
  | cons p ps ih =>
      obtain ⟨r, rfl⟩ := Nat.exists_eq_add_one.mpr (Nat.zero_lt_of_lt hr)
      rw [pieceBytes_cons] at hbuf
      obtain ⟨hhead, hsize, htail⟩ := drop_piece hpos hbuf
      have hfits := p.fits
      have hshort := p.short
      have hwrap : (pos + headerLen + p.header.payloadLen.toNat) % 2 ^ 64 =
          pos + headerLen + p.header.payloadLen.toNat :=
        Nat.mod_eq_of_lt (by simp only [headerLen] at *; omega)
      rw [scanFrom_of_stands (stands_of_drop hhead), readHeader_of_drop hhead, hwrap]
      by_cases hm : p.missing = 0
      · have hwhole : p.header.payloadLen.toNat = p.body.length := by
          rw [Piece.missing] at hm; omega
        rw [if_neg (by omega), hwhole, ih hc.2 (by omega) htail (by simpa using hr)]
        simp [owed, hm]
      · have hps : ps = [] := by
          by_contra hne
          exact hm (hc.1 hne)
        subst hps
        simp only [pieceBytes_nil, List.length_nil, Nat.add_zero] at hsize
        rw [if_pos (by rw [Piece.missing] at hm; omega)]
        simp only [List.map_cons, List.map_nil, owed, Piece.missing, Option.some.injEq,
          Prod.mk.injEq, true_and]
        omega

theorem headers_chain {ps : List Piece} (hc : Chain ps) (htail : Trails ps tail) :
    headers (pieceBytes ps ++ tail) = some (offsets 0 ps) := by
  have hle := length_le_pieceBytes ps
  refine headersFrom_chain hc htail (Nat.zero_le _) rfl ?_
  rw [List.length_append]
  omega

theorem scan_chain {ps : List Piece} (hc : Chain ps) (hlen : (pieceBytes ps).length < 2 ^ 63) :
    scan (pieceBytes ps) = some (ps.map Piece.header, owed ps) :=
  scanFrom_chain hlen hc (Nat.zero_le _) rfl (Nat.lt_succ_of_le (length_le_pieceBytes ps))

/-! ## Where a chunk may end -/

/-- Does offset `off` of the stream fall strictly inside a header? -/
def insideHeader : List Message → Nat → Bool
  | [], _ => false
  | m :: ms, off =>
      (0 < off && off < headerLen) || (m.size ≤ off && insideHeader ms (off - m.size))

@[simp] theorem insideHeader_zero (ms : List Message) : insideHeader ms 0 = false := by
  induction ms with
  | nil => rfl
  | cons m ms ih =>
      have hpos : ¬ m.size ≤ 0 := by have := m.headerLen_le_size; simp only [headerLen] at this; omega
      simp [insideHeader, hpos]

/-- Behind whole messages, an offset is judged by the messages that follow. -/
theorem insideHeader_append (xs ys : List Message) {off : Nat} (h : (wire xs).length ≤ off) :
    insideHeader (xs ++ ys) off = insideHeader ys (off - (wire xs).length) := by
  induction xs generalizing off with
  | nil => simp
  | cons m xs ih =>
      have hsize := m.headerLen_le_size
      simp only [wire_cons, List.length_append, Message.length_bytes] at h ⊢
      have hhead : ¬ off < headerLen := by omega
      have hle : m.size ≤ off := by omega
      simp only [List.cons_append, insideHeader, hhead, hle, decide_false, decide_true,
        Bool.and_false, Bool.false_or, Bool.true_and]
      rw [ih (by omega), Nat.sub_sub]

/-- `Arrived begun ps carry`: the chain `ps` is what has arrived of the
messages `begun`, and `carry` is the rest of the last one's payload. -/
inductive Arrived : List Message → List Piece → List UInt8 → Prop
  | nil : Arrived [] [] []
  | last (m : Message) (p : Piece) (carry : List UInt8) (hh : p.header = m.header)
      (hb : m.payload = p.body ++ carry) : Arrived [m] [p] carry
  | cons (m : Message) {ms : List Message} {ps : List Piece} {carry : List UInt8}
      (h : Arrived ms ps carry) : Arrived (m :: ms) (m.piece :: ps) carry

namespace Arrived

theorem chain (h : Arrived ms ps carry) : Chain ps := by
  induction h with
  | nil => trivial
  | last m p carry hh hb => exact ⟨fun hne => absurd rfl hne, trivial⟩
  | cons m h ih => exact ⟨fun _ => m.missing_piece, ih⟩

theorem map_header (h : Arrived ms ps carry) : ps.map Piece.header = ms.map Message.header := by
  induction h with
  | nil => rfl
  | last m p carry hh hb => simp [hh]
  | cons m h ih => simp [ih, Message.piece]

theorem owed_eq (h : Arrived ms ps carry) : owed ps = carry.length := by
  induction h with
  | nil => rfl
  | last m p carry hh hb =>
      have hlen : m.payload.length = p.body.length + carry.length := by
        rw [hb, List.length_append]
      simp only [owed, Piece.missing, hh, Message.toNat_payloadLen_header]
      omega
  | cons m h ih => simp [owed, ih]

/-- What has arrived and what is still to come are the messages' bytes. -/
theorem append_carry (h : Arrived ms ps carry) : pieceBytes ps ++ carry = wire ms := by
  induction h with
  | nil => rfl
  | last m p carry hh hb => simp [Piece.bytes, hh, Message.bytes_eq, hb]
  | cons m h ih => simp [← ih]

end Arrived

/-- A chunk cut from the front of a stream, not inside a header, is a chain
of pieces of the messages it begins. -/
theorem exists_arrived (ms : List Message) {c rest : List UInt8} (h : c ++ rest = wire ms)
    (hcut : insideHeader ms c.length = false) :
    ∃ begun later ps carry, ms = begun ++ later ∧ Arrived begun ps carry ∧
      c = pieceBytes ps ∧ rest = carry ++ wire later := by
  induction ms generalizing c with
  | nil =>
      obtain ⟨rfl, rfl⟩ := List.append_eq_nil_iff.mp h
      exact ⟨[], [], [], [], rfl, .nil, rfl, rfl⟩
  | cons m ms ih =>
      rw [wire_cons] at h
      rcases Nat.lt_or_ge c.length m.size with hlt | hge
      · rcases List.eq_nil_or_concat c with rfl | hne
        · exact ⟨[], m :: ms, [], [], rfl, .nil, rfl, by simpa using h⟩
        · -- the chunk ends inside `m`, behind its header
          have hc0 : 0 < c.length := by obtain ⟨l, b, rfl⟩ := hne; simp
          have h16 : headerLen ≤ c.length := by
            by_contra hlt16
            simp [insideHeader, hc0, Nat.lt_of_not_le hlt16] at hcut
          obtain ⟨carry, hm, hrest⟩ :=
            append_eq_append_of_le h (by rw [Message.length_bytes]; omega)
          obtain ⟨body, hc, hpay⟩ := append_eq_append_of_le
            (a := m.header.bytes) (b := m.payload) (c := c) (d := carry)
            (by rw [← Message.bytes_eq, hm]) (by rw [Header.length_bytes]; exact h16)
          have hfits : body.length ≤ m.header.payloadLen.toNat := by
            rw [Message.toNat_payloadLen_header, hpay, List.length_append]; omega
          have hshort : m.header.payloadLen.toNat < 2 ^ 63 := by
            rw [Message.toNat_payloadLen_header]; exact m.short
          exact ⟨[m], ms, [⟨m.header, body, hfits, hshort⟩], carry, rfl,
            .last m _ carry rfl hpay, by simp [Piece.bytes, hc], hrest⟩
      · obtain ⟨c', hc, hrest⟩ := append_eq_append_of_le h.symm
          (by rw [Message.length_bytes]; exact hge)
        have hcut' : insideHeader ms c'.length = false := by
          have hle : (wire [m]).length ≤ c.length := by simpa using hge
          have happ := insideHeader_append [m] ms hle
          have hlen : c.length - (wire [m]).length = c'.length := by simp [hc]
          rw [← hlen, ← happ]
          exact hcut
        obtain ⟨begun, later, ps, carry, hms, harr, hps, hcarry⟩ := ih hrest.symm hcut'
        exact ⟨m :: begun, later, m.piece :: ps, carry, by rw [hms]; rfl, .cons m harr,
          by rw [hc, hps]; rfl, hcarry⟩

end TestGear.Hislip
