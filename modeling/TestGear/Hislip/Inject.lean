import TestGear.Hislip.Stream
import TestGear.Hislip.Tracker

/-!
# TestGear.Hislip.Inject

What `rewrite` does to a chunk whose headers it locates rightly: the payload
owed from before (`carry`) followed by a chain of pieces.

Every fault acts on one header at a time and leaves every length as it was,
so a rewritten chunk is the same chain with its headers sent differently
(`Header.sent`).  The split acts first and on the pieces (`splitPieces`): one
whole DataEND becomes a Data and a DataEND.

* `rewriteFaults_chain` — the chunk a call forwards and the faults it leaves
  armed, with the split knob taken into account;
* `splitPieces_arrived` — a split chunk carries a split message and is
  otherwise the same messages.
-/

namespace TestGear.Hislip

/-! ## One header -/

/-- A header as the loop sends it: with its prologue broken or not, and its
Message Parameter skewed. -/
def Header.sent (h : Header) (broken : Bool) (skew : UInt32) : List UInt8 :=
  (if broken then [0x58, 0x53] else prologue) ++ [h.messageType, h.controlCode] ++
    be32 (h.messageParameter + skew) ++ be64 h.payloadLen

@[simp] theorem Header.length_sent (h : Header) (broken : Bool) (skew : UInt32) :
    (h.sent broken skew).length = headerLen := by
  cases broken <;> simp [Header.sent, prologue, headerLen]

@[simp] theorem Header.sent_zero (h : Header) : h.sent false 0 = h.bytes := by
  simp [Header.sent, Header.bytes]

/-- What a fault set adds to the Message Parameter of a header. -/
def skewOf (f : HislipFaults) (h : Header) : UInt32 :=
  if h.messageType = msgDataEnd then f.skewDataEndId.getD 0
  else if h.messageType = msgData then f.skewDataId.getD 0
  else 0

/-- A header as a call sends it whose copy of the armed faults is `f`. -/
def patched (f : HislipFaults) (h : Header) : List UInt8 :=
  h.sent (f.breakPrologue.getD false) (skewOf f h)

/-- Does a call whose copy of the armed faults is `f` change this header? -/
def hits (f : HislipFaults) (h : Header) : Bool :=
  (f.skewDataEndId.isSome && h.messageType == msgDataEnd) ||
    (f.skewDataId.isSome && h.messageType == msgData) || f.breakPrologue.getD false

/-- The shared fault set `g` after a header has been rewritten. -/
def disarm (f : HislipFaults) (g : HislipFaults) (h : Header) : HislipFaults :=
  { g with
    skewDataEndId :=
      if f.skewDataEndId.isSome && h.messageType == msgDataEnd then none else g.skewDataEndId
    skewDataId := if f.skewDataId.isSome && h.messageType == msgData then none else g.skewDataId
    breakPrologue := if f.breakPrologue.getD false then some false else g.breakPrologue }

theorem patched_of_not_hits {f : HislipFaults} {h : Header} (hh : hits f h = false) :
    patched f h = h.bytes := by
  simp only [hits, Bool.or_eq_false_iff, Bool.and_eq_false_iff, Option.isSome_eq_false_iff,
    Option.isNone_iff_eq_none, beq_eq_false_iff_ne] at hh
  obtain ⟨⟨hend, hdata⟩, hbreak⟩ := hh
  have hskew : skewOf f h = 0 := by
    unfold skewOf
    split
    · next ht => simp [hend.resolve_right (fun hne => hne ht)]
    · split
      · next ht => simp [hdata.resolve_right (fun hne => hne ht)]
      · rfl
  rw [patched, hbreak, hskew, Header.sent_zero]

theorem disarm_of_not_hits {f g : HislipFaults} {h : Header} (hh : hits f h = false) :
    disarm f g h = g := by
  simp only [hits, Bool.or_eq_false_iff] at hh
  simp [disarm, hh.1.1, hh.1.2, hh.2]

theorem splice_parameter (pre tail : List UInt8) (h : Header) (broken : Bool) (skew x : UInt32) :
    splice (pre ++ (h.sent broken skew ++ tail)) (pre.length + 4) (be32 (h.messageParameter + x)) =
      pre ++ (h.sent broken x ++ tail) := by
  have hlen : ((if broken then [0x58, 0x53] else prologue) ++
      [h.messageType, h.controlCode]).length = 4 := by cases broken <;> rfl
  have h4 := splice_append_right
    ((if broken then [0x58, 0x53] else prologue) ++ [h.messageType, h.controlCode])
    (be32 (h.messageParameter + skew) ++ (be64 h.payloadLen ++ tail)) 0
    (be32 (h.messageParameter + x))
  have h0 : splice (be32 (h.messageParameter + skew) ++ (be64 h.payloadLen ++ tail)) 0
      (be32 (h.messageParameter + x)) =
      be32 (h.messageParameter + x) ++ (be64 h.payloadLen ++ tail) := by
    simp [splice]
  rw [hlen, Nat.add_zero, h0] at h4
  rw [splice_append_right]
  simpa [Header.sent] using h4

theorem splice_prologue (pre tail : List UInt8) (h : Header) (broken : Bool) (skew : UInt32) :
    splice (pre ++ (h.sent broken skew ++ tail)) pre.length [0x58] =
      pre ++ (h.sent true skew ++ tail) := by
  have happ := splice_append_right pre (h.sent broken skew ++ tail) 0 [0x58]
  rw [Nat.add_zero] at happ
  rw [happ]
  cases broken <;> simp [splice, Header.sent, prologue]

/-- **One round of the loop**, at the header it stands on. -/
theorem rewriteHeader_at (f g : HislipFaults) (h : Header) (tail : List UInt8)
    {start rel : Nat} {pre : List UInt8} (hpre : pre.length = start + rel) (changed : Bool) :
    rewriteHeader f start ⟨pre ++ (h.bytes ++ tail), changed, g⟩ (rel, h) =
      ⟨pre ++ (patched f h ++ tail), changed || hits f h, disarm f g h⟩ := by
  have hne : msgDataEnd ≠ msgData := by decide
  have hparam (skew : UInt32) := splice_parameter pre tail h false 0 skew
  have hprol (skew : UInt32) := splice_prologue pre tail h false skew
  rw [Header.sent_zero] at hparam
  have hprol0 := hprol 0
  rw [Header.sent_zero] at hprol0
  rw [hpre] at hparam hprol hprol0
  -- a header is a DataEND, a Data or neither, so at most one skew applies
  by_cases he : h.messageType = msgDataEnd
  · cases hE : f.skewDataEndId <;> cases hB : f.breakPrologue.getD false <;>
      cases hD : f.skewDataId <;>
      simp [rewriteHeader, patched, hits, disarm, skewOf, he, hne, hE, hB, hD, hparam, hprol,
        hprol0]
  · by_cases hd : h.messageType = msgData
    · cases hE : f.skewDataEndId <;> cases hB : f.breakPrologue.getD false <;>
        cases hD : f.skewDataId <;>
        simp [rewriteHeader, patched, hits, disarm, skewOf, hd, hne.symm, hE, hB, hD, hparam,
          hprol, hprol0]
    · cases hE : f.skewDataEndId <;> cases hB : f.breakPrologue.getD false <;>
        cases hD : f.skewDataId <;>
        simp [rewriteHeader, patched, hits, disarm, skewOf, he, hd, hE, hB, hD, hprol0]

/-! ## A chain of pieces -/

/-- A chain as it is sent when a call's copy of the armed faults is `f`. -/
def patchedBytes (f : HislipFaults) (ps : List Piece) : List UInt8 :=
  ps.flatMap fun p => patched f p.header ++ p.body

@[simp] theorem patchedBytes_nil (f : HislipFaults) : patchedBytes f [] = [] := rfl

@[simp] theorem patchedBytes_cons (f : HislipFaults) (p : Piece) (ps : List Piece) :
    patchedBytes f (p :: ps) = patched f p.header ++ p.body ++ patchedBytes f ps := rfl

/-- The shared fault set after a chain has been rewritten. -/
def disarmed (f : HislipFaults) (ps : List Piece) : HislipFaults :=
  (ps.map Piece.header).foldl (disarm f) f

theorem patchedBytes_of_not_hits {f : HislipFaults} {ps : List Piece}
    (h : (ps.map Piece.header).any (hits f) = false) : patchedBytes f ps = pieceBytes ps := by
  induction ps with
  | nil => rfl
  | cons p ps ih =>
      simp only [List.map_cons, List.any_cons, Bool.or_eq_false_iff] at h
      rw [patchedBytes_cons, pieceBytes_cons, patched_of_not_hits h.1, ih h.2, Piece.bytes]

theorem disarmed_of_not_hits {f : HislipFaults} {hs : List Header} (h : hs.any (hits f) = false)
    (g : HislipFaults) : hs.foldl (disarm f) g = g := by
  induction hs with
  | nil => rfl
  | cons x hs ih =>
      simp only [List.any_cons, Bool.or_eq_false_iff] at h
      rw [List.foldl_cons, disarm_of_not_hits h.1, ih h.2]

/-- **The rewrite loop** over the headers of a chain. -/
theorem foldl_rewriteHeader (f : HislipFaults) (ps : List Piece) (tail : List UInt8) {start : Nat}
    {pre : List UInt8} (hpre : pre.length = start + rel) (changed : Bool) (g : HislipFaults) :
    (offsets rel ps).foldl (rewriteHeader f start) ⟨pre ++ (pieceBytes ps ++ tail), changed, g⟩ =
      ⟨pre ++ (patchedBytes f ps ++ tail), changed || (ps.map Piece.header).any (hits f),
        (ps.map Piece.header).foldl (disarm f) g⟩ := by
  induction ps generalizing pre rel changed g with
  | nil => simp [offsets]
  | cons p ps ih =>
      have hround := rewriteHeader_at f g p.header (p.body ++ (pieceBytes ps ++ tail)) hpre changed
      have hpre' : (pre ++ (patched f p.header ++ p.body)).length =
          start + (rel + p.bytes.length) := by
        simp [patched, hpre]
        omega
      have hbuf : pre ++ (pieceBytes (p :: ps) ++ tail) =
          pre ++ (p.header.bytes ++ (p.body ++ (pieceBytes ps ++ tail))) := by
        simp [Piece.bytes]
      have hnext : pre ++ (patched f p.header ++ (p.body ++ (pieceBytes ps ++ tail))) =
          pre ++ (patched f p.header ++ p.body) ++ (pieceBytes ps ++ tail) := by
        simp
      rw [offsets, List.foldl_cons, hbuf, hround, hnext, ih hpre']
      simp [Bool.or_assoc]

/-! ## The split -/

/-- A part of a piece's payload, sent as a message of its own under the
piece's control code and Message Parameter. -/
def Piece.part (p : Piece) (messageType : UInt8) (body : List UInt8)
    (h : body.length ≤ p.body.length) : Piece where
  header := { p.header with messageType, payloadLen := UInt64.ofNat body.length }
  body := body
  fits := by
    have hlt : body.length < 2 ^ 64 := by have := p.fits; have := p.short; omega
    rw [UInt64.toNat_ofNat_of_lt' hlt]
  short := by
    have hlt : body.length < 2 ^ 64 := by have := p.fits; have := p.short; omega
    rw [UInt64.toNat_ofNat_of_lt' hlt]
    have := p.fits
    have := p.short
    omega

theorem Piece.bytes_part (p : Piece) (messageType : UInt8) (body : List UInt8)
    (h : body.length ≤ p.body.length) :
    (p.part messageType body h).bytes =
      message messageType p.header.controlCode p.header.messageParameter body := rfl

theorem Piece.missing_part (p : Piece) (messageType : UInt8) (body : List UInt8)
    (h : body.length ≤ p.body.length) : (p.part messageType body h).missing = 0 := by
  have hfits := p.fits
  have hshort := p.short
  have hlen : (UInt64.ofNat body.length).toNat = body.length :=
    UInt64.toNat_ofNat_of_lt' (show body.length < 2 ^ 64 by omega)
  simp [Piece.missing, Piece.part, hlen]

/-- The split, on a chain: the first DataEND with more than `cut` payload
bytes, if it is whole. -/
def splitPieces (cut : Nat) : List Piece → Option (List Piece)
  | [] => none
  | p :: ps =>
      if p.header.messageType ≠ msgDataEnd ∨ p.header.payloadLen.toNat ≤ cut then
        (splitPieces cut ps).map (p :: ·)
      else if p.missing ≠ 0 then
        none
      else
        some (p.part msgData (p.body.take cut) (by simp) ::
          p.part msgDataEnd (p.body.drop cut) (by simp) :: ps)

/-- A whole piece is cut in the buffer it stands in. -/
theorem split_piece {p : Piece} {pre rest : List UInt8} {pos cut : Nat} (hpre : pre.length = pos)
    (hm : p.missing = 0) (hcut : cut < p.header.payloadLen.toNat) :
    (pre ++ (p.bytes ++ rest)).take pos ++
      message msgData p.header.controlCode p.header.messageParameter
        (slice (pre ++ (p.bytes ++ rest)) (pos + headerLen) cut) ++
      message msgDataEnd p.header.controlCode p.header.messageParameter
        (slice (pre ++ (p.bytes ++ rest)) (pos + headerLen + cut)
          (pos + headerLen + p.header.payloadLen.toNat - (pos + headerLen + cut))) ++
      (pre ++ (p.bytes ++ rest)).drop (pos + headerLen + p.header.payloadLen.toNat) =
    pre ++ ((p.part msgData (p.body.take cut) (by simp)).bytes ++
      ((p.part msgDataEnd (p.body.drop cut) (by simp)).bytes ++ rest)) := by
  have hfits := p.fits
  have hwhole : p.header.payloadLen.toNat = p.body.length := by
    rw [Piece.missing] at hm; omega
  have hhead : (pre ++ p.header.bytes).length = pos + headerLen := by simp [hpre]
  have hbuf : pre ++ (p.bytes ++ rest) = (pre ++ p.header.bytes) ++ (p.body ++ rest) := by
    simp [Piece.bytes]
  have hbody (n : Nat) : (pre ++ (p.bytes ++ rest)).drop (pos + headerLen + n) =
      (p.body ++ rest).drop n := by
    rw [hbuf, ← hhead]
    exact List.drop_length_add_append n
  have hdata : slice (pre ++ (p.bytes ++ rest)) (pos + headerLen) cut = p.body.take cut := by
    have h0 := hbody 0
    rw [Nat.add_zero, List.drop_zero] at h0
    rw [slice, h0, List.take_append_of_le_length (by omega)]
  have hend : slice (pre ++ (p.bytes ++ rest)) (pos + headerLen + cut)
      (pos + headerLen + p.body.length - (pos + headerLen + cut)) = p.body.drop cut := by
    rw [slice, hbody, List.drop_append_of_le_length (by omega)]
    exact take_append_of_length (by rw [List.length_drop]; omega)
  have hrest : (pre ++ (p.bytes ++ rest)).drop (pos + headerLen + p.body.length) = rest := by
    rw [hbody]
    exact drop_append_of_length rfl
  have hfront : (pre ++ (p.bytes ++ rest)).take pos = pre := take_append_of_length hpre
  rw [hwhole, hdata, hend, hrest, hfront]
  simp [Piece.bytes_part]

/-- The split loop over the headers of a chain. -/
theorem splitLoop_chain {ps : List Piece} {start cut : Nat} {pre tail : List UInt8} (hc : Chain ps)
    (htail : Trails ps tail) (hlen : (pre ++ (pieceBytes ps ++ tail)).length < 2 ^ 63)
    (hpre : pre.length = start + rel) :
    splitLoop (pre ++ (pieceBytes ps ++ tail)) start cut (offsets rel ps) =
      some ((splitPieces cut ps).map fun qs => pre ++ (pieceBytes qs ++ tail)) := by
  induction ps generalizing pre rel with
  | nil => rfl
  | cons p ps ih =>
      have hskip : splitLoop (pre ++ (pieceBytes (p :: ps) ++ tail)) start cut
          (offsets (rel + p.bytes.length) ps) =
          some (((splitPieces cut ps).map (p :: ·)).map fun qs => pre ++ (pieceBytes qs ++ tail)) := by
        have hpre' : (pre ++ p.bytes).length = start + (rel + p.bytes.length) := by
          rw [List.length_append, hpre]; omega
        have h := ih hc.2 htail.of_cons (by simpa [Nat.add_assoc] using hlen) hpre'
        have hbuf : pre ++ p.bytes ++ (pieceBytes ps ++ tail) =
            pre ++ (pieceBytes (p :: ps) ++ tail) := by simp
        rw [hbuf] at h
        rw [h, Option.map_map]
        simp [Function.comp_def]
      rw [offsets, splitLoop, splitPieces]
      by_cases htype : p.header.messageType = msgDataEnd
      swap
      · simpa [htype] using hskip
      by_cases hcut : p.header.payloadLen.toNat ≤ cut
      · simpa [htype, hcut] using hskip
      have hfits := p.fits
      have hshort := p.short
      have hsize : (pre ++ (pieceBytes (p :: ps) ++ tail)).length =
          start + rel + headerLen + p.body.length + (pieceBytes ps ++ tail).length := by
        simp [hpre]
        omega
      have hwrap : (start + rel + headerLen + p.header.payloadLen.toNat) % 2 ^ 64 =
          start + rel + headerLen + p.header.payloadLen.toNat := by
        rw [hsize] at hlen
        exact Nat.mod_eq_of_lt (by omega)
      rw [if_neg (by simpa using htype), if_neg hcut]
      simp only [htype, ne_eq, not_true_eq_false, hcut, or_self, if_false, hwrap]
      by_cases hm : p.missing = 0
      · have hwhole : p.header.payloadLen.toNat = p.body.length := by
          rw [Piece.missing] at hm; omega
        have hbuf : pre ++ (pieceBytes (p :: ps) ++ tail) =
            pre ++ (p.bytes ++ (pieceBytes ps ++ tail)) := by simp
        rw [if_neg (by omega), if_neg (by omega), hbuf, split_piece hpre hm (by omega)]
        simp [hm]
      · have hps : ps = [] := by
          by_contra hne
          exact hm (hc.1 hne)
        have hnone : tail = [] := by
          by_contra hne
          exact hm (Nat.add_eq_zero_iff.mp (htail.whole hne)).1
        subst hps hnone
        rw [if_pos (by rw [Piece.missing] at hm; simp at hsize ⊢; omega)]
        simp [hm]

/-! ## A chunk -/

/-- The split step of a call on a chain: the chain that goes on to the loop,
and the faults the loop finds armed. -/
def splitStep (f : HislipFaults) (ps : List Piece) : List Piece × HislipFaults :=
  match f.splitDataEndAt.bind fun cut => if cut = 0 then none else splitPieces cut ps with
  | none => (ps, f)
  | some qs => (qs, { f with splitDataEndAt := none })

/-- The split leaves the rest of the chunk as it was. -/
theorem splitPieces_chain {cut : Nat} {ps qs : List Piece} (h : splitPieces cut ps = some qs)
    (hc : Chain ps) : Chain qs ∧ owed qs = owed ps := by
  induction ps generalizing qs with
  | nil => cases h
  | cons p ps ih =>
      unfold splitPieces at h
      split at h
      · obtain ⟨qs', hqs', rfl⟩ := Option.map_eq_some_iff.mp h
        obtain ⟨hc', howed⟩ := ih hqs' hc.2
        have hne : qs' ≠ [] → ps ≠ [] := by
          rintro - rfl
          cases hqs'
        exact ⟨⟨fun hq => hc.1 (hne hq), hc'⟩, by rw [owed, owed, howed]⟩
      · split at h
        · cases h
        · next hm =>
            obtain rfl := Option.some.inj h
            refine ⟨⟨fun _ => p.missing_part _ _ _, fun _ => p.missing_part _ _ _, hc.2⟩, ?_⟩
            rw [owed, owed, owed, p.missing_part, p.missing_part, not_not.mp hm]
            omega

theorem splitFirstDataEnd_trails {ps : List Piece} {carry tail : List UInt8} (cut : Nat) (hc : Chain ps)
    (htail : Trails ps tail) (hlen : (carry ++ (pieceBytes ps ++ tail)).length < 2 ^ 63) :
    splitFirstDataEnd (carry ++ (pieceBytes ps ++ tail)) carry.length cut =
      some ((if cut = 0 then none else splitPieces cut ps).map fun qs =>
        carry ++ (pieceBytes qs ++ tail)) := by
  rw [splitFirstDataEnd, drop_append_of_length rfl, headers_chain hc htail]
  split
  · rfl
  · exact splitLoop_chain hc htail hlen (Nat.add_zero _).symm

theorem splitFirstDataEnd_chain {ps : List Piece} {carry : List UInt8} (cut : Nat) (hc : Chain ps)
    (hlen : (carry ++ pieceBytes ps).length < 2 ^ 63) :
    splitFirstDataEnd (carry ++ pieceBytes ps) carry.length cut =
      some ((if cut = 0 then none else splitPieces cut ps).map fun qs => carry ++ pieceBytes qs) := by
  have h := @splitFirstDataEnd_trails ps carry [] cut hc (trails_nil ps)
  simp only [List.append_nil] at h
  exact h hlen

theorem hits_of_not_armed {f : HislipFaults} (h : f.armed = false) (x : Header) :
    hits f x = false := by
  simp only [HislipFaults.armed, Bool.or_eq_false_iff] at h
  simp [hits, h.1.1.1, h.1.1.2, h.1.2]

/-- A call that does not split: what it forwards, and what it leaves armed. -/
theorem rewriteWith_trails (again : HislipFaults → List UInt8 → Option Rewritten)
    (f : HislipFaults) {ps : List Piece} {carry tail : List UInt8} (hc : Chain ps)
    (htail : Trails ps tail)
    (hsplit : ∀ cut, f.splitDataEndAt = some cut →
      splitFirstDataEnd (carry ++ (pieceBytes ps ++ tail)) carry.length cut = some none) :
    ∃ r, rewriteWith again carry.length f (carry ++ (pieceBytes ps ++ tail)) =
        some (r, disarmed f ps) ∧
      r.getD (carry ++ (pieceBytes ps ++ tail)) = carry ++ (patchedBytes f ps ++ tail) := by
  have hstart : min carry.length (carry ++ (pieceBytes ps ++ tail)).length = carry.length := by simp
  unfold rewriteWith
  cases harm : f.armed with
  | false =>
      have hany : (ps.map Piece.header).any (hits f) = false := by
        simp [hits_of_not_armed harm]
      exact ⟨none, by simp [disarmed, disarmed_of_not_hits hany],
        by simp [patchedBytes_of_not_hits hany]⟩
  | true =>
      simp only [Bool.not_true, Bool.false_eq_true, if_false, hstart, drop_append_of_length rfl,
        headers_chain hc htail, Option.bind_some]
      cases ps with
      | nil => exact ⟨none, by simp [offsets, disarmed], by simp⟩
      | cons p ps =>
          rw [if_neg (by simp [offsets])]
          have hloop : (offsets 0 (p :: ps)).foldl (rewriteHeader f carry.length)
              ⟨carry ++ (pieceBytes (p :: ps) ++ tail), false, f⟩ =
                ⟨carry ++ (patchedBytes f (p :: ps) ++ tail),
                  ((p :: ps).map Piece.header).any (hits f), disarmed f (p :: ps)⟩ :=
            foldl_rewriteHeader f (p :: ps) tail (Nat.add_zero carry.length).symm false f
          generalize hrd : ((p :: ps).map Piece.header).any (hits f) = changed at hloop
          have hpatch : ∃ r,
              some (if changed then some (carry ++ (patchedBytes f (p :: ps) ++ tail)) else none,
                disarmed f (p :: ps)) = some (r, disarmed f (p :: ps)) ∧
              r.getD (carry ++ (pieceBytes (p :: ps) ++ tail)) =
                carry ++ (patchedBytes f (p :: ps) ++ tail) := by
            refine ⟨_, rfl, ?_⟩
            cases changed with
            | true => rfl
            | false => simp [patchedBytes_of_not_hits hrd]
          cases hs : f.splitDataEndAt with
          | none => simpa only [hloop] using hpatch
          | some cut =>
              simp only [hsplit cut hs, Option.bind_some]
              simpa only [hloop] using hpatch

/-- **A whole call** on a chunk that is the payload owed, a chain, and less than
a header. -/
theorem rewriteFaults_trails {f : HislipFaults} {ps : List Piece} {carry tail : List UInt8}
    (hc : Chain ps) (htail : Trails ps tail)
    (hlen : (carry ++ (pieceBytes ps ++ tail)).length < 2 ^ 63) :
    ∃ r, rewriteFaults carry.length f (carry ++ (pieceBytes ps ++ tail)) =
        some (r, disarmed (splitStep f ps).2 (splitStep f ps).1) ∧
      r.getD (carry ++ (pieceBytes ps ++ tail)) =
        carry ++ (patchedBytes (splitStep f ps).2 (splitStep f ps).1 ++ tail) := by
  cases hsplit : f.splitDataEndAt.bind fun cut => if cut = 0 then none else splitPieces cut ps with
  | none =>
      simp only [splitStep, hsplit]
      refine rewriteWith_trails _ f hc htail fun cut hs => ?_
      rw [hs, Option.bind_some] at hsplit
      rw [splitFirstDataEnd_trails cut hc htail hlen, hsplit]
      rfl
  | some qs =>
      -- the call splits and re-enters itself on what the split gave
      simp only [splitStep, hsplit]
      obtain ⟨cut, hs, hcut⟩ := Option.bind_eq_some_iff.mp hsplit
      have hpieces : splitPieces cut ps = some qs := by
        split at hcut
        · cases hcut
        · exact hcut
      obtain ⟨hq, howed⟩ := splitPieces_chain hpieces hc
      obtain ⟨r, hr, hout⟩ := rewriteWith_trails (fun _ _ => none)
        { f with splitDataEndAt := none } hq ⟨htail.short, fun hne => howed.trans (htail.whole hne)⟩
        fun cut hnone => nomatch hnone
      have hstart : min carry.length (carry ++ (pieceBytes ps ++ tail)).length = carry.length := by simp
      have harm : f.armed = true := by simp [HislipFaults.armed, hs]
      have hne : offsets 0 ps ≠ [] := by
        rintro h
        cases ps with
        | nil => cases hpieces
        | cons p ps => simp [offsets] at h
      refine ⟨some (r.getD (carry ++ (pieceBytes qs ++ tail))), ?_, by rw [Option.getD_some, hout]⟩
      rw [rewriteFaults, rewriteWith]
      simp only [harm, Bool.not_true, Bool.false_eq_true, if_false, hstart,
        drop_append_of_length rfl, headers_chain hc htail, Option.bind_some, hne, hs,
        splitFirstDataEnd_trails cut hc htail hlen, hcut, Option.map_some, hr]

theorem rewriteFaults_chain {f : HislipFaults} {ps : List Piece} {carry : List UInt8}
    (hc : Chain ps) (hlen : (carry ++ pieceBytes ps).length < 2 ^ 63) :
    ∃ r, rewriteFaults carry.length f (carry ++ pieceBytes ps) =
        some (r, disarmed (splitStep f ps).2 (splitStep f ps).1) ∧
      r.getD (carry ++ pieceBytes ps) =
        carry ++ patchedBytes (splitStep f ps).2 (splitStep f ps).1 := by
  have h := @rewriteFaults_trails f ps carry [] hc (trails_nil ps)
  simp only [List.append_nil] at h
  exact h hlen

/-! ## The split, on messages -/

/-- A part of a message's payload, sent as a message of its own under the
message's control code and Message Parameter. -/
def Message.part (m : Message) (messageType : UInt8) (payload : List UInt8)
    (h : payload.length ≤ m.payload.length) : Message where
  messageType := messageType
  controlCode := m.controlCode
  messageParameter := m.messageParameter
  payload := payload
  short := Nat.lt_of_le_of_lt h m.short

/-- One DataEND with more than `cut` payload bytes is sent as a Data of `cut`
bytes and a DataEND carrying the rest. -/
inductive SplitOne (cut : Nat) : List Message → List Message → Prop
  | here (m : Message) (ms : List Message) (ht : m.messageType = msgDataEnd)
      (hcut : cut < m.payload.length) :
      SplitOne cut (m :: ms) (m.part msgData (m.payload.take cut) (by simp) ::
        m.part msgDataEnd (m.payload.drop cut) (by simp) :: ms)
  | there (m : Message) {ms ms' : List Message} (h : SplitOne cut ms ms') :
      SplitOne cut (m :: ms) (m :: ms')

theorem Piece.part_eq {p : Piece} {m : Message} (hh : p.header = m.header) {messageType : UInt8}
    {body payload : List UInt8} (hb : body = payload) (h : body.length ≤ p.body.length)
    (h' : payload.length ≤ m.payload.length) :
    p.part messageType body h = (m.part messageType payload h').piece := by
  subst hb
  simp only [Piece.part, Message.piece, Message.header, Message.part, hh]

/-- A chain split at a DataEND has arrived of messages split at that DataEND. -/
theorem splitPieces_arrived {cut : Nat} (h : Arrived begun ps carry)
    (hs : splitPieces cut ps = some qs) :
    ∃ begun', SplitOne cut begun begun' ∧ Arrived begun' qs carry := by
  induction h generalizing qs with
  | nil => simp [splitPieces] at hs
  | last m p carry hh hb =>
      unfold splitPieces at hs
      split at hs
      · simp [splitPieces] at hs
      · next hcond =>
          simp only [not_or, not_not, Nat.not_le, hh] at hcond
          obtain ⟨htype, hcut⟩ := hcond
          rw [Message.toNat_payloadLen_header] at hcut
          split at hs
          · cases hs
          · next hm =>
              -- nothing is missing, so this is the whole message
              have hcarry : carry = [] := by
                have hlen : m.payload.length = p.body.length + carry.length := by
                  rw [hb, List.length_append]
                simp only [Piece.missing, hh, Message.toNat_payloadLen_header, ne_eq,
                  not_not] at hm
                exact List.eq_nil_of_length_eq_zero (by omega)
              subst hcarry
              rw [List.append_nil] at hb
              obtain rfl := Option.some.inj hs
              rw [Piece.part_eq hh (congrArg (List.take cut) hb.symm) _ (by simp),
                Piece.part_eq hh (congrArg (List.drop cut) hb.symm) _ (by simp)]
              exact ⟨_, .here m [] htype hcut, .cons _ (.cons _ .nil)⟩
  | @cons m ms ps carry h ih =>
      unfold splitPieces at hs
      split at hs
      · obtain ⟨qs', hqs', rfl⟩ := Option.map_eq_some_iff.mp hs
        obtain ⟨begun', hone, harr⟩ := ih hqs'
        exact ⟨m :: begun', .there m hone, .cons m harr⟩
      · next hcond =>
          simp only [not_or, not_not, Nat.not_le] at hcond
          obtain ⟨htype, hcut⟩ := hcond
          rw [if_neg (by simp)] at hs
          obtain rfl := Option.some.inj hs
          refine ⟨_, .here m ms htype (by simpa [Message.piece] using hcut), ?_⟩
          rw [Piece.part_eq (p := m.piece) rfl rfl _ (by simp [Message.piece]),
            Piece.part_eq (p := m.piece) rfl rfl _ (by simp [Message.piece])]
          exact .cons _ (.cons _ h)

/-- The split adds one header to the wire. -/
theorem SplitOne.length_wire (h : SplitOne cut ms ms') :
    (wire ms').length = (wire ms).length + headerLen := by
  induction h with
  | here m ms ht hcut =>
      simp only [wire_cons, List.length_append, Message.length_bytes, Message.size, Message.part,
        List.length_take, List.length_drop]
      omega
  | there m h ih => simp only [wire_cons, List.length_append, ih]; omega

end TestGear.Hislip
