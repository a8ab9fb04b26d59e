import TestGear.Bytes

/-!
# TestGear.Vxi11.Record

ONC RPC record marking, as `vxi11_fault.rs` reads it: `wholeRecords` divides
a buffer into records or gives up, `readU32` and `writeU32` reach the words of
a record body, and `frame` and `staleBody` build the one record the tracker
makes up.

What the buffer is, as opposed to how it is walked, is a list of `Record`s: a
mark whose low 31 bits count a body that is not empty.  The two agree
(`wholeRecords_eq_some_iff`), so everything further on speaks of records.
-/

namespace TestGear.Vxi11

/-! ## Words -/

def readU32 (buf : List UInt8) (off : Nat) : Option UInt32 :=
  if buf.length < off + 4 then none else some (ofBE32 (slice buf off 4))

/-- `write_u32`, which says whether the word fits: `none` is the answer
`false`, with the buffer left as it was. -/
def writeU32 (buf : List UInt8) (off : Nat) (value : UInt32) : Option (List UInt8) :=
  if buf.length < off + 4 then none else some (splice buf off (be32 value))

/-! ## Dividing a buffer -/

/-- The loop of `whole_records` from position `pos`.  Every round moves on, so
`rounds` is never the reason to stop. -/
def wholeRecordsFrom (buf : List UInt8) : (rounds pos : Nat) → Option (List (Nat × Nat × Nat))
  | 0, _ => none
  | rounds + 1, pos =>
      if pos < buf.length then
        if buf.length < pos + 4 then
          none
        else
          let mark := ofBE32 (slice buf pos 4)
          let len := (mark &&& 0x7FFFFFFF).toNat
          if len = 0 ∨ buf.length < pos + 4 + len then
            none
          else
            (wholeRecordsFrom buf rounds (pos + 4 + len)).map ((pos, pos + 4, len) :: ·)
      else
        some []

/-- Every record in `buf` as `(mark offset, body offset, body length)`, or
none if the buffer does not divide exactly into whole records. -/
def wholeRecords (buf : List UInt8) : Option (List (Nat × Nat × Nat)) :=
  (wholeRecordsFrom buf (buf.length + 1) 0).bind fun out => if out = [] then none else some out

/-! ## Building a record -/

/-- A successful-looking reply body carrying `xid` and a VXI-11 error 0. -/
def staleBody (xid : UInt32) : List UInt8 :=
  be32 xid ++
    be32 1 ++ -- msg_type = REPLY
    be32 0 ++ -- reply_stat = MSG_ACCEPTED
    be32 0 ++ -- verifier flavour = AUTH_NONE
    be32 0 ++ -- verifier length
    be32 0 ++ -- accept_stat = SUCCESS
    be32 0 ++ -- error = no error
    be32 0 ++ -- reason
    be32 0 -- zero-length data

/-- Wrap a body in a last-fragment record mark. -/
def frame (body : List UInt8) : List UInt8 :=
  be32 (UInt32.ofNat body.length ||| 0x80000000) ++ body

@[simp] theorem length_staleBody (xid : UInt32) : (staleBody xid).length = 36 := by
  simp [staleBody]

theorem frame_staleBody (xid : UInt32) :
    frame (staleBody xid) = be32 0x80000024 ++ staleBody xid := by
  rw [frame, length_staleBody]
  rfl

/-! ## Records -/

/-- One whole record: any fragment bit, and a length that counts its body. -/
structure Record where
  mark : UInt32
  body : List UInt8
  nonempty : body ≠ []
  fits : (mark &&& 0x7FFFFFFF).toNat = body.length

namespace Record

def bytes (r : Record) : List UInt8 := be32 r.mark ++ r.body

@[simp] theorem length_bytes (r : Record) : r.bytes.length = 4 + r.body.length := by
  simp [bytes]

end Record

def recordBytes (rs : List Record) : List UInt8 := rs.flatMap Record.bytes

@[simp] theorem recordBytes_nil : recordBytes [] = [] := rfl

@[simp] theorem recordBytes_cons (r : Record) (rs : List Record) :
    recordBytes (r :: rs) = r.bytes ++ recordBytes rs := rfl

/-- Where the records stand, from `pos` on. -/
def spans : Nat → List Record → List (Nat × Nat × Nat)
  | _, [] => []
  | pos, r :: rs => (pos, pos + 4, r.body.length) :: spans (pos + r.bytes.length) rs

theorem length_le_recordBytes (rs : List Record) : rs.length ≤ (recordBytes rs).length := by
  induction rs with
  | nil => simp
  | cons r rs ih =>
      simp only [recordBytes_cons, List.length_cons, List.length_append, Record.length_bytes]
      omega

/-- A buffer of records, seen by a walker standing at the first mark. -/
theorem drop_record {buf : List UInt8} {r : Record} {rs : List Record} (hpos : pos ≤ buf.length)
    (hbuf : buf.drop pos = recordBytes (r :: rs)) :
    buf.length = pos + r.bytes.length + (recordBytes rs).length ∧
      slice buf pos 4 = be32 r.mark ∧ slice buf (pos + 4) r.body.length = r.body ∧
      buf.drop (pos + r.bytes.length) = recordBytes rs := by
  have hmark : buf.drop pos = be32 r.mark ++ (r.body ++ recordBytes rs) := by
    rw [hbuf, recordBytes_cons, Record.bytes, List.append_assoc]
  have hbody : buf.drop (pos + 4) = r.body ++ recordBytes rs := by
    rw [← List.drop_drop, hmark, drop_append_of_length (length_be32 _)]
  refine ⟨?_, ?_, ?_, ?_⟩
  · have hlen := length_of_drop_eq hpos hbuf
    rw [recordBytes_cons, List.length_append] at hlen
    omega
  · rw [slice, hmark, take_append_of_length (length_be32 _)]
  · rw [slice, hbody, take_append_of_length rfl]
  · rw [← List.drop_drop, hbuf, recordBytes_cons, drop_append_of_length rfl]

theorem wholeRecordsFrom_records {buf : List UInt8} {rs : List Record} (hpos : pos ≤ buf.length)
    (hbuf : buf.drop pos = recordBytes rs) (hr : rs.length < rounds) :
    wholeRecordsFrom buf rounds pos = some (spans pos rs) := by
  induction rs generalizing pos rounds with
  | nil =>
      obtain ⟨n, rfl⟩ : ∃ n, rounds = n + 1 := ⟨rounds - 1, by omega⟩
      have hend : buf.length = pos := by simpa using length_of_drop_eq hpos hbuf
      rw [wholeRecordsFrom, if_neg (by omega), spans]
  | cons r rs ih =>
      obtain ⟨n, rfl⟩ : ∃ n, rounds = n + 1 := ⟨rounds - 1, by omega⟩
      obtain ⟨hlen, hmark, -, htail⟩ := drop_record hpos hbuf
      have hbytes := r.length_bytes
      have hne : r.body.length ≠ 0 := fun h => r.nonempty (List.eq_nil_of_length_eq_zero h)
      have hnext : pos + 4 + r.body.length = pos + r.bytes.length := by omega
      rw [wholeRecordsFrom, if_pos (by omega), if_neg (by omega)]
      simp only [hmark, ofBE32_be32, r.fits]
      rw [if_neg (by omega), hnext, ih (by omega) htail (by simpa using hr), Option.map_some, spans]

/-- Whatever the walker finds is a list of records. -/
theorem exists_records {buf : List UInt8} {found : List (Nat × Nat × Nat)}
    (hpos : pos ≤ buf.length) (h : wholeRecordsFrom buf rounds pos = some found) :
    ∃ rs, buf.drop pos = recordBytes rs ∧ found = spans pos rs := by
  induction rounds generalizing pos found with
  | zero => simp [wholeRecordsFrom] at h
  | succ n ih =>
      unfold wholeRecordsFrom at h
      split at h
      · split at h
        · cases h
        · next hmark =>
            simp only at h
            split at h
            · cases h
            · next hfit =>
                rw [not_or] at hfit
                obtain ⟨rest, hrest, rfl⟩ := Option.map_eq_some_iff.mp h
                obtain ⟨rs, hdrop, rfl⟩ := ih (by omega) hrest
                -- the bytes between the two marks are the record's body
                have hlen : (slice buf (pos + 4)
                    (ofBE32 (slice buf pos 4) &&& 0x7FFFFFFF).toNat).length =
                    (ofBE32 (slice buf pos 4) &&& 0x7FFFFFFF).toNat := length_slice (by omega)
                refine ⟨⟨ofBE32 (slice buf pos 4), _, ?_, hlen.symm⟩ :: rs, ?_, ?_⟩
                · intro hnil
                  rw [hnil, List.length_nil] at hlen
                  exact hfit.1 hlen.symm
                · rw [recordBytes_cons, Record.bytes, ← hdrop,
                    be32_ofBE32 (length_slice (by omega)), ← List.drop_drop, ← List.drop_drop,
                    List.append_assoc]
                  simp only [slice, ← List.drop_drop, List.take_append_drop]
                · rw [spans, Record.length_bytes, hlen, Nat.add_assoc]
      · next hend =>
          obtain rfl := Option.some.inj h
          exact ⟨[], by rw [List.drop_of_length_le (by omega)]; rfl, rfl⟩

/-- **Whole records**: the buffers `whole_records` accepts are the
concatenations of records, and it reports where they stand. -/
theorem wholeRecords_eq_some_iff {buf : List UInt8} {found : List (Nat × Nat × Nat)} :
    wholeRecords buf = some found ↔
      ∃ rs, rs ≠ [] ∧ buf = recordBytes rs ∧ found = spans 0 rs := by
  constructor
  · intro h
    obtain ⟨out, hout, hne⟩ := Option.bind_eq_some_iff.mp h
    split at hne
    · cases hne
    · next hnil =>
        obtain rfl := Option.some.inj hne
        obtain ⟨rs, hdrop, rfl⟩ := exists_records (Nat.zero_le _) hout
        refine ⟨rs, ?_, by simpa using hdrop, rfl⟩
        rintro rfl
        exact hnil rfl
  · rintro ⟨rs, hne, rfl, rfl⟩
    have hspans : spans 0 rs ≠ [] := by
      cases rs with
      | nil => exact absurd rfl hne
      | cons r rs => simp [spans]
    have hwalk : wholeRecordsFrom (recordBytes rs) ((recordBytes rs).length + 1) 0 =
        some (spans 0 rs) :=
      wholeRecordsFrom_records (Nat.zero_le _) rfl (Nat.lt_succ_of_le (length_le_recordBytes rs))
    rw [wholeRecords, hwalk, Option.bind_some, if_neg hspans]

theorem wholeRecords_records {rs : List Record} (h : rs ≠ []) :
    wholeRecords (recordBytes rs) = some (spans 0 rs) :=
  wholeRecords_eq_some_iff.mpr ⟨rs, h, rfl, rfl⟩

/-! ## Two records of a session -/

/-- A call with no credentials and no arguments. -/
def callRecord (xid proc : UInt32) : Record where
  mark := 0x80000028
  body := be32 xid ++ be32 0 ++ be32 2 ++ be32 0x607AF ++ be32 1 ++ be32 proc ++ be32 0 ++ be32 0 ++
    be32 0 ++ be32 0
  nonempty h := by simpa using congrArg List.length h
  fits := by simp

/-- An accepted reply whose one result is error 0. -/
def replyRecord (xid : UInt32) : Record where
  mark := 0x8000001C
  body := be32 xid ++ be32 1 ++ be32 0 ++ be32 0 ++ be32 0 ++ be32 0 ++ be32 0
  nonempty h := by simpa using congrArg List.length h
  fits := by simp

end TestGear.Vxi11
