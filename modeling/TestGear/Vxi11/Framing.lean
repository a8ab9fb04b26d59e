import TestGear.Reading
import TestGear.Vxi11.Record

/-!
# TestGear.Vxi11.Framing

Record marking as the two ends of an RPC connection read and write it.  A
record is a sequence of fragments, each behind a mark that counts it; the top
bit of a mark says that the record ends with this fragment.  A stream is the
bytes the peer sends before it closes the connection.

* `record_marking` — what is read as a record are exactly the fragmentations
  of the records within the limit;
* `readRecord_writeRecord` — a record is read as it was written.
-/

namespace TestGear.Vxi11

/-! ## Marks -/

/-- The mark of a fragment. -/
def fragmentMark (len : Nat) (last : Bool) : UInt32 :=
  UInt32.ofNat len ||| if last then 0x80000000 else 0

def markLen (mark : UInt32) : Nat := (mark &&& 0x7FFFFFFF).toNat

def markLast (mark : UInt32) : Bool := mark &&& 0x80000000 != 0

theorem markLen_eq_mod (mark : UInt32) : markLen mark = mark.toNat % 2 ^ 31 := by
  rw [markLen, UInt32.toNat_and]
  exact Nat.and_two_pow_sub_one_eq_mod mark.toNat 31

theorem markLast_eq_decide (mark : UInt32) : markLast mark = decide (2 ^ 31 ≤ mark.toNat) := by
  have htop : (mark &&& 0x80000000).toNat = mark.toNat / 2 ^ 31 % 2 * 2 ^ 31 := by
    rw [UInt32.toNat_and]
    show mark.toNat &&& 2 ^ 31 = _
    rw [Nat.and_two_pow, Nat.toNat_testBit]
  have hlt := mark.toNat_lt
  rw [Bool.eq_iff_iff, markLast, bne_iff_ne, ne_eq, ← UInt32.toNat_inj, htop, UInt32.toNat_zero,
    decide_eq_true_eq]
  omega

theorem toNat_fragmentMark {len : Nat} (h : len < 2 ^ 31) (last : Bool) :
    (fragmentMark len last).toNat = if last then 2 ^ 31 + len else len := by
  have hlen : (UInt32.ofNat len).toNat = len :=
    UInt32.toNat_ofNat_of_lt' (Nat.lt_trans h (by decide))
  cases last with
  | false => simp [fragmentMark, hlen]
  | true =>
      have hor := Nat.two_pow_add_eq_or_of_lt h 1
      rw [fragmentMark, UInt32.toNat_or, hlen, Nat.or_comm]
      simpa using hor.symm

@[simp] theorem markLen_fragmentMark {len : Nat} (h : len < 2 ^ 31) (last : Bool) :
    markLen (fragmentMark len last) = len := by
  rw [markLen_eq_mod, toNat_fragmentMark h]
  split <;> omega

@[simp] theorem markLast_fragmentMark {len : Nat} (h : len < 2 ^ 31) (last : Bool) :
    markLast (fragmentMark len last) = last := by
  rw [markLast_eq_decide, toNat_fragmentMark h]
  cases last with
  | false => simpa using h
  | true => simp

theorem markLen_lt (mark : UInt32) : markLen mark < 2 ^ 31 := by
  rw [markLen_eq_mod]
  exact Nat.mod_lt _ (by decide)

/-- A mark is no more than a length and a bit. -/
theorem fragmentMark_markLen (mark : UInt32) : fragmentMark (markLen mark) (markLast mark) = mark := by
  have hlt := mark.toNat_lt
  rw [← UInt32.toNat_inj, toNat_fragmentMark (markLen_lt mark), markLast_eq_decide, markLen_eq_mod]
  by_cases hlast : 2 ^ 31 ≤ mark.toNat
  · simp only [hlast, decide_true, if_true]
    omega
  · simp only [hlast, decide_false, Bool.false_eq_true, if_false]
    omega

/-! ## Reading -/

/-- Why there is no record to hand over. -/
inductive RecordError where
  /-- The record would be longer than the reader accepts. -/
  | exceeds (maxLen : Nat)
  /-- The stream ends inside a record. -/
  | unexpectedEof
deriving DecidableEq, Repr

/-- The loop of `read_record`, with `record` assembled so far.  Every round
takes a mark, so `rounds` is never the reason to stop. -/
def readRecordFrom (maxLen : Nat) :
    (rounds : Nat) → (record stream : List UInt8) →
      Except RecordError (Option (List UInt8) × List UInt8)
  | 0, _, _ => .error .unexpectedEof
  | rounds + 1, record, stream =>
      if stream.length < 4 then
        -- a hangup, also one in the middle of a mark
        if record = [] then .ok (none, []) else .error .unexpectedEof
      else
        let word := ofBE32 (stream.take 4)
        let stream := stream.drop 4
        if maxLen < record.length + markLen word then
          .error (.exceeds maxLen)
        else if stream.length < markLen word then
          .error .unexpectedEof
        else
          let record := record ++ stream.take (markLen word)
          let stream := stream.drop (markLen word)
          if markLast word then .ok (some record, stream)
          else readRecordFrom maxLen rounds record stream

/-- Read one record: none if the peer hung up between two records. -/
def readRecord (maxLen : Nat) : Reader (List UInt8) RecordError (Option (List UInt8)) :=
  fun stream => readRecordFrom maxLen (stream.length + 1) [] stream

/-- Write one record as a single last fragment, if it fits into one. -/
def writeRecord (payload : List UInt8) : Option (List UInt8) :=
  if 0x7FFFFFFF < payload.length then none
  else some (be32 (0x80000000 ||| UInt32.ofNat payload.length) ++ payload)

/-! ## Fragments -/

structure Fragment where
  body : List UInt8
  fits : body.length < 2 ^ 31

namespace Fragment

def bytes (f : Fragment) (last : Bool) : List UInt8 :=
  be32 (fragmentMark f.body.length last) ++ f.body

theorem length_bytes (f : Fragment) (last : Bool) : (f.bytes last).length = 4 + f.body.length := by
  simp [bytes]

end Fragment

/-- The record that ends with the fragment `last`. -/
def payloadOf (front : List Fragment) (last : Fragment) : List UInt8 :=
  front.flatMap Fragment.body ++ last.body

/-- Its fragments on the wire. -/
def fragmentBytes (front : List Fragment) (last : Fragment) : List UInt8 :=
  front.flatMap (Fragment.bytes · false) ++ last.bytes true

section

variable {maxLen rounds : Nat} {record stream tail : List UInt8}

/-- One round: a fragment is taken, and the record ends with it or goes on. -/
theorem readRecordFrom_fragment (f : Fragment) (last : Bool)
    (h : record.length + f.body.length ≤ maxLen) :
    readRecordFrom maxLen (rounds + 1) record (f.bytes last ++ tail) =
      if last then .ok (some (record ++ f.body), tail)
      else readRecordFrom maxLen rounds (record ++ f.body) tail := by
  have htake : (f.bytes last ++ tail).take 4 = be32 (fragmentMark f.body.length last) := by
    rw [Fragment.bytes, List.append_assoc, take_append_of_length (length_be32 _)]
  have hdrop : (f.bytes last ++ tail).drop 4 = f.body ++ tail := by
    rw [Fragment.bytes, List.append_assoc, drop_append_of_length (length_be32 _)]
  rw [readRecordFrom, if_neg (by rw [List.length_append, f.length_bytes]; omega)]
  simp only [htake, hdrop, ofBE32_be32, markLen_fragmentMark f.fits, markLast_fragmentMark f.fits,
    take_append_of_length, drop_append_of_length, List.length_append]
  rw [if_neg (by omega), if_neg (by omega)]

/-- A fragment that takes the record over the limit. -/
theorem readRecordFrom_exceeds (f : Fragment) (last : Bool)
    (h : maxLen < record.length + f.body.length) :
    readRecordFrom maxLen (rounds + 1) record (f.bytes last ++ tail) = .error (.exceeds maxLen) := by
  have htake : (f.bytes last ++ tail).take 4 = be32 (fragmentMark f.body.length last) := by
    rw [Fragment.bytes, List.append_assoc, take_append_of_length (length_be32 _)]
  rw [readRecordFrom, if_neg (by rw [List.length_append, f.length_bytes]; omega)]
  simp only [htake, ofBE32_be32, markLen_fragmentMark f.fits]
  exact if_pos h

theorem readRecordFrom_fragments {front : List Fragment} {last : Fragment}
    (h : front.length < rounds) :
    readRecordFrom maxLen rounds record (fragmentBytes front last ++ tail) =
      if record.length + (payloadOf front last).length ≤ maxLen then
        .ok (some (record ++ payloadOf front last), tail)
      else .error (.exceeds maxLen) := by
  induction front generalizing rounds record with
  | nil =>
      obtain ⟨n, rfl⟩ : ∃ n, rounds = n + 1 := ⟨rounds - 1, by omega⟩
      simp only [fragmentBytes, payloadOf, List.flatMap_nil, List.nil_append]
      split
      · next hle => exact readRecordFrom_fragment last true hle
      · next hgt => exact readRecordFrom_exceeds last true (by omega)
  | cons f front ih =>
      obtain ⟨n, rfl⟩ : ∃ n, rounds = n + 1 := ⟨rounds - 1, by omega⟩
      have hbytes : fragmentBytes (f :: front) last ++ tail =
          f.bytes false ++ (fragmentBytes front last ++ tail) := by
        simp [fragmentBytes]
      have hpayload : payloadOf (f :: front) last = f.body ++ payloadOf front last := by
        simp [payloadOf]
      rw [hbytes, hpayload, List.length_append, ← List.append_assoc record, ← Nat.add_assoc]
      by_cases hf : record.length + f.body.length ≤ maxLen
      · have hrec := @ih n (record ++ f.body) (by simpa using h)
        rw [List.length_append] at hrec
        rw [readRecordFrom_fragment f false hf, ← hrec]
        rfl
      · rw [readRecordFrom_exceeds f false (by omega), if_neg (by omega)]

/-- What a round can have been that did not fail. -/
theorem readRecordFrom_cases {out : Option (List UInt8)}
    (h : readRecordFrom maxLen (rounds + 1) record stream = .ok (out, tail)) :
    (stream.length < 4 ∧ record = [] ∧ out = none ∧ tail = []) ∨
      ∃ (f : Fragment) (last : Bool) (rest : List UInt8), stream = f.bytes last ++ rest ∧
        record.length + f.body.length ≤ maxLen ∧
        if last then out = some (record ++ f.body) ∧ tail = rest
        else readRecordFrom maxLen rounds (record ++ f.body) rest = .ok (out, tail) := by
  rw [readRecordFrom] at h
  split at h
  · next hpart =>
      split at h
      · next hrecord =>
          cases h
          exact .inl ⟨hpart, hrecord, rfl, rfl⟩
      · cases h
  next hmark =>
    simp only at h
    generalize hword : ofBE32 (stream.take 4) = word at h
    split at h
    · cases h
    next hmax =>
    split at h
    · cases h
    next hlen =>
      have hbody : ((stream.drop 4).take (markLen word)).length = markLen word := by
        rw [List.length_take]
        omega
      obtain ⟨f, hf⟩ : ∃ f : Fragment, f.body = (stream.drop 4).take (markLen word) :=
        ⟨⟨_, by rw [hbody]; exact markLen_lt word⟩, rfl⟩
      rw [← hf] at h hbody
      refine .inr ⟨f, markLast word, (stream.drop 4).drop (markLen word), ?_, ?_, ?_⟩
      · rw [Fragment.bytes, hbody, fragmentMark_markLen, ← hword,
          be32_ofBE32 (by rw [List.length_take]; omega), hf, hword, List.append_assoc,
          List.take_append_drop, List.take_append_drop]
      · rw [hbody]
        omega
      · split at h
        · next hlast =>
            cases h
            rw [if_pos hlast]
            exact ⟨rfl, rfl⟩
        · next hlast =>
            rw [if_neg hlast]
            exact h

/-- Whatever is read was sent as fragments. -/
theorem exists_fragments {r : List UInt8}
    (h : readRecordFrom maxLen rounds record stream = .ok (some r, tail)) :
    ∃ front last, stream = fragmentBytes front last ++ tail ∧ r = record ++ payloadOf front last ∧
      r.length ≤ maxLen := by
  induction rounds generalizing record stream with
  | zero => cases h
  | succ n ih =>
      obtain ⟨-, -, hout, -⟩ | ⟨f, last, rest, rfl, hle, hround⟩ := readRecordFrom_cases h
      · cases hout
      · cases last with
        | true =>
            obtain ⟨hout, rfl⟩ := hround
            cases hout
            refine ⟨[], f, by simp [fragmentBytes], by simp [payloadOf], ?_⟩
            rw [List.length_append]
            exact hle
        | false =>
            obtain ⟨front, last, rfl, rfl, hmax⟩ := ih hround
            exact ⟨f :: front, last, by simp [fragmentBytes], by simp [payloadOf], hmax⟩

/-- A record that has begun is no hangup. -/
theorem readRecordFrom_ne_none (h : record ≠ []) :
    readRecordFrom maxLen rounds record stream ≠ .ok (none, tail) := by
  intro hnone
  induction rounds generalizing record stream with
  | zero => cases hnone
  | succ n ih =>
      obtain ⟨-, hrecord, -, -⟩ | ⟨f, last, rest, rfl, -, hround⟩ := readRecordFrom_cases hnone
      · exact h hrecord
      · cases last with
        | true => cases hround.1
        | false => exact ih (fun happ => h (List.append_eq_nil_iff.mp happ).1) hround

/-- The peer hung up behind empty fragments, or inside a mark. -/
theorem exists_hangup (h : readRecordFrom maxLen rounds [] stream = .ok (none, tail)) :
    tail = [] ∧ ∃ n part, part.length < 4 ∧
      stream = (List.replicate n (be32 0)).flatten ++ part := by
  induction rounds generalizing stream with
  | zero => cases h
  | succ n ih =>
      obtain ⟨hpart, -, -, rfl⟩ | ⟨f, last, rest, rfl, -, hround⟩ := readRecordFrom_cases h
      · exact ⟨rfl, 0, stream, hpart, rfl⟩
      · cases last with
        | true => cases hround.1
        | false =>
            by_cases hbody : f.body = []
            · have hbytes : f.bytes false = be32 0 := by simp [Fragment.bytes, fragmentMark, hbody]
              rw [if_neg Bool.false_ne_true, hbody, List.append_nil] at hround
              obtain ⟨htail, k, part, hpart, rfl⟩ := ih hround
              refine ⟨htail, k + 1, part, hpart, ?_⟩
              rw [hbytes, List.replicate_succ, List.flatten_cons, List.append_assoc]
            · exact absurd hround (readRecordFrom_ne_none hbody)

theorem readRecordFrom_hangup {n : Nat} {part : List UInt8} (h : n < rounds) (hpart : part.length < 4) :
    readRecordFrom maxLen rounds [] ((List.replicate n (be32 0)).flatten ++ part) =
      .ok (none, []) := by
  have hempty : (⟨[], by decide⟩ : Fragment).bytes false = be32 0 := by
    simp [Fragment.bytes, fragmentMark]
  induction n generalizing rounds with
  | zero =>
      obtain ⟨k, rfl⟩ : ∃ k, rounds = k + 1 := ⟨rounds - 1, by omega⟩
      exact if_pos hpart
  | succ n ih =>
      obtain ⟨k, rfl⟩ : ∃ k, rounds = k + 1 := ⟨rounds - 1, by omega⟩
      rw [List.replicate_succ, List.flatten_cons, List.append_assoc, ← hempty,
        readRecordFrom_fragment _ _ (Nat.zero_le _), hempty]
      exact ih (by omega)

/-- Fragments are no fewer bytes than there are of them. -/
theorem length_le_fragmentBytes (front : List Fragment) (last : Fragment) :
    front.length < (fragmentBytes front last).length := by
  induction front with
  | nil => simp [fragmentBytes, Fragment.length_bytes]
  | cons f front ih =>
      simp only [fragmentBytes, List.flatMap_cons, List.append_assoc, List.length_append,
        List.length_cons, f.length_bytes] at ih ⊢
      omega

/-- Fragments are read as the record they make up, or refused as one too long. -/
theorem readRecord_fragments (front : List Fragment) (last : Fragment) :
    readRecord maxLen (fragmentBytes front last ++ tail) =
      if (payloadOf front last).length ≤ maxLen then .ok (some (payloadOf front last), tail)
      else .error (.exceeds maxLen) := by
  have hlen := length_le_fragmentBytes front last
  rw [readRecord, readRecordFrom_fragments (by rw [List.length_append]; omega)]
  simp

/-- **Record marking**: a record is read off a stream exactly if the stream
begins with fragments that make it up, it is within the limit, and what is
behind its last fragment is what is left.  A hangup is read exactly off the
streams that end in their first mark, but for empty fragments in front. -/
theorem record_marking {r : List UInt8} :
    (readRecord maxLen stream = .ok (some r, tail) ↔
      ∃ front last, stream = fragmentBytes front last ++ tail ∧ r = payloadOf front last ∧
        r.length ≤ maxLen) ∧
    (readRecord maxLen stream = .ok (none, tail) ↔
      tail = [] ∧ ∃ n part, part.length < 4 ∧
        stream = (List.replicate n (be32 0)).flatten ++ part) := by
  refine ⟨⟨exists_fragments, ?_⟩, exists_hangup, ?_⟩
  · rintro ⟨front, last, rfl, rfl, hle⟩
    rw [readRecord_fragments, if_pos hle]
  · rintro ⟨rfl, n, part, hpart, rfl⟩
    refine readRecordFrom_hangup ?_ hpart
    simp only [List.length_append, List.length_flatten, List.map_replicate, length_be32,
      List.sum_replicate, smul_eq_mul]
    omega

/-- A record is read as it was written. -/
theorem readRecord_writeRecord {payload bytes : List UInt8} (h : writeRecord payload = some bytes)
    (hmax : payload.length ≤ maxLen) : readRecord maxLen (bytes ++ tail) = .ok (some payload, tail) := by
  rw [writeRecord] at h
  split at h
  · cases h
  next hlen =>
    cases h
    have hfits : payload.length < 2 ^ 31 := by omega
    have hbytes : be32 (0x80000000 ||| UInt32.ofNat payload.length) ++ payload =
        fragmentBytes [] ⟨payload, hfits⟩ := by
      simp [fragmentBytes, Fragment.bytes, fragmentMark, UInt32.or_comm]
    rw [hbytes, readRecord_fragments]
    exact if_pos hmax

end

end TestGear.Vxi11
