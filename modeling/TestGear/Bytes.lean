import Mathlib

/-!
# TestGear.Bytes

Byte-list plumbing: fixed-width big-endian integers, `take`/`drop` over
appended buffers, and overwriting part of a buffer in place (`splice`, what
`copy_from_slice` does to a sub-slice), and cutting one into chunks.

Everything here is proved once so the framing proofs never redo list
arithmetic.  This module names nothing of the server.
-/

namespace TestGear

/-! ## take/drop over appended buffers -/

/-- Taking the length of a prefix from an append gives the prefix. -/
theorem take_append_of_length {xs ys : List α} (h : xs.length = k) :
    (xs ++ ys).take k = xs := by
  subst h; simp

/-- Dropping the length of a prefix from an append gives the suffix. -/
theorem drop_append_of_length {xs ys : List α} (h : xs.length = k) :
    (xs ++ ys).drop k = ys := by
  subst h; simp

/-- A buffer whose suffix at `pos` is known has that many bytes left there. -/
theorem length_of_drop_eq {buf tail : List α} (hpos : pos ≤ buf.length)
    (h : buf.drop pos = tail) : buf.length = pos + tail.length := by
  rw [← h, List.length_drop]
  omega

/-- Two ways of cutting one buffer in two: the longer first part extends the
shorter one. -/
theorem append_eq_append_of_le {a b c d : List α} (h : a ++ b = c ++ d)
    (hle : a.length ≤ c.length) : ∃ m, c = a ++ m ∧ b = m ++ d := by
  rcases List.append_eq_append_iff.mp h with ⟨m, hc, hb⟩ | ⟨m, ha, hd⟩
  · exact ⟨m, hc, hb⟩
  · have hm : m = [] := by
      rw [ha, List.length_append] at hle
      exact List.length_eq_zero_iff.mp (by omega)
    subst hm
    exact ⟨[], by simpa using ha.symm, by simpa using hd.symm⟩

/-! ## Big-endian integers -/

/-- The `k` low-order bytes of `n`, most significant byte first. -/
def beBytes : Nat → Nat → List UInt8
  | 0, _ => []
  | k + 1, n => UInt8.ofNat (n / 256 ^ k) :: beBytes k n

/-- The number a big-endian byte string stands for. -/
def ofBE : List UInt8 → Nat
  | [] => 0
  | b :: bs => b.toNat * 256 ^ bs.length + ofBE bs

@[simp] theorem length_beBytes (k n : Nat) : (beBytes k n).length = k := by
  induction k with
  | zero => rfl
  | succ k ih => simp [beBytes, ih]

theorem ofBE_lt (bs : List UInt8) : ofBE bs < 256 ^ bs.length := by
  induction bs with
  | nil => simp [ofBE]
  | cons b bs ih =>
      have hb : b.toNat ≤ 255 := Nat.le_of_lt_succ b.toNat_lt
      have hmul : b.toNat * 256 ^ bs.length ≤ 255 * 256 ^ bs.length :=
        Nat.mul_le_mul_right _ hb
      simp only [ofBE, List.length_cons, Nat.pow_succ]
      omega

/-- Reading back `k` bytes loses only what does not fit in `k` bytes. -/
theorem ofBE_beBytes (k n : Nat) : ofBE (beBytes k n) = n % 256 ^ k := by
  induction k with
  | zero => simp [beBytes, ofBE, Nat.mod_one]
  | succ k ih =>
      have hhead : (UInt8.ofNat (n / 256 ^ k)).toNat = n / 256 ^ k % 256 := UInt8.toNat_ofNat'
      rw [beBytes, ofBE, length_beBytes, ih, hhead, Nat.pow_succ, Nat.mod_mul,
        Nat.mul_comm (256 ^ k), Nat.add_comm]

/-- Digits above the `k` bytes kept do not matter. -/
theorem beBytes_add_mul (k d n : Nat) : beBytes k (d * 256 ^ k + n) = beBytes k n := by
  induction k generalizing d with
  | zero => rfl
  | succ k ih =>
      have hpos : 0 < 256 ^ k := Nat.pow_pos (by decide)
      have hsplit : d * 256 ^ (k + 1) + n = d * 256 * 256 ^ k + n := by
        rw [Nat.pow_succ, Nat.mul_comm (256 ^ k), Nat.mul_assoc]
      have hdiv : (d * 256 * 256 ^ k + n) / 256 ^ k = d * 256 + n / 256 ^ k := by
        rw [Nat.mul_comm (d * 256), Nat.mul_add_div hpos]
      have hbyte : UInt8.ofNat (d * 256 + n / 256 ^ k) = UInt8.ofNat (n / 256 ^ k) := by
        apply UInt8.toNat_inj.mp
        simp only [UInt8.toNat_ofNat']
        omega
      rw [hsplit, beBytes, beBytes, hdiv, ih, hbyte]

/-- A `k`-byte string is determined by the number it stands for. -/
theorem beBytes_ofBE {bs : List UInt8} (h : bs.length = k) : beBytes k (ofBE bs) = bs := by
  subst h
  induction bs with
  | nil => rfl
  | cons b bs ih =>
      have hpos : 0 < 256 ^ bs.length := Nat.pow_pos (by decide)
      have hhead : (b.toNat * 256 ^ bs.length + ofBE bs) / 256 ^ bs.length = b.toNat := by
        rw [Nat.mul_comm, Nat.mul_add_div hpos, Nat.div_eq_of_lt (ofBE_lt bs), Nat.add_zero]
      rw [List.length_cons, ofBE, beBytes, hhead, beBytes_add_mul, ih, UInt8.ofNat_toNat]

/-- A 32-bit word as four bytes (`u32::to_be_bytes`). -/
def be32 (x : UInt32) : List UInt8 := beBytes 4 x.toNat

/-- The 32-bit word four bytes stand for (`u32::from_be_bytes`). -/
def ofBE32 (bs : List UInt8) : UInt32 := UInt32.ofNat (ofBE bs)

/-- A 64-bit word as eight bytes (`u64::to_be_bytes`). -/
def be64 (x : UInt64) : List UInt8 := beBytes 8 x.toNat

/-- The 64-bit word eight bytes stand for (`u64::from_be_bytes`). -/
def ofBE64 (bs : List UInt8) : UInt64 := UInt64.ofNat (ofBE bs)

@[simp] theorem length_be32 (x : UInt32) : (be32 x).length = 4 := length_beBytes 4 _

@[simp] theorem length_be64 (x : UInt64) : (be64 x).length = 8 := length_beBytes 8 _

@[simp] theorem ofBE32_be32 (x : UInt32) : ofBE32 (be32 x) = x := by
  have hlt : x.toNat < 256 ^ 4 := x.toNat_lt
  rw [ofBE32, be32, ofBE_beBytes, Nat.mod_eq_of_lt hlt, UInt32.ofNat_toNat]

@[simp] theorem ofBE64_be64 (x : UInt64) : ofBE64 (be64 x) = x := by
  have hlt : x.toNat < 256 ^ 8 := x.toNat_lt
  rw [ofBE64, be64, ofBE_beBytes, Nat.mod_eq_of_lt hlt, UInt64.ofNat_toNat]

theorem be32_ofBE32 {bs : List UInt8} (h : bs.length = 4) : be32 (ofBE32 bs) = bs := by
  have hlt : ofBE bs < 2 ^ 32 := by
    have := ofBE_lt bs
    rwa [h] at this
  rw [be32, ofBE32, UInt32.toNat_ofNat_of_lt' hlt, beBytes_ofBE h]

theorem be64_ofBE64 {bs : List UInt8} (h : bs.length = 8) : be64 (ofBE64 bs) = bs := by
  have hlt : ofBE bs < 2 ^ 64 := by
    have := ofBE_lt bs
    rwa [h] at this
  rw [be64, ofBE64, UInt64.toNat_ofNat_of_lt' hlt, beBytes_ofBE h]

/-! ## Sub-slices -/

/-- The `len` bytes of `buf` from offset `at`. -/
def slice (buf : List UInt8) (off len : Nat) : List UInt8 := (buf.drop off).take len

theorem length_slice {buf : List UInt8} (h : off + len ≤ buf.length) :
    (slice buf off len).length = len := by
  simp [slice]
  omega

/-- A slice that starts inside a known suffix is a slice of that suffix. -/
theorem slice_add (buf : List UInt8) (pos off len : Nat) :
    slice buf (pos + off) len = slice (buf.drop pos) off len := by
  simp [slice]

theorem slice_append (buf : List UInt8) (off m n : Nat) :
    slice buf off m ++ slice buf (off + m) n = slice buf off (m + n) := by
  rw [slice, slice, slice, List.take_add, List.drop_drop]

theorem slice_two {buf : List UInt8} (h : off + 2 ≤ buf.length) :
    slice buf off 2 = [buf.getD off 0, buf.getD (off + 1) 0] := by
  have hfirst : off < buf.length := by omega
  have hsecond : off + 1 < buf.length := by omega
  rw [slice, List.drop_eq_getElem_cons hfirst, List.drop_eq_getElem_cons hsecond,
    List.getD_eq_getElem _ _ hfirst, List.getD_eq_getElem _ _ hsecond]
  rfl

/-- Overwrite `buf` from offset `off` with `w`, as `copy_from_slice` into a
sub-slice does. -/
def splice (buf : List UInt8) (off : Nat) (w : List UInt8) : List UInt8 :=
  buf.take off ++ w ++ buf.drop (off + w.length)

theorem length_splice {buf w : List UInt8} (h : off + w.length ≤ buf.length) :
    (splice buf off w).length = buf.length := by
  simp [splice]
  omega

/-- Overwriting behind a prefix leaves the prefix alone. -/
theorem splice_append_right (xs ys : List UInt8) (off : Nat) (w : List UInt8) :
    splice (xs ++ ys) (xs.length + off) w = xs ++ splice ys off w := by
  have ht : (xs ++ ys).take (xs.length + off) = xs ++ ys.take off :=
    List.take_length_add_append off
  have hd : (xs ++ ys).drop (xs.length + off + w.length) = ys.drop (off + w.length) := by
    rw [Nat.add_assoc]
    exact List.drop_length_add_append (off + w.length)
  simp [splice, ht, hd]

/-- A byte of an overwritten buffer. -/
theorem getElem?_splice {buf w : List UInt8} (h : off + w.length ≤ buf.length) (i : Nat) :
    (splice buf off w)[i]? = if off ≤ i ∧ i < off + w.length then w[i - off]? else buf[i]? := by
  have htake : (buf.take off).length = off := by rw [List.length_take]; omega
  rw [splice, List.append_assoc]
  rcases Nat.lt_or_ge i off with hlt | hge
  · rw [List.getElem?_append_left (by omega), List.getElem?_take_of_lt hlt,
      if_neg (by omega)]
  · rw [List.getElem?_append_right (by omega), htake]
    rcases Nat.lt_or_ge i (off + w.length) with hin | hout
    · rw [List.getElem?_append_left (by omega), if_pos ⟨hge, hin⟩]
    · rw [List.getElem?_append_right (by omega), List.getElem?_drop, if_neg (by omega)]
      congr 1
      omega

theorem length_splice_slice {buf orig : List UInt8} (h : buf.length = orig.length)
    (off len : Nat) : (splice buf off (slice orig off len)).length = buf.length := by
  simp [splice, slice]
  omega

/-- Writing a slice of a buffer over another buffer of its length, whether the
slice is all there or not. -/
theorem getElem?_splice_slice {buf orig : List UInt8} (h : buf.length = orig.length)
    (off len i : Nat) :
    (splice buf off (slice orig off len))[i]? =
      if off ≤ i ∧ i < off + len then orig[i]? else buf[i]? := by
  have hlen : (slice orig off len).length = min len (orig.length - off) := by simp [slice]
  rcases Nat.lt_or_ge orig.length off with hbeyond | hle
  · have hnil : slice orig off len = [] := List.eq_nil_of_length_eq_zero (by omega)
    have hsame : splice buf off [] = buf := by simp [splice]
    rw [hnil, hsame]
    split
    · rw [List.getElem?_eq_none (by omega), List.getElem?_eq_none (by omega)]
    · rfl
  · rw [getElem?_splice (by omega), hlen]
    rcases Nat.lt_or_ge i orig.length with hlt | hge
    · split
      · next hin =>
          rw [if_pos (by omega), slice, List.getElem?_take_of_lt (by omega), List.getElem?_drop]
          congr 1
          omega
      · next hout => rw [if_neg (by omega)]
    · have hnone (l : List UInt8) (hl : l.length = orig.length) : l[i]? = none :=
        List.getElem?_eq_none (by omega)
      rw [if_neg (by omega), hnone buf h, hnone orig rfl, ite_self]

/-! ## Chunks -/

/-- Cut a list into chunks of `k`; the last one may be shorter. -/
def chunksOf (k : Nat) (xs : List α) : List (List α) :=
  if xs = [] ∨ k = 0 then [] else xs.take k :: chunksOf k (xs.drop k)
termination_by xs.length
decreasing_by
  next h =>
  rw [not_or] at h
  have := List.length_pos_iff.mpr h.1
  rw [List.length_drop]
  omega

theorem flatten_chunksOf {k : Nat} (hk : 0 < k) (xs : List α) : (chunksOf k xs).flatten = xs := by
  induction xs using chunksOf.induct k with
  | case1 xs h =>
      have hnil : xs = [] := h.resolve_right (by omega)
      rw [chunksOf, if_pos h, hnil, List.flatten_nil]
  | case2 xs h ih => rw [chunksOf, if_neg h, List.flatten_cons, ih, List.take_append_drop]

theorem length_le_of_mem_chunksOf {k : Nat} {xs c : List α} (h : c ∈ chunksOf k xs) :
    c.length ≤ k := by
  induction xs using chunksOf.induct k with
  | case1 xs hstop =>
      rw [chunksOf, if_pos hstop] at h
      exact absurd h List.not_mem_nil
  | case2 xs hgo ih =>
      rw [chunksOf, if_neg hgo, List.mem_cons] at h
      cases h with
      | inl hfirst => rw [hfirst, List.length_take]; omega
      | inr hrest => exact ih hrest

end TestGear
