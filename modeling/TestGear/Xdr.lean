import TestGear.Bytes

/-!
# TestGear.Xdr

A strict reader over one XDR-encoded buffer: big-endian words, and byte
strings of variable length that are padded to a multiple of four bytes.  A
cursor never stands behind the end of its buffer.

Each read is inverted once, by what it says about the buffer and where it
leaves the cursor (`u32_eq_ok`, `opaqueBytes_eq_ok`).
-/

namespace TestGear.Xdr

inductive XdrError where
  /-- Input ended before the field it should contain. -/
  | truncated
  /-- A variable-length item claims more bytes than its protocol limit. -/
  | tooLong (len max : UInt32)
deriving DecidableEq, Repr

/-- Bytes of zero padding that follow `len` bytes of data. -/
def padOf (len : Nat) : Nat := (4 - len % 4) % 4

structure Cursor where
  data : List UInt8
  pos : Nat
  le : pos ≤ data.length

/-- Where a cursor stands in which buffer. -/
structure Cursor.At (c : Cursor) (data : List UInt8) (pos : Nat) : Prop where
  data_eq : c.data = data
  pos_eq : c.pos = pos

namespace Cursor

def new (data : List UInt8) : Cursor := ⟨data, 0, Nat.zero_le _⟩

def take (c : Cursor) (n : Nat) : Except XdrError (List UInt8 × Cursor) :=
  if h : c.pos + n ≤ c.data.length then
    .ok (slice c.data c.pos n, ⟨c.data, c.pos + n, h⟩)
  else
    .error .truncated

def u32 (c : Cursor) : Except XdrError (UInt32 × Cursor) := do
  let (bytes, c) ← c.take 4
  return (ofBE32 bytes, c)

def i32 (c : Cursor) : Except XdrError (Int32 × Cursor) := do
  let (bytes, c) ← c.take 4
  return ((ofBE32 bytes).toInt32, c)

/-- Variable-length opaque, refused above `max`.  The padding is consumed but
not required to be zero. -/
def opaqueBytes (c : Cursor) (max : UInt32) : Except XdrError (List UInt8 × Cursor) := do
  let (len, c) ← c.u32
  if max < len then
    .error (.tooLong len max)
  else
    let (data, c) ← c.take len.toNat
    let (_, c) ← c.take (padOf len.toNat)
    return (data, c)

/-- Everything not yet consumed. -/
def rest (c : Cursor) : List UInt8 := c.data.drop c.pos

end Cursor

/-! ## What was read -/

section

variable {data : List UInt8} {c c' : Cursor}

/-- A computation in two steps succeeds if both do. -/
theorem bind_eq_ok {ε α β : Type} {x : Except ε α} {f : α → Except ε β} {b : β}
    (h : x >>= f = .ok b) : ∃ a, x = .ok a ∧ f a = .ok b := by
  cases x with
  | error e => cases h
  | ok a => exact ⟨a, rfl, h⟩

theorem at_new (data : List UInt8) : (Cursor.new data).At data 0 := ⟨rfl, rfl⟩

theorem rest_of_at (hc : c.At data pos) : c.rest = data.drop pos := by
  rw [Cursor.rest, hc.data_eq, hc.pos_eq]

theorem take_eq_ok (hc : c.At data pos) (h : c.take n = .ok (bytes, c')) :
    pos + n ≤ data.length ∧ bytes = slice data pos n ∧ c'.At data (pos + n) := by
  obtain ⟨rfl, rfl⟩ := hc
  unfold Cursor.take at h
  split at h
  · next hle =>
      cases h
      exact ⟨hle, rfl, rfl, rfl⟩
  · cases h

theorem u32_eq_ok (hc : c.At data pos) (h : c.u32 = .ok (v, c')) :
    pos + 4 ≤ data.length ∧ v = ofBE32 (slice data pos 4) ∧ c'.At data (pos + 4) := by
  obtain ⟨⟨bytes, c''⟩, htake, hv⟩ := bind_eq_ok h
  cases hv
  obtain ⟨hle, rfl, hc'⟩ := take_eq_ok hc htake
  exact ⟨hle, rfl, hc'⟩

theorem i32_eq_ok (h : c.i32 = .ok (v, c')) : c.u32 = .ok (v.toUInt32, c') := by
  obtain ⟨⟨bytes, c''⟩, htake, hv⟩ := bind_eq_ok h
  cases hv
  rw [Cursor.u32, htake]
  rfl

/-- The length stands before the bytes. -/
theorem opaqueBytes_eq_ok (hc : c.At data pos) (h : c.opaqueBytes limit = .ok (body, c')) :
    ∃ len c₁, c.u32 = .ok (len, c₁) ∧ body.length = len.toNat ∧
      c'.At data (pos + 4 + len.toNat + padOf len.toNat) := by
  obtain ⟨⟨len, c₁⟩, hlen, h⟩ := bind_eq_ok h
  obtain ⟨-, -, hc₁⟩ := u32_eq_ok hc hlen
  change (if limit < len then _ else _) = _ at h
  split at h
  · cases h
  obtain ⟨⟨bytes, c₂⟩, hbytes, h⟩ := bind_eq_ok h
  obtain ⟨⟨padding, c₃⟩, hpadding, h⟩ := bind_eq_ok h
  cases h
  obtain ⟨hle, rfl, hc₂⟩ := take_eq_ok hc₁ hbytes
  obtain ⟨-, -, hc₃⟩ := take_eq_ok hc₂ hpadding
  exact ⟨len, c₁, hlen, length_slice hle, hc₃⟩

end

end TestGear.Xdr
