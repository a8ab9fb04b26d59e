import TestGear.Reading
import TestGear.Xdr

/-!
# TestGear.Xdr.Fields

The writing half of the XDR codec, and structures of fields in a given order:
a `Layout` says which fields a structure has, and its encoder and decoder go
through them one by one.

* `Layout.decode_encode` — what is encoded is decoded, whatever follows, unless
  a byte string is over its limit;
* `Layout.decode_cut` — a structure that is cut short is refused as truncated;
* `Layout.takes_read` — a structure of words and bools is decoded off its
  encoding only.
-/

namespace TestGear.Xdr

open Reader

/-! ## Writing -/

def putU32 (v : UInt32) : List UInt8 := be32 v

def putI32 (v : Int32) : List UInt8 := be32 v.toUInt32

def putBool (v : Bool) : List UInt8 := putU32 (if v then 1 else 0)

/-- Variable-length opaque: length, data, zero padding. -/
def putOpaque (data : List UInt8) : List UInt8 :=
  putU32 (UInt32.ofNat data.length) ++ data ++ List.replicate (padOf data.length) 0

/-- What the reader of a field can find wrong: a bool is neither 0 nor 1, or
what any reader can. -/
inductive FieldError where
  | xdr (error : XdrError)
  | badBool (word : UInt32)
deriving DecidableEq, Repr

/-- `Cursor::bool`. -/
def Cursor.bool : Reader Cursor FieldError Bool :=
  andThen (fun c => c.u32.mapError .xdr) fun word c =>
    match word with
    | 0 => .ok (false, c)
    | 1 => .ok (true, c)
    | _ => .error (.badBool word)

/-! ## Reading back -/

/-- Nothing has been read yet. -/
theorem rest_new (data : List UInt8) : (Cursor.new data).rest = data := rfl

/-- Bytes are read off themselves. -/
theorem reads_take (bs : List UInt8) : Reads Cursor.rest (·.take bs.length) bs bs := by
  intro c tail hc
  obtain ⟨data, pos, hle⟩ := c
  have hlen : data.length - pos = bs.length + tail.length := by
    rw [← List.length_drop, ← List.length_append]
    exact congrArg List.length hc
  have hroom : pos + bs.length ≤ data.length := by omega
  refine ⟨⟨data, pos + bs.length, hroom⟩, ?_, ?_⟩
  · have hslice : slice data pos bs.length = bs := by
      rw [slice, show data.drop pos = bs ++ tail from hc, take_append_of_length rfl]
    simp only [Cursor.take, hroom, dif_pos, hslice]
  · show data.drop (pos + bs.length) = tail
    rw [← List.drop_drop, show data.drop pos = bs ++ tail from hc, drop_append_of_length rfl]

/-- Cut short they are truncated. -/
theorem cutBy_take {bs : List UInt8} {n : Nat} (h : n = bs.length) :
    CutBy Cursor.rest (·.take n) bs .truncated := by
  intro c back hc hback
  obtain ⟨data, pos, hle⟩ := c
  have hlen : data.length - pos + back.length = n := by
    rw [h, ← hc, List.length_append]
    simp [Cursor.rest]
  have hpos := List.length_pos_iff.mpr hback
  exact dif_neg (by simp only; omega)

/-- A word is read back. -/
theorem reads_u32 (v : UInt32) : Reads Cursor.rest Cursor.u32 (putU32 v) v := by
  have h := (reads_take (be32 v)).map ofBE32
  rw [ofBE32_be32, length_be32] at h
  exact h

/-- A word cut short is not read. -/
theorem cutBy_u32 (v : UInt32) : CutBy Cursor.rest Cursor.u32 (putU32 v) .truncated := by
  have h := CutBy.map (reads_take (be32 v)) (cutBy_take rfl) ofBE32
  rw [length_be32] at h
  exact h

/-- A signed word is read back. -/
theorem reads_i32 (v : Int32) : Reads Cursor.rest Cursor.i32 (putI32 v) v := by
  have h := (reads_take (be32 v.toUInt32)).map fun bs => (ofBE32 bs).toInt32
  rw [ofBE32_be32, length_be32] at h
  exact h

/-- Cut short it is not. -/
theorem cutBy_i32 (v : Int32) : CutBy Cursor.rest Cursor.i32 (putI32 v) .truncated := by
  have h := CutBy.map (reads_take (be32 v.toUInt32)) (cutBy_take rfl) fun bs => (ofBE32 bs).toInt32
  rw [length_be32] at h
  exact h

/-- A bool is read back. -/
theorem reads_bool (v : Bool) : Reads Cursor.rest Cursor.bool (putBool v) v := by
  rw [putBool, ← List.append_nil (putU32 _)]
  refine ((reads_u32 _).mapError FieldError.xdr).andThen ?_
  cases v with
  | false => exact reads_pure false
  | true => exact reads_pure true

/-- Cut short it is not. -/
theorem cutBy_bool (v : Bool) :
    CutBy Cursor.rest Cursor.bool (putBool v) (.xdr .truncated) := by
  rw [putBool, ← List.append_nil (putU32 _)]
  exact CutBy.andThen ((reads_u32 _).mapError FieldError.xdr) ((cutBy_u32 _).mapError FieldError.xdr)
    (cutBy_nil _ _)

/-- A word is read off its four bytes. -/
theorem takes_u32 : Takes Cursor.rest Cursor.u32 putU32 := by
  intro c v c' h
  obtain ⟨data, pos, hle⟩ := c
  obtain ⟨hroom, rfl, hc'⟩ := u32_eq_ok ⟨rfl, rfl⟩ h
  rw [rest_of_at hc', putU32, be32_ofBE32 (length_slice hroom), slice, ← List.drop_drop,
    List.take_append_drop]
  rfl

/-- What is read as a signed word is one. -/
theorem takes_i32 : Takes Cursor.rest Cursor.i32 putI32 := by
  intro c v c' h
  exact takes_u32 c v.toUInt32 c' (i32_eq_ok h)

/-- What is read as a bool is one, 0 or 1. -/
theorem takes_bool : Takes Cursor.rest Cursor.bool putBool := by
  intro c v c' h
  obtain ⟨word, c₁, hword, h⟩ := andThen_eq_ok h
  rw [takes_u32.mapError FieldError.xdr c word c₁ hword]
  split at h
  · cases h
    rfl
  · cases h
    rfl
  · cases h

section

variable {data : List UInt8} {max : UInt32}

/-- An opaque takes no fewer bytes than it has. -/
theorem length_le_putOpaque (data : List UInt8) : data.length ≤ (putOpaque data).length := by
  rw [putOpaque, List.append_assoc, List.length_append, List.length_append]
  omega

/-- A byte string in three parts, as its reader takes it. -/
theorem opaqueBytes_eq_andThen (max : UInt32) :
    (·.opaqueBytes max) = andThen Cursor.u32 fun len c =>
      if max < len then .error (.tooLong len max)
      else andThen (·.take len.toNat) (fun data => andThen (·.take (padOf len.toNat))
        fun _ c => .ok (data, c)) c := rfl

/-- A length within a limit is written as it is. -/
theorem toNat_ofNat_length (h : data.length ≤ max.toNat) :
    (UInt32.ofNat data.length).toNat = data.length :=
  UInt32.toNat_ofNat_of_lt' (h.trans_lt max.toNat_lt)

/-- And is not over it. -/
theorem not_max_lt (h : data.length ≤ max.toNat) : ¬ max < UInt32.ofNat data.length := by
  rw [UInt32.lt_iff_toNat_lt, toNat_ofNat_length h]
  omega

/-- A byte string within the limit. -/
theorem reads_opaqueBytes (h : data.length ≤ max.toNat) :
    Reads Cursor.rest (·.opaqueBytes max) (putOpaque data) data := by
  have hpad := reads_take (List.replicate (padOf data.length) 0)
  rw [List.length_replicate] at hpad
  have hbody := (reads_take data).andThen
    (g := fun body => andThen (·.take (padOf data.length)) fun _ c => .ok (body, c))
    (hpad.map fun _ => data)
  rw [opaqueBytes_eq_andThen, putOpaque, List.append_assoc]
  refine (reads_u32 _).andThen ?_
  simp only [not_max_lt h, if_false, toNat_ofNat_length h]
  exact hbody

/-- An opaque cut short is truncated, its padding too. -/
theorem cutBy_opaqueBytes (h : data.length ≤ max.toNat) :
    CutBy Cursor.rest (·.opaqueBytes max) (putOpaque data) .truncated := by
  have hpad := reads_take (List.replicate (padOf data.length) 0)
  have hcutPad := @cutBy_take (List.replicate (padOf data.length) 0) _ rfl
  rw [List.length_replicate] at hpad hcutPad
  have hbody := CutBy.andThen
    (g := fun body => andThen (·.take (padOf data.length)) fun _ c => .ok (body, c))
    (reads_take data) (cutBy_take rfl) (CutBy.map hpad hcutPad fun _ => data)
  rw [opaqueBytes_eq_andThen, putOpaque, List.append_assoc]
  refine CutBy.andThen (reads_u32 _) (cutBy_u32 _) ?_
  simp only [not_max_lt h, if_false, toNat_ofNat_length h]
  exact hbody

/-- A byte string over the limit is refused for its length word. -/
theorem opaqueBytes_tooLong (h : max.toNat < data.length) (hlen : data.length < 2 ^ 32)
    {c : Cursor} {tail : List UInt8} (hc : c.rest = putOpaque data ++ tail) :
    c.opaqueBytes max = .error (.tooLong (UInt32.ofNat data.length) max) := by
  rw [putOpaque, List.append_assoc, List.append_assoc] at hc
  obtain ⟨c', hu32, -⟩ := reads_u32 _ c _ hc
  have hmax : max < UInt32.ofNat data.length := by
    rw [UInt32.lt_iff_toNat_lt, UInt32.toNat_ofNat_of_lt' hlen]
    exact h
  rw [Cursor.opaqueBytes, hu32]
  exact if_pos hmax

end

/-! ## Structures -/

/-- A field of a structure.  A `u16` or a `u8` rides in a full word. -/
inductive Field where
  | u32
  | i32
  | bool
  | u16
  | u8
  | opaqueBytes (max : UInt32)

namespace Field

def Val : Field → Type
  | u32 => UInt32
  | i32 => Int32
  | bool => Bool
  | u16 => UInt16
  | u8 => UInt8
  | opaqueBytes _ => List UInt8

def put : (f : Field) → f.Val → List UInt8
  | u32, v => putU32 v
  | i32, v => putI32 v
  | bool, v => putBool v
  | u16, (v : UInt16) => putU32 v.toUInt32
  | u8, (v : UInt8) => putU32 v.toUInt32
  | opaqueBytes _, data => putOpaque data

def get : (f : Field) → Reader Cursor FieldError f.Val
  | u32 => fun c => c.u32.mapError FieldError.xdr
  | i32 => fun c => c.i32.mapError FieldError.xdr
  | bool => Cursor.bool
  | u16 => andThen (fun c => c.u32.mapError FieldError.xdr) fun word c => .ok (word.toUInt16, c)
  | u8 => andThen (fun c => c.u32.mapError FieldError.xdr) fun word c => .ok (word.toUInt8, c)
  | opaqueBytes max => fun c => (c.opaqueBytes max).mapError FieldError.xdr

/-- The length of a byte string and the limit it exceeds. -/
def excess : (f : Field) → f.Val → Option (Nat × UInt32)
  | opaqueBytes max, (data : List UInt8) => if max.toNat < data.length then some (data.length, max) else none
  | _, _ => none

/-- A field within its limit is read back. -/
theorem reads_get {f : Field} {v : f.Val} (h : f.excess v = none) :
    Reads Cursor.rest f.get (f.put v) v := by
  cases f with
  | u32 => exact (reads_u32 v).mapError FieldError.xdr
  | i32 => exact (reads_i32 v).mapError FieldError.xdr
  | bool => exact reads_bool v
  | u16 =>
      have hr := ((reads_u32 (UInt16.toUInt32 v)).mapError FieldError.xdr).map UInt32.toUInt16
      have hv : (UInt16.toUInt32 v).toUInt16 = v := UInt16.toUInt16_toUInt32 v
      rw [hv] at hr
      exact hr
  | u8 =>
      have hr := ((reads_u32 (UInt8.toUInt32 v)).mapError FieldError.xdr).map UInt32.toUInt8
      have hv : (UInt8.toUInt32 v).toUInt8 = v := UInt8.toUInt8_toUInt32 v
      rw [hv] at hr
      exact hr
  | opaqueBytes max =>
      have hle : List.length v ≤ max.toNat := by simpa [excess] using h
      exact (reads_opaqueBytes hle).mapError FieldError.xdr

/-- Cut short it is truncated. -/
theorem cutBy_get {f : Field} {v : f.Val} (h : f.excess v = none) :
    CutBy Cursor.rest f.get (f.put v) (.xdr .truncated) := by
  cases f with
  | u32 => exact (cutBy_u32 v).mapError FieldError.xdr
  | i32 => exact (cutBy_i32 v).mapError FieldError.xdr
  | bool => exact cutBy_bool v
  | u16 => exact CutBy.map ((reads_u32 _).mapError FieldError.xdr) ((cutBy_u32 _).mapError FieldError.xdr) _
  | u8 => exact CutBy.map ((reads_u32 _).mapError FieldError.xdr) ((cutBy_u32 _).mapError FieldError.xdr) _
  | opaqueBytes max =>
      have hle : List.length v ≤ max.toNat := by simpa [excess] using h
      exact (cutBy_opaqueBytes hle).mapError FieldError.xdr

/-- A field over its limit is refused by its length. -/
theorem get_of_excess {f : Field} {v : f.Val} {len : Nat} {max : UInt32}
    (h : f.excess v = some (len, max)) (hlen : len < 2 ^ 32) {c : Cursor} {tail : List UInt8}
    (hc : c.rest = f.put v ++ tail) :
    f.get c = .error (.xdr (.tooLong (UInt32.ofNat len) max)) := by
  cases f with
  | opaqueBytes max' =>
      have hexcess : max'.toNat < List.length v ∧ List.length v = len ∧ max' = max := by
        simpa [excess] using h
      obtain ⟨hexcess, rfl, rfl⟩ := hexcess
      show (c.opaqueBytes max').mapError FieldError.xdr = _
      rw [opaqueBytes_tooLong hexcess hlen hc]
      rfl
  | _ => cases h

/-- A byte string is no longer than what it is encoded as. -/
theorem length_le_of_excess {f : Field} {v : f.Val} {len : Nat} {max : UInt32}
    (h : f.excess v = some (len, max)) : len ≤ (f.put v).length := by
  cases f with
  | opaqueBytes max' =>
      have hexcess : max'.toNat < List.length v ∧ List.length v = len ∧ max' = max := by
        simpa [excess] using h
      obtain ⟨-, rfl, -⟩ := hexcess
      exact length_le_putOpaque v
  | _ => cases h

end Field

/-- Values for the fields of a structure, in their order. -/
def Vals : List Field → Type
  | [] => Unit
  | f :: fs => f.Val × Vals fs

def putFields : (fs : List Field) → Vals fs → List UInt8
  | [], _ => []
  | f :: fs, (v, vs) => f.put v ++ putFields fs vs

def getFields : (fs : List Field) → Reader Cursor FieldError (Vals fs)
  | [] => fun c => .ok ((), c)
  | f :: fs => f.get.andThen fun v => (getFields fs).andThen fun vs c => .ok ((v, vs), c)

/-- The first byte string over its limit. -/
def firstExcess : (fs : List Field) → Vals fs → Option (Nat × UInt32)
  | [], _ => none
  | f :: fs, (v, vs) => (f.excess v).or (firstExcess fs vs)

/-- Fields within their limits are read back, one behind the other. -/
theorem reads_getFields {fs : List Field} {vs : Vals fs} (h : firstExcess fs vs = none) :
    Reads Cursor.rest (getFields fs) (putFields fs vs) vs := by
  induction fs with
  | nil => exact reads_pure ()
  | cons f fs ih =>
      obtain ⟨v, vs⟩ := vs
      rw [firstExcess, Option.or_eq_none_iff] at h
      exact (Field.reads_get h.1).andThen ((ih h.2).map (Prod.mk v))

/-- Cut short, wherever that is, they are truncated. -/
theorem cutBy_getFields {fs : List Field} {vs : Vals fs} (h : firstExcess fs vs = none) :
    CutBy Cursor.rest (getFields fs) (putFields fs vs) (.xdr .truncated) := by
  induction fs with
  | nil => exact cutBy_nil _ _
  | cons f fs ih =>
      obtain ⟨v, vs⟩ := vs
      rw [firstExcess, Option.or_eq_none_iff] at h
      exact CutBy.andThen (Field.reads_get h.1) (Field.cutBy_get h.1)
        (CutBy.map (reads_getFields h.2) (ih h.2) (Prod.mk v))

/-- The first field over its limit is what they are refused for. -/
theorem getFields_of_firstExcess {fs : List Field} {vs : Vals fs} {len : Nat} {max : UInt32}
    (h : firstExcess fs vs = some (len, max)) (hlen : len < 2 ^ 32) {c : Cursor} {tail : List UInt8}
    (hc : c.rest = putFields fs vs ++ tail) :
    getFields fs c = .error (.xdr (.tooLong (UInt32.ofNat len) max)) := by
  induction fs generalizing c with
  | nil => cases h
  | cons f fs ih =>
      obtain ⟨v, vs⟩ := vs
      rw [putFields, List.append_assoc] at hc
      rw [firstExcess] at h
      cases hexcess : f.excess v with
      | some p =>
          rw [hexcess, Option.some_or, Option.some.injEq] at h
          subst h
          simp only [getFields, andThen, Field.get_of_excess hexcess hlen hc]
          rfl
      | none =>
          rw [hexcess, Option.none_or] at h
          obtain ⟨c', hget, hc'⟩ := Field.reads_get hexcess c _ hc
          simp only [getFields, andThen, hget]
          have hrec := ih h hc'
          show (getFields fs c').bind _ = _
          rw [hrec]
          rfl

/-- It is written as long as it is. -/
theorem length_le_of_firstExcess {fs : List Field} {vs : Vals fs} {len : Nat} {max : UInt32}
    (h : firstExcess fs vs = some (len, max)) : len ≤ (putFields fs vs).length := by
  induction fs with
  | nil => cases h
  | cons f fs ih =>
      obtain ⟨v, vs⟩ := vs
      rw [firstExcess, Option.or_eq_some_iff] at h
      rw [putFields, List.length_append]
      cases h with
      | inl hfirst =>
          have := Field.length_le_of_excess hfirst
          omega
      | inr hrest =>
          have := ih hrest.2
          omega

/-- A field that is read off one encoding only: no half of a word is dropped,
and no padding. -/
def Field.isWord : Field → Bool
  | u32 | i32 | bool => true
  | u16 | u8 | opaqueBytes _ => false

/-- What is read as a word field is one. -/
theorem Field.takes_get {f : Field} (h : f.isWord = true) : Takes Cursor.rest f.get f.put := by
  cases f with
  | u32 => exact takes_u32.mapError FieldError.xdr
  | i32 => exact takes_i32.mapError FieldError.xdr
  | bool => exact takes_bool
  | u16 => cases h
  | u8 => cases h
  | opaqueBytes max => cases h

/-- What is read as word fields is their encoding. -/
theorem takes_getFields {fs : List Field} (h : fs.all Field.isWord = true) :
    Takes Cursor.rest (getFields fs) (putFields fs) := by
  induction fs with
  | nil =>
      intro c vs c' hc
      cases hc
      rfl
  | cons f fs ih =>
      rw [List.all_cons, Bool.and_eq_true] at h
      intro c vs c' hc
      obtain ⟨v, c₁, hv, hc⟩ := andThen_eq_ok hc
      obtain ⟨vs', c₂, hvs, hc⟩ := andThen_eq_ok hc
      cases hc
      rw [Field.takes_get h.1 c v c₁ hv, ih h.2 c₁ vs' _ hvs, putFields, List.append_assoc]

/-- How a structure is laid out: its fields in order. -/
structure Layout (α : Type) where
  fields : List Field
  vals : α → Vals fields
  ofVals : Vals fields → α
  ofVals_vals : ∀ a, ofVals (vals a) = a

namespace Layout

variable {α : Type} (l : Layout α)

def encode (a : α) : List UInt8 := putFields l.fields (l.vals a)

def read : Reader Cursor FieldError α := andThen (getFields l.fields) fun vs c => .ok (l.ofVals vs, c)

/-- What follows the last field is not looked at. -/
def decode (data : List UInt8) : Except FieldError α := (l.read (Cursor.new data)).map Prod.fst

/-- The first byte string over its limit, and the limit. -/
def excess (a : α) : Option (Nat × UInt32) := firstExcess l.fields (l.vals a)

/-- A value of a layout is read back. -/
theorem reads_read {a : α} (h : l.excess a = none) : Reads Cursor.rest l.read (l.encode a) a := by
  have hr := (reads_getFields h).map l.ofVals
  rwa [l.ofVals_vals] at hr

/-- One that is cut short, as its reader meets it. -/
theorem cutBy_read {a : α} (h : l.excess a = none) :
    CutBy Cursor.rest l.read (l.encode a) (.xdr .truncated) :=
  CutBy.map (reads_getFields h) (cutBy_getFields h) l.ofVals

/-- **Round trip**: a structure whose byte strings are within their limits is
decoded as it was encoded, whatever follows it; of one that is not the first
byte string that is too long is refused, with its length and the limit. -/
theorem decode_encode (a : α) (tail : List UInt8) (h : ∀ p ∈ l.excess a, p.1 < 2 ^ 32) :
    l.decode (l.encode a ++ tail) =
      match l.excess a with
      | none => .ok a
      | some (len, max) => .error (.xdr (.tooLong (UInt32.ofNat len) max)) := by
  have hc := rest_new (l.encode a ++ tail)
  cases hexcess : l.excess a with
  | none =>
      obtain ⟨c', hread, -⟩ := l.reads_read hexcess _ tail hc
      rw [decode, hread]
      rfl
  | some p =>
      obtain ⟨len, max⟩ := p
      have hget := getFields_of_firstExcess hexcess (h _ hexcess) hc
      simp only [decode, read, andThen, hget]
      rfl

/-- **A cut structure** is refused as truncated, wherever the cut is. -/
theorem decode_cut {a : α} (h : l.excess a = none) {front back : List UInt8}
    (hcut : front ++ back = l.encode a) (hback : back ≠ []) :
    l.decode front = .error (.xdr .truncated) := by
  rw [decode, l.cutBy_read h (Cursor.new front) back hcut hback]
  rfl

/-- A structure of words that says nothing twice is read off its encoding only. -/
theorem takes_read (h : l.fields.all Field.isWord = true) (hvals : ∀ vs, l.vals (l.ofVals vs) = vs) :
    Takes Cursor.rest l.read l.encode := by
  intro c a c' hc
  obtain ⟨vs, c₁, hvs, hc⟩ := andThen_eq_ok hc
  cases hc
  rw [takes_getFields h c vs _ hvs, encode, hvals]

end Layout

end TestGear.Xdr
