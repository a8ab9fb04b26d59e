import Mathlib

/-!
# TestGear.Text

Text as the standard library of the server's language has it: characters in
a list, `trim`, `split_once`, number parsing, and lossy UTF-8 decoding.

The decoder is a machine that is fed one byte at a time, so that decoding a
buffer in two parts is decoding it at once unless the cut falls inside a
character (`fromUtf8Lossy_append_of_start`), and `fromUtf8Lossy_cut` says what
the two readings are if it does.  `fromUtf8Lossy_asBytes` is the round trip,
and `splitOnP_append` is about splitting at a separator.  This module names
nothing of the server.
-/

namespace TestGear

abbrev Text := List Char

/-! ## White space -/

/-- `char::is_whitespace`: the Unicode property White_Space. -/
def isWhitespace (c : Char) : Bool :=
  let n := c.toNat
  (0x09 ≤ n && n ≤ 0x0D) || n == 0x20 || n == 0x85 || n == 0xA0 || n == 0x1680 ||
    (0x2000 ≤ n && n ≤ 0x200A) || n == 0x2028 || n == 0x2029 || n == 0x202F || n == 0x205F ||
    n == 0x3000

def trim (t : Text) : Text := (t.dropWhile isWhitespace).rdropWhile isWhitespace

def blank (t : Text) : Bool := t.all isWhitespace

/-- `split_once` at the first character that satisfies `p`. -/
def splitOnce (p : Char → Bool) (t : Text) : Option (Text × Text) :=
  match t.dropWhile (!p ·) with
  | [] => none
  | _ :: rest => some (t.takeWhile (!p ·), rest)

/-- Nothing is left of a blank text. -/
theorem dropWhile_of_blank {w : Text} (h : blank w = true) : w.dropWhile isWhitespace = [] := by
  simpa [blank] using h

/-- A blank end is dropped from the right. -/
theorem rdropWhile_append_of_blank {w : Text} (h : blank w = true) (t : Text) :
    (t ++ w).rdropWhile isWhitespace = t.rdropWhile isWhitespace := by
  have hrev : w.reverse.dropWhile isWhitespace = [] := by simpa [blank] using h
  rw [List.rdropWhile, List.reverse_append, List.dropWhile_append, hrev]
  rfl

/-- Blanks in front are trimmed away. -/
theorem trim_append_left {w : Text} (h : blank w = true) (t : Text) : trim (w ++ t) = trim t := by
  rw [trim, List.dropWhile_append, dropWhile_of_blank h]
  rfl

/-- And so are those behind. -/
theorem trim_append_right {w : Text} (h : blank w = true) (t : Text) : trim (t ++ w) = trim t := by
  rw [trim, List.dropWhile_append, dropWhile_of_blank h]
  cases ht : t.dropWhile isWhitespace with
  | nil => rw [trim, ht]; rfl
  | cons c cs => rw [trim, ht, ← rdropWhile_append_of_blank h (c :: cs)]; rfl

/-- Only blanks are trimmed to nothing. -/
theorem trim_eq_nil_iff (t : Text) : trim t = [] ↔ blank t = true := by
  constructor
  · intro h
    rw [trim, List.rdropWhile_eq_nil_iff] at h
    -- what is left after dropping blanks would start with a non-blank
    cases ht : t.dropWhile isWhitespace with
    | nil => simpa [blank] using ht
    | cons c cs =>
        have hne : t.dropWhile isWhitespace ≠ [] := by rw [ht]; exact List.cons_ne_nil _ _
        have hhead := List.head_dropWhile_not isWhitespace hne
        have hc : isWhitespace c = true := h c (by rw [ht]; exact List.mem_cons_self)
        simp [ht, hc] at hhead
  · intro h
    rw [trim, dropWhile_of_blank h, List.rdropWhile_nil]

/-- Without white space there is nothing to trim. -/
theorem trim_of_not_isWhitespace {t : Text} (h : ∀ c ∈ t, isWhitespace c = false) : trim t = t := by
  have hdrop : t.dropWhile isWhitespace = t := by
    cases t with
    | nil => rfl
    | cons c cs => rw [List.dropWhile_cons_of_neg (by simp [h c List.mem_cons_self])]
  rw [trim, hdrop, List.rdropWhile_eq_self_iff]
  intro hne
  simp [h _ (List.getLast_mem hne)]

/-- What is trimmed starts with something. -/
theorem head_trim {t cs : Text} {c : Char} (h : trim t = c :: cs) : isWhitespace c = false := by
  obtain ⟨rest, hrest⟩ := List.rdropWhile_prefix isWhitespace (t.dropWhile isWhitespace)
  change trim t ++ rest = _ at hrest
  rw [h, List.cons_append] at hrest
  have hne : t.dropWhile isWhitespace ≠ [] := by simp [← hrest]
  have hhead := List.head_dropWhile_not isWhitespace hne
  simpa [← hrest] using hhead

/-! ## Splitting at a separator -/

/-- Splitting an append: the last part of the one and the first part of the
other are one part. -/
theorem splitOnP_append (p : α → Bool) (xs ys : List α) :
    ∃ init last head tail, xs.splitOnP p = init ++ [last] ∧ ys.splitOnP p = head :: tail ∧
      (xs ++ ys).splitOnP p = init ++ (last ++ head) :: tail := by
  induction xs with
  | nil =>
      cases hy : ys.splitOnP p with
      | nil => exact absurd hy (List.splitOnP_ne_nil p ys)
      | cons head tail => exact ⟨[], [], head, tail, by simp, rfl, by simpa using hy⟩
  | cons x xs ih =>
      obtain ⟨init, last, head, tail, hxs, hys, hboth⟩ := ih
      by_cases hp : p x = true
      · refine ⟨[] :: init, last, head, tail, ?_, hys, ?_⟩
        · rw [List.splitOnP_cons_eq_if_modifyHead, if_pos hp, hxs]; rfl
        · rw [List.cons_append, List.splitOnP_cons_eq_if_modifyHead, if_pos hp, hboth]; rfl
      · cases init with
        | nil =>
            refine ⟨[], x :: last, head, tail, ?_, hys, ?_⟩
            · rw [List.splitOnP_cons_eq_if_modifyHead, if_neg hp, hxs]; rfl
            · rw [List.cons_append, List.splitOnP_cons_eq_if_modifyHead, if_neg hp, hboth]; rfl
        | cons s init =>
            refine ⟨(x :: s) :: init, last, head, tail, ?_, hys, ?_⟩
            · rw [List.splitOnP_cons_eq_if_modifyHead, if_neg hp, hxs]; rfl
            · rw [List.cons_append, List.splitOnP_cons_eq_if_modifyHead, if_neg hp, hboth]; rfl

/-- No part has a separator in it. -/
theorem not_of_mem_splitOnP {p : α → Bool} {xs part : List α} (h : part ∈ xs.splitOnP p) :
    ∀ x ∈ part, p x = false := by
  induction xs generalizing part with
  | nil =>
      rw [List.splitOnP_nil, List.mem_singleton] at h
      simp [h]
  | cons x xs ih =>
      rw [List.splitOnP_cons_eq_if_modifyHead] at h
      split at h
      · rcases List.mem_cons.mp h with rfl | h
        · simp
        · exact ih h
      · next hx =>
          cases hs : xs.splitOnP p with
          | nil => exact absurd hs (List.splitOnP_ne_nil p xs)
          | cons head tail =>
              rw [hs, List.modifyHead_cons] at h
              rcases List.mem_cons.mp h with rfl | h
              · intro y hy
                rcases List.mem_cons.mp hy with rfl | hy
                · simpa using hx
                · exact ih (hs ▸ List.mem_cons_self) y hy
              · exact ih (hs ▸ List.mem_cons_of_mem head h)

/-- The last part is what stands behind the last separator. -/
theorem getLast?_splitOnP (p : α → Bool) (xs : List α) :
    (xs.splitOnP p).getLast? = some (xs.rtakeWhile (!p ·)) := by
  induction xs using List.reverseRecOn with
  | nil => rfl
  | append_singleton xs x ih =>
      obtain ⟨init, last, head, tail, hxs, hx, hboth⟩ := splitOnP_append p xs [x]
      have hlast : last = xs.rtakeWhile (!p ·) := by simpa [hxs] using ih
      rw [hboth, List.rtakeWhile_concat]
      by_cases hp : p x = true
      · obtain ⟨rfl, rfl⟩ : [] = head ∧ [[]] = tail := by
          simpa [List.splitOnP_cons_eq_if_modifyHead, hp] using hx
        simp [hp]
      · obtain ⟨rfl, rfl⟩ : [x] = head ∧ [] = tail := by
          simpa [List.splitOnP_cons_eq_if_modifyHead, hp] using hx
        simp [hp, hlast]

/-- A narrower end of an end is the narrower end. -/
theorem rtakeWhile_rtakeWhile {p q : α → Bool} (h : ∀ x, q x = true → p x = true) (xs : List α) :
    (xs.rtakeWhile p).rtakeWhile q = xs.rtakeWhile q := by
  rw [List.rtakeWhile, List.rtakeWhile, List.rtakeWhile, List.reverse_reverse,
    List.takeWhile_takeWhile]
  congr 2
  funext x
  rw [Bool.eq_iff_iff, decide_eq_true_iff]
  exact and_iff_left_of_imp (h x)

/-- What is behind the last element that fails. -/
theorem rtakeWhile_append_cons {p : α → Bool} {xs ys : List α} {x : α} (hx : p x = false)
    (hys : ∀ y ∈ ys, p y = true) : (xs ++ x :: ys).rtakeWhile p = ys := by
  have hrev : ∀ y ∈ ys.reverse, p y = true := fun y hy => hys y (List.mem_reverse.mp hy)
  rw [List.rtakeWhile, List.reverse_append, List.reverse_cons, List.append_assoc,
    List.takeWhile_append_of_pos hrev]
  simp [hx]

/-! ## Letters and numbers -/

/-- `to_ascii_uppercase`. -/
def toAsciiUppercase (t : Text) : Text := t.map Char.toUpper

/-- `to_ascii_lowercase`. -/
def toAsciiLowercase (t : Text) : Text := t.map Char.toLower

/-- Letters are no white space. -/
theorem isWhitespace_of_isAlpha {c : Char} (h : c.isAlpha = true) : isWhitespace c = false := by
  have hc : 65 ≤ c.toNat ∧ c.toNat ≤ 122 := by
    simp only [Char.isAlpha, Char.isUpper, Char.isLower, Bool.or_eq_true, Bool.and_eq_true,
      decide_eq_true_eq, UInt32.le_iff_toNat_le, ge_iff_le] at h
    change (65 ≤ c.toNat ∧ c.toNat ≤ 90) ∨ (97 ≤ c.toNat ∧ c.toNat ≤ 122) at h
    omega
  simp only [isWhitespace]
  grind

/-- Upper case makes no white space, and takes none away. -/
theorem isWhitespace_toUpper (c : Char) : isWhitespace c.toUpper = isWhitespace c := by
  by_cases hl : c.isLower = true
  · have hc : c.isAlpha = true := by simp [Char.isAlpha, hl]
    rw [isWhitespace_of_isAlpha hc, isWhitespace_of_isAlpha (by simpa using hc)]
  · rw [Char.toUpper_eq_of_not_isLower hl]

/-- A digit has no case. -/
theorem toLower_of_isDigit {c : Char} (h : c.isDigit = true) : c.toLower = c := by
  refine Char.toLower_eq_of_not_isUpper ?_
  simp only [Char.isDigit, Char.isUpper, Bool.and_eq_true, decide_eq_true_eq,
    UInt32.le_iff_toNat_le, ge_iff_le] at h ⊢
  change ¬ (65 ≤ c.toNat ∧ _)
  have hc : c.toNat ≤ 57 := h.2
  omega

/-- Lower case makes no digits. -/
theorem isDigit_toLower (c : Char) : c.toLower.isDigit = c.isDigit := by
  by_cases hu : c.isUpper = true
  · have hne {d : Char} (hd : d.isAlpha = true) : d.isDigit = false := by
      simp only [Char.isAlpha, Char.isUpper, Char.isLower, Char.isDigit, Bool.or_eq_true,
        Bool.and_eq_true, decide_eq_true_eq, UInt32.le_iff_toNat_le, ge_iff_le] at hd ⊢
      change (65 ≤ d.toNat ∧ _) ∨ (97 ≤ d.toNat ∧ _) at hd
      have hlarge : ¬ d.toNat ≤ 57 := by omega
      simp only [Bool.and_eq_false_iff, decide_eq_false_iff_not]
      exact Or.inr hlarge
    have hc : c.isAlpha = true := by simp [Char.isAlpha, hu]
    rw [hne hc, hne (by simpa using hc)]
  · rw [Char.toLower_eq_of_not_isUpper hu]

/-- The digits a text ends in have no case. -/
theorem rtakeWhile_isDigit_toAsciiLowercase (t : Text) :
    (toAsciiLowercase t).rtakeWhile Char.isDigit = t.rtakeWhile Char.isDigit := by
  have hdigit : Char.isDigit ∘ Char.toLower = Char.isDigit := funext isDigit_toLower
  have hmap : (t.reverse.takeWhile Char.isDigit).map Char.toLower =
      t.reverse.takeWhile Char.isDigit := by
    conv_rhs => rw [← List.map_id (t.reverse.takeWhile Char.isDigit)]
    exact List.map_congr_left fun c hc => toLower_of_isDigit (List.mem_takeWhile_imp hc)
  rw [toAsciiLowercase, List.rtakeWhile, List.rtakeWhile, ← List.map_reverse, List.takeWhile_map,
    hdigit, hmap]

/-- `str::parse::<u8>`: digits, with a plus sign or without, up to 255. -/
def parseU8 (t : Text) : Option UInt8 :=
  let digits := match t with
    | '+' :: rest => rest
    | _ => t
  if digits = [] ∨ !digits.all Char.isDigit then
    none
  else
    let n := digits.foldl (fun n c => 10 * n + (c.toNat - '0'.toNat)) 0
    if n < 256 then some (UInt8.ofNat n) else none

/-- The number some digits stand for. -/
def decimal (digits : Text) : Nat := digits.foldl (fun n c => 10 * n + (c.toNat - '0'.toNat)) 0

/-- Digits are read as their number, if it is small enough. -/
theorem parseU8_of_isDigit {t : Text} (hne : t ≠ []) (h : ∀ c ∈ t, c.isDigit = true) :
    parseU8 t = if decimal t < 256 then some (UInt8.ofNat (decimal t)) else none := by
  have hall : t.all Char.isDigit = true := List.all_eq_true.mpr h
  have hsign (rest : Text) : t ≠ '+' :: rest := fun ht =>
    absurd (h '+' (ht ▸ List.mem_cons_self)) (by decide)
  unfold parseU8
  split
  · next rest => exact absurd rfl (hsign rest)
  · rw [if_neg (by simp [hne, hall])]
    rfl

/-- What parses is digits, possibly behind a plus sign. -/
theorem parseU8_eq_some {t : Text} {n : UInt8} (h : parseU8 t = some n) :
    ∃ digits, (t = digits ∨ t = '+' :: digits) ∧ digits ≠ [] ∧
      (∀ c ∈ digits, c.isDigit = true) ∧ decimal digits = n.toNat := by
  have hdigits (digits : Text)
      (hd : (if digits = [] ∨ !digits.all Char.isDigit then none
        else if decimal digits < 256 then some (UInt8.ofNat (decimal digits)) else none) = some n) :
      digits ≠ [] ∧ (∀ c ∈ digits, c.isDigit = true) ∧ decimal digits = n.toNat := by
    split at hd
    · cases hd
    · next hok =>
        simp only [not_or, Bool.not_eq_true, Bool.not_eq_false', List.all_eq_true] at hok
        split at hd
        · next hlt =>
            refine ⟨hok.1, hok.2, ?_⟩
            rw [← Option.some.inj hd, UInt8.toNat_ofNat_of_lt' hlt]
        · cases hd
  unfold parseU8 at h
  split at h
  · next rest => exact ⟨rest, Or.inr rfl, hdigits rest h⟩
  · exact ⟨t, Or.inl rfl, hdigits t h⟩

def natText (n : Nat) : Text := Nat.toDigits 10 n

def intText : Int → Text
  | .ofNat n => natText n
  | .negSucc n => '-' :: natText (n + 1)

/-- No two numbers are written alike. -/
theorem natText_injective : Function.Injective natText := by
  intro m n h
  rw [← @Nat.ofDigitChars_ten_toDigits m, ← @Nat.ofDigitChars_ten_toDigits n]
  exact congrArg (Nat.ofDigitChars 10 · 0) h

/-- Nor are two integers. -/
theorem intText_injective : Function.Injective intText := by
  have hminus (n : Nat) (rest : Text) : natText n ≠ '-' :: rest := by
    intro h
    have hdigit := Nat.isDigit_of_mem_toDigits (by decide) (by decide)
      (h ▸ List.mem_cons_self : '-' ∈ natText n)
    exact absurd hdigit (by decide)
  intro i j h
  cases i with
  | ofNat m =>
      cases j with
      | ofNat n => exact congrArg Int.ofNat (natText_injective h)
      | negSucc n => exact absurd h (hminus m _)
  | negSucc m =>
      cases j with
      | ofNat n => exact absurd h.symm (hminus n _)
      | negSucc n =>
          have := natText_injective (List.cons.inj h).2
          exact congrArg Int.negSucc (by omega)

/-- No integer is written with an underscore. -/
theorem underscore_notMem_intText (i : Int) : '_' ∉ intText i := by
  cases i with
  | ofNat n => exact Nat.underscore_not_in_toDigits
  | negSucc n =>
      intro h
      cases List.mem_cons.mp h with
      | inl h => exact absurd h (by decide)
      | inr h => exact Nat.underscore_not_in_toDigits h
/-- `str::as_bytes`. -/
def asBytes (t : Text) : List UInt8 := t.flatMap String.utf8EncodeChar

/-! ## Lossy UTF-8 -/

/-- U+FFFD, which stands for each maximal invalid part of the input. -/
def replacement : Char := '\uFFFD'

/-- Which second byte a lead byte allows: the continuation bytes, without
those that would make the encoding overlong, a surrogate or too large. -/
inductive Continuation where
  | any
  | from_a0
  | to_9f
  | from_90
  | to_8f
deriving DecidableEq, Repr

def isContinuation (b : UInt8) : Bool := 0x80 ≤ b && b ≤ 0xBF

def Continuation.admits : Continuation → UInt8 → Bool
  | any, b => isContinuation b
  | from_a0, b => isContinuation b && 0xA0 ≤ b
  | to_9f, b => isContinuation b && b ≤ 0x9F
  | from_90, b => isContinuation b && 0x90 ≤ b
  | to_8f, b => isContinuation b && b ≤ 0x8F

/-- The decoder between two bytes: at a character boundary, or with `needed`
more bytes to come behind the `next` one, the code point's leading bits being
`bits`. -/
inductive Decoder where
  | start
  | within (needed : Nat) (next : Continuation) (bits : Nat)
deriving DecidableEq, Repr

namespace Decoder

/-- A byte at a character boundary. -/
def first (b : UInt8) : Decoder × Text :=
  if b < 0x80 then (start, [Char.ofNat b.toNat])
  else if 0xC2 ≤ b && b ≤ 0xDF then (within 0 .any (b.toNat - 0xC0), [])
  else if b == 0xE0 then (within 1 .from_a0 0, [])
  else if b == 0xED then (within 1 .to_9f 0xD, [])
  else if 0xE1 ≤ b && b ≤ 0xEF then (within 1 .any (b.toNat - 0xE0), [])
  else if b == 0xF0 then (within 2 .from_90 0, [])
  else if 0xF1 ≤ b && b ≤ 0xF3 then (within 2 .any (b.toNat - 0xF0), [])
  else if b == 0xF4 then (within 2 .to_8f 4, [])
  else (start, [replacement])

/-- One byte: the state it leaves and the characters it completes.  A byte
that does not continue a character ends it, and is read afresh. -/
def feed : Decoder → UInt8 → Decoder × Text
  | start, b => first b
  | within needed next bits, b =>
      if next.admits b then
        let bits := bits * 64 + (b.toNat - 0x80)
        match needed with
        | 0 => (start, [Char.ofNat bits])
        | needed + 1 => (within needed .any bits, [])
      else
        ((first b).1, replacement :: (first b).2)

/-- The end of the input. -/
def flush : Decoder → Text
  | start => []
  | within _ _ _ => [replacement]

/-- What the bytes complete. -/
def run : Decoder → List UInt8 → Decoder × Text
  | d, [] => (d, [])
  | d, b :: bs => ((run (d.feed b).1 bs).1, (d.feed b).2 ++ (run (d.feed b).1 bs).2)

def decode (d : Decoder) (bytes : List UInt8) : Text :=
  (d.run bytes).2 ++ (d.run bytes).1.flush

@[simp] theorem decode_nil (d : Decoder) : d.decode [] = d.flush := rfl

/-- The decoder takes one byte after another. -/
theorem decode_cons (d : Decoder) (b : UInt8) (bs : List UInt8) :
    d.decode (b :: bs) = (d.feed b).2 ++ (d.feed b).1.decode bs := by
  simp [decode, run]

/-- And goes on where it stopped. -/
theorem decode_append (d : Decoder) (xs ys : List UInt8) :
    d.decode (xs ++ ys) = (d.run xs).2 ++ (d.run xs).1.decode ys := by
  induction xs generalizing d with
  | nil => rfl
  | cons b xs ih => rw [List.cons_append, decode_cons, ih, run, List.append_assoc]

end Decoder

/-- `String::from_utf8_lossy`. -/
def fromUtf8Lossy (bytes : List UInt8) : Text := Decoder.start.decode bytes

/-- A cut at a character boundary. -/
theorem fromUtf8Lossy_append_of_start {xs : List UInt8} (h : (Decoder.start.run xs).1 = .start)
    (ys : List UInt8) : fromUtf8Lossy (xs ++ ys) = fromUtf8Lossy xs ++ fromUtf8Lossy ys := by
  have hxs : fromUtf8Lossy xs = (Decoder.start.run xs).2 := by
    rw [fromUtf8Lossy, Decoder.decode, h, Decoder.flush, List.append_nil]
  rw [hxs, fromUtf8Lossy, Decoder.decode_append, h, fromUtf8Lossy]

/-- What may continue a character is a continuation byte. -/
theorem Continuation.isContinuation_of_admits {k : Continuation} {b : UInt8}
    (h : k.admits b = true) : isContinuation b = true := by
  cases k <;> simp_all [Continuation.admits]

/-- A continuation byte begins no character. -/
theorem Decoder.first_of_isContinuation {b : UInt8} (h : isContinuation b = true) :
    Decoder.first b = (.start, [replacement]) := by
  revert b
  decide +kernel

/-- A cut before a byte that does not continue a character. -/
theorem fromUtf8Lossy_append_of_not_isContinuation {ys : List UInt8}
    (h : ∀ b bs, ys = b :: bs → isContinuation b = false) (xs : List UInt8) :
    fromUtf8Lossy (xs ++ ys) = fromUtf8Lossy xs ++ fromUtf8Lossy ys := by
  have hxs : fromUtf8Lossy xs = (Decoder.start.run xs).2 ++ (Decoder.start.run xs).1.flush := rfl
  rw [hxs, fromUtf8Lossy, Decoder.decode_append, List.append_assoc]
  congr 1
  cases (Decoder.start.run xs).1 with
  | start => rfl
  | within needed next bits =>
      cases ys with
      | nil => rfl
      | cons b bs =>
          have hadm : ¬ next.admits b = true := fun hadm => by
            simpa [h b bs rfl] using Continuation.isContinuation_of_admits hadm
          rw [Decoder.decode_cons, Decoder.feed, if_neg hadm, fromUtf8Lossy, Decoder.decode_cons]
          rfl

/-- The least a continuation byte adds to the bits. -/
def Continuation.least : Continuation → Nat
  | from_a0 => 0x20
  | from_90 => 0x10
  | _ => 0

/-- No admitted byte is below the least one. -/
theorem Continuation.least_le {k : Continuation} {b : UInt8} (h : k.admits b = true) :
    k.least ≤ b.toNat - 0x80 := by
  cases k <;> revert b <;> decide +kernel

/-- The character a decoder is in will not be an ASCII one. -/
def Decoder.Wide : Decoder → Prop
  | start => True
  | within needed next bits => 0x80 ≤ (bits * 64 + next.least) * 64 ^ needed

instance (d : Decoder) : Decidable d.Wide :=
  match d with
  | .start => inferInstanceAs (Decidable True)
  | .within needed next bits =>
      inferInstanceAs (Decidable (0x80 ≤ (bits * 64 + next.least) * 64 ^ needed))

/-- A first byte leaves a decoder that makes no ASCII. -/
theorem Decoder.wide_first (b : UInt8) : (Decoder.first b).1.Wide := by
  revert b
  decide +kernel

/-- One byte more keeps it so. -/
theorem Decoder.Wide.feed {d : Decoder} (h : d.Wide) (b : UInt8) : (d.feed b).1.Wide := by
  cases d with
  | start => exact Decoder.wide_first b
  | within needed next bits =>
      rw [Decoder.feed]
      split
      · next hadm =>
          have hleast := Continuation.least_le hadm
          cases needed with
          | zero => trivial
          | succ needed =>
              show 0x80 ≤ ((bits * 64 + (b.toNat - 0x80)) * 64 + 0) * 64 ^ needed
              calc 0x80 ≤ (bits * 64 + next.least) * 64 ^ (needed + 1) := h
                _ ≤ (bits * 64 + (b.toNat - 0x80)) * 64 ^ (needed + 1) := by gcongr
                _ = ((bits * 64 + (b.toNat - 0x80)) * 64 + 0) * 64 ^ needed := by ring
      · exact Decoder.wide_first b

/-- So do any number of them. -/
theorem Decoder.Wide.run {d : Decoder} (h : d.Wide) (bytes : List UInt8) : (d.run bytes).1.Wide := by
  induction bytes generalizing d with
  | nil => exact h
  | cons b bs ih => exact ih (h.feed b)

/-- A character from 0x80 on is not ASCII. -/
theorem ofNat_ne_of_ascii {n : Nat} {a : Char} (hn : 0x80 ≤ n) (ha : 0 < a.toNat ∧ a.toNat < 0x80) :
    Char.ofNat n ≠ a := by
  rintro rfl
  by_cases hv : n.isValidChar
  · have hval : (Char.ofNat n).toNat = n := by simp [Char.toNat_ofNat, hv]
    omega
  · have hval : (Char.ofNat n).toNat = 0 := by simp [Char.toNat_ofNat, hv]
    omega

/-- A decoder inside a character, fed what follows a cut: one character, not
an ASCII one, for the rest of it, where reading afresh gives a replacement for
each byte. -/
theorem Decoder.decode_within {needed : Nat} {next : Continuation} {bits : Nat}
    (h : (Decoder.within needed next bits).Wide) (bytes : List UInt8) {a : Char}
    (ha : 0 < a.toNat ∧ a.toNat < 0x80) :
    ∃ c k rest, c ≠ a ∧ (Decoder.within needed next bits).decode bytes = c :: rest ∧
      fromUtf8Lossy bytes = List.replicate k replacement ++ rest := by
  have hrep : replacement ≠ a := by
    rintro rfl
    exact absurd ha.2 (by decide)
  induction bytes generalizing needed next bits with
  | nil => exact ⟨replacement, 0, [], hrep, rfl, rfl⟩
  | cons b bs ih =>
      by_cases hadm : next.admits b = true
      · have hfirst := Decoder.first_of_isContinuation (Continuation.isContinuation_of_admits hadm)
        have hlossy : fromUtf8Lossy (b :: bs) = replacement :: fromUtf8Lossy bs := by
          rw [fromUtf8Lossy, Decoder.decode_cons, Decoder.feed, hfirst]
          rfl
        have hfeed := h.feed b
        cases needed with
        | zero =>
            have hwide : 0x80 ≤ bits * 64 + (b.toNat - 0x80) := by
              have hleast := Continuation.least_le hadm
              have h0 : 0x80 ≤ (bits * 64 + next.least) * 64 ^ 0 := h
              omega
            refine ⟨Char.ofNat (bits * 64 + (b.toNat - 0x80)), 1, fromUtf8Lossy bs,
              ofNat_ne_of_ascii hwide ha, ?_, hlossy⟩
            rw [Decoder.decode_cons, Decoder.feed, if_pos hadm]
            rfl
        | succ needed =>
            rw [Decoder.feed, if_pos hadm] at hfeed
            obtain ⟨c, k, rest, hc, hdec, hrest⟩ := ih hfeed
            refine ⟨c, k + 1, rest, hc, ?_, ?_⟩
            · rw [Decoder.decode_cons, Decoder.feed, if_pos hadm]
              exact hdec
            · rw [hlossy, hrest]
              rfl
      · refine ⟨replacement, 0, fromUtf8Lossy (b :: bs), hrep, ?_, rfl⟩
        rw [Decoder.decode_cons, Decoder.feed, if_neg hadm, fromUtf8Lossy, Decoder.decode_cons]
        rfl

/-- **A cut inside a character**: the two readings of what follows. -/
theorem fromUtf8Lossy_cut {xs : List UInt8} (h : (Decoder.start.run xs).1 ≠ .start)
    (ys : List UInt8) {a : Char} (ha : 0 < a.toNat ∧ a.toNat < 0x80) :
    ∃ out c k rest, c ≠ a ∧ fromUtf8Lossy xs = out ++ [replacement] ∧
      fromUtf8Lossy ys = List.replicate k replacement ++ rest ∧
      fromUtf8Lossy (xs ++ ys) = out ++ c :: rest := by
  have hstart : Decoder.start.Wide := trivial
  have hwide := hstart.run xs
  cases hd : (Decoder.start.run xs).1 with
  | start => exact absurd hd h
  | within needed next bits =>
      rw [hd] at hwide
      obtain ⟨c, k, rest, hc, hdec, hrest⟩ := Decoder.decode_within hwide ys ha
      refine ⟨(Decoder.start.run xs).2, c, k, rest, hc, ?_, hrest, ?_⟩
      · rw [fromUtf8Lossy, Decoder.decode, hd, Decoder.flush]
      · rw [fromUtf8Lossy, Decoder.decode_append, hd, hdec]

/-! ## Round trip -/

namespace Decoder

/-- A byte that continues a character. -/
theorem feed_continuation {next : Continuation} {n : Nat} (h : n < 64)
    (hnext : next.admits (UInt8.ofNat (n + 0x80)) = true) (needed bits : Nat) :
    (within needed next bits).feed (UInt8.ofNat (n + 0x80)) =
      match needed with
      | 0 => (start, [Char.ofNat (bits * 64 + n)])
      | needed + 1 => (within needed .any (bits * 64 + n), []) := by
  have hn : (UInt8.ofNat (n + 0x80)).toNat - 0x80 = n := by
    rw [UInt8.toNat_ofNat']
    omega
  simp only [feed, hnext, if_true, hn]

/-- Six bits are a continuation byte. -/
theorem admits_any {n : Nat} (h : n < 64) :
    Continuation.any.admits (UInt8.ofNat (n + 0x80)) = true := by
  revert n
  decide +kernel

/-- The lead byte of two. -/
theorem first_two {n : Nat} (h : n < 32) (hlow : 2 ≤ n) :
    first (UInt8.ofNat (n + 0xC0)) = (within 0 .any n, []) := by
  revert n
  decide +kernel

/-- The lead byte of three, and the second. -/
theorem first_three {n m : Nat} (hn : n < 16) (hm : m < 64) (hlow : n = 0 → 32 ≤ m)
    (hsurrogate : n = 13 → m < 32) :
    ∃ next, first (UInt8.ofNat (n + 0xE0)) = (within 1 next n, []) ∧
      next.admits (UInt8.ofNat (m + 0x80)) = true := by
  have hother : ∀ n < 16, n ≠ 0 → n ≠ 13 →
      first (UInt8.ofNat (n + 0xE0)) = (within 1 .any n, []) := by
    decide +kernel
  have hfrom : ∀ m < 64, 32 ≤ m → Continuation.from_a0.admits (UInt8.ofNat (m + 0x80)) = true := by
    decide +kernel
  have hto : ∀ m < 32, Continuation.to_9f.admits (UInt8.ofNat (m + 0x80)) = true := by
    decide +kernel
  by_cases h0 : n = 0
  · exact ⟨.from_a0, by subst h0; rfl, hfrom m hm (hlow h0)⟩
  by_cases h13 : n = 13
  · exact ⟨.to_9f, by subst h13; rfl, hto m (hsurrogate h13)⟩
  exact ⟨.any, hother n hn h0 h13, admits_any hm⟩

/-- The lead byte of four, and the second. -/
theorem first_four {n m : Nat} (hn : n < 5) (hm : m < 64) (hlow : n = 0 → 16 ≤ m)
    (hhigh : n = 4 → m < 16) :
    ∃ next, first (UInt8.ofNat (n + 0xF0)) = (within 2 next n, []) ∧
      next.admits (UInt8.ofNat (m + 0x80)) = true := by
  have hother : ∀ n < 5, n ≠ 0 → n ≠ 4 →
      first (UInt8.ofNat (n + 0xF0)) = (within 2 .any n, []) := by
    decide +kernel
  have hfrom : ∀ m < 64, 16 ≤ m → Continuation.from_90.admits (UInt8.ofNat (m + 0x80)) = true := by
    decide +kernel
  have hto : ∀ m < 16, Continuation.to_8f.admits (UInt8.ofNat (m + 0x80)) = true := by
    decide +kernel
  by_cases h0 : n = 0
  · exact ⟨.from_90, by subst h0; rfl, hfrom m hm (hlow h0)⟩
  by_cases h4 : n = 4
  · exact ⟨.to_8f, by subst h4; rfl, hto m (hhigh h4)⟩
  exact ⟨.any, hother n hn h0 h4, admits_any hm⟩

/-- A character, fed byte by byte. -/
theorem run_utf8EncodeChar (c : Char) : start.run (String.utf8EncodeChar c) = (start, [c]) := by
  have hvalid : c.val.toNat < 0xD800 ∨ 0xDFFF < c.val.toNat ∧ c.val.toNat < 0x110000 := c.valid
  have hofNat : Char.ofNat c.val.toNat = c := Char.ofNat_toNat c
  have hlast := admits_any (Nat.mod_lt c.val.toNat (show 0 < 64 by decide))
  simp only [String.utf8EncodeChar]
  generalize c.val.toNat = v at *
  split
  · have hv : (UInt8.ofNat v).toNat = v := by
      rw [UInt8.toNat_ofNat']
      omega
    have hascii : UInt8.ofNat v < 0x80 := by
      rw [UInt8.lt_iff_toNat_lt, hv]
      show v < 128
      omega
    simp only [run, feed, first, hascii, if_true, hv, hofNat, List.append_nil]
  split
  · have hbits : v / 64 % 32 * 64 + v % 64 = v := by omega
    rw [run, run, feed, first_two (by omega) (by omega), feed_continuation (by omega) hlast, hbits, hofNat]
    rfl
  split
  · obtain ⟨next, hfirst, hnext⟩ := @first_three (v / 4096 % 16) (v / 64 % 64) (by omega) (by omega)
      (by omega) (by omega)
    have hbits : (v / 4096 % 16 * 64 + v / 64 % 64) * 64 + v % 64 = v := by omega
    rw [run, run, run, feed, hfirst]
    simp only [feed_continuation (Nat.mod_lt _ (by decide)) hnext]
    rw [feed_continuation (by omega) hlast, hbits, hofNat]
    rfl
  · obtain ⟨next, hfirst, hnext⟩ := @first_four (v / 262144 % 8) (v / 4096 % 64) (by omega) (by omega)
      (by omega) (by omega)
    have hthird := admits_any (Nat.mod_lt (v / 64) (show 0 < 64 by decide))
    have hbits : ((v / 262144 % 8 * 64 + v / 4096 % 64) * 64 + v / 64 % 64) * 64 + v % 64 = v := by
      omega
    rw [run, run, run, run, feed, hfirst]
    simp only [feed_continuation (Nat.mod_lt _ (by decide)) hnext,
      feed_continuation (Nat.mod_lt _ (by decide)) hthird]
    rw [feed_continuation (by omega) hlast, hbits, hofNat]
    rfl

end Decoder

/-- **Round trip**: text that was encoded is decoded to itself. -/
theorem fromUtf8Lossy_asBytes (t : Text) : fromUtf8Lossy (asBytes t) = t := by
  induction t with
  | nil => rfl
  | cons c t ih =>
      have hc := Decoder.run_utf8EncodeChar c
      have hone : fromUtf8Lossy (String.utf8EncodeChar c) = [c] := by
        rw [fromUtf8Lossy, Decoder.decode, hc]
        rfl
      rw [asBytes, List.flatMap_cons, fromUtf8Lossy_append_of_start (by rw [hc]), hone]
      exact congrArg (List.cons c) ih

/-- No two texts have the same bytes. -/
theorem asBytes_injective : Function.Injective asBytes :=
  Function.LeftInverse.injective fromUtf8Lossy_asBytes

end TestGear
