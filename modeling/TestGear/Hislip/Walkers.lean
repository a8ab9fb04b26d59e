import TestGear.Hislip.Walk

/-!
# TestGear.Hislip.Walkers

The two header walkers as one parser.  `Framing` says what a buffer holds, with
neither walker's arithmetic: headers one behind the other, each behind the
payload of the one before, up to the first place where none stands or a payload
is not all there.  Every buffer has such a framing (`exists_framing`), and as
long as no length in it wraps both walkers report it (`Framing.headersFrom_eq`,
`Framing.scanFrom_eq`).

* `headers_scan_agree` — the same headers, at the sums of the sizes before
  them, and `scan`'s leftover is what the last message lacks.
-/

namespace TestGear.Hislip

/-! ## What a buffer holds -/

/-- The bytes a message takes up, by its header. -/
def Header.extent (h : Header) : Nat := headerLen + h.payloadLen.toNat

/-- A short payload wraps neither walker's sum. -/
theorem Header.extent_mod {h : Header} (hshort : h.payloadLen.toNat < 2 ^ 63) :
    (headerLen + h.payloadLen.toNat) % 2 ^ 64 = h.extent :=
  Nat.mod_eq_of_lt (by simp only [headerLen]; omega)

theorem Header.add_extent_mod {h : Header} (hshort : h.payloadLen.toNat < 2 ^ 63)
    (hpos : pos < 2 ^ 62) : (pos + headerLen + h.payloadLen.toNat) % 2 ^ 64 = pos + h.extent := by
  rw [Header.extent, Nat.mod_eq_of_lt (by simp only [headerLen]; omega), Nat.add_assoc]

/-- The places a buffer's messages lead to: its start, and the place behind
every whole message that starts at such a place. -/
inductive Reaches (buf : List UInt8) : Nat → Prop
  | start : Reaches buf 0
  | behind {pos : Nat} (h : Reaches buf pos) (hs : Stands buf pos)
      (hfit : pos + (readHeader buf pos).extent ≤ buf.length) :
      Reaches buf (pos + (readHeader buf pos).extent)

/-- `Framing buf pos found leftover`: from `pos` on the buffer holds the headers
`found`, and the last of their messages lacks `leftover` bytes. -/
inductive Framing (buf : List UInt8) : Nat → List (Nat × Header) → Nat → Prop
  | stop {pos : Nat} (hs : ¬ Stands buf pos) : Framing buf pos [] 0
  | arriving {pos : Nat} (hs : Stands buf pos)
      (hlong : buf.length < pos + (readHeader buf pos).extent) :
      Framing buf pos [(pos, readHeader buf pos)] (pos + (readHeader buf pos).extent - buf.length)
  | whole {pos leftover : Nat} {found : List (Nat × Header)} (hs : Stands buf pos)
      (hfit : pos + (readHeader buf pos).extent ≤ buf.length)
      (h : Framing buf (pos + (readHeader buf pos).extent) found leftover) :
      Framing buf pos ((pos, readHeader buf pos) :: found) leftover

theorem exists_framing (buf : List UInt8) (pos : Nat) :
    ∃ found leftover, Framing buf pos found leftover := by
  induction hn : buf.length - pos using Nat.strong_induction_on generalizing pos with
  | _ n ih =>
      by_cases hs : Stands buf pos
      swap
      · exact ⟨[], 0, .stop hs⟩
      by_cases hlong : buf.length < pos + (readHeader buf pos).extent
      · exact ⟨_, _, .arriving hs hlong⟩
      · have hfit := hs.1
        have hless : buf.length - (pos + (readHeader buf pos).extent) < n := by
          simp only [Header.extent, headerLen] at *
          omega
        obtain ⟨found, leftover, h⟩ := ih _ hless _ rfl
        exact ⟨_, leftover, .whole hs (Nat.le_of_not_lt hlong) h⟩

namespace Framing

variable {buf : List UInt8} {found : List (Nat × Header)}

/-- Every header found stands at a place the messages lead to. -/
theorem reaches (h : Framing buf pos found leftover) (hr : Reaches buf pos) {x : Nat × Header}
    (hx : x ∈ found) : Reaches buf x.1 ∧ Stands buf x.1 ∧ x.2 = readHeader buf x.1 := by
  induction h with
  | stop hs => cases hx
  | arriving hs hlong =>
      obtain rfl := List.mem_singleton.mp hx
      exact ⟨hr, hs, rfl⟩
  | whole hs hfit h ih =>
      rcases List.mem_cons.mp hx with rfl | hx
      · exact ⟨hr, hs, rfl⟩
      · exact ih (hr.behind hs hfit) hx

/-- Behind every whole message the framing goes on. -/
theorem suffix (h : Framing buf 0 found leftover) (hr : Reaches buf pos) :
    ∃ later, later <:+ found ∧ Framing buf pos later leftover := by
  induction hr with
  | start => exact ⟨found, List.suffix_refl _, h⟩
  | behind hr hs hfit ih =>
      obtain ⟨later, hsuffix, hlater⟩ := ih
      cases hlater with
      | stop hs' => exact absurd hs hs'
      | arriving hs' hlong => omega
      | whole hs' hfit' hrest => exact ⟨_, (List.suffix_cons _ _).trans hsuffix, hrest⟩

/-- Every header the messages lead to is found. -/
theorem mem_of_reaches (h : Framing buf 0 found leftover) (hr : Reaches buf pos)
    (hs : Stands buf pos) : (pos, readHeader buf pos) ∈ found := by
  obtain ⟨later, hsuffix, hlater⟩ := h.suffix hr
  refine hsuffix.subset ?_
  cases hlater with
  | stop hs' => exact absurd hs hs'
  | arriving hs' hlong => exact List.mem_cons_self
  | whole hs' hfit hrest => exact List.mem_cons_self

theorem length_le (h : Framing buf pos found leftover) : headerLen * found.length ≤ buf.length - pos := by
  induction h with
  | stop hs => exact Nat.zero_le _
  | arriving hs hlong =>
      have hfit := hs.1
      rw [List.length_singleton, Nat.mul_one]
      omega
  | whole hs hfit h ih =>
      rw [List.length_cons, Nat.mul_succ]
      simp only [Header.extent] at *
      omega

/-! ## The walkers find it -/

theorem headersFrom_eq (h : Framing buf pos found leftover)
    (hshort : ∀ x ∈ found, x.2.payloadLen.toNat < 2 ^ 63) (hr : found.length < rounds) :
    headersFrom buf rounds pos = some found := by
  induction h generalizing rounds with
  | @stop pos hs =>
      obtain ⟨r, rfl⟩ := Nat.exists_eq_add_one.mpr (Nat.zero_lt_of_lt hr)
      exact headersFrom_of_not_stands hs r
  | @arriving pos hs hlong =>
      obtain ⟨r, rfl⟩ := Nat.exists_eq_add_one.mpr (Nat.zero_lt_of_lt hr)
      have hlt : (readHeader buf pos).payloadLen.toNat < 2 ^ 63 := hshort _ List.mem_cons_self
      have hfit := hs.1
      rw [headersFrom_of_stands hs, Header.extent_mod hlt, if_pos (by omega)]
  | @whole pos leftover found hs hfit h ih =>
      obtain ⟨r, rfl⟩ := Nat.exists_eq_add_one.mpr (Nat.zero_lt_of_lt hr)
      obtain ⟨(hlt : (readHeader buf pos).payloadLen.toNat < 2 ^ 63), hshort⟩ :=
        List.forall_mem_cons.mp hshort
      rw [headersFrom_of_stands hs, Header.extent_mod hlt, if_neg (by omega),
        ih hshort (by simpa using hr), Option.map_some]

theorem scanFrom_eq (hlen : buf.length < 2 ^ 62) (h : Framing buf pos found leftover)
    (hshort : ∀ x ∈ found, x.2.payloadLen.toNat < 2 ^ 63) (hr : found.length < rounds) :
    scanFrom buf rounds pos = some (found.map Prod.snd, leftover) := by
  induction h generalizing rounds with
  | @stop pos hs =>
      obtain ⟨r, rfl⟩ := Nat.exists_eq_add_one.mpr (Nat.zero_lt_of_lt hr)
      exact scanFrom_of_not_stands hs r
  | @arriving pos hs hlong =>
      obtain ⟨r, rfl⟩ := Nat.exists_eq_add_one.mpr (Nat.zero_lt_of_lt hr)
      have hlt : (readHeader buf pos).payloadLen.toNat < 2 ^ 63 := hshort _ List.mem_cons_self
      have hfit := hs.1
      rw [scanFrom_of_stands hs, Header.add_extent_mod hlt (by omega), if_pos hlong, List.map_singleton]
  | @whole pos leftover found hs hfit h ih =>
      obtain ⟨r, rfl⟩ := Nat.exists_eq_add_one.mpr (Nat.zero_lt_of_lt hr)
      obtain ⟨(hlt : (readHeader buf pos).payloadLen.toNat < 2 ^ 63), hshort⟩ :=
        List.forall_mem_cons.mp hshort
      have hstart := hs.1
      rw [scanFrom_of_stands hs, Header.add_extent_mod hlt (by omega), if_neg (by omega),
        ih hshort (by simpa using hr), Option.map_some, List.map_cons]

/-! ## Places and leftover -/

/-- Each header stands behind what the messages before it take up. -/
theorem place (h : Framing buf pos found leftover) {i : Nat} {x : Nat × Header}
    (hx : found[i]? = some x) : x.1 = pos + ((found.take i).map fun y => y.2.extent).sum := by
  induction h generalizing i with
  | stop hs => cases hx
  | arriving hs hlong =>
      cases i with
      | zero =>
          obtain rfl := Option.some.inj hx
          rfl
      | succ i => cases hx
  | whole hs hfit h ih =>
      cases i with
      | zero =>
          obtain rfl := Option.some.inj hx
          rfl
      | succ i =>
          rw [ih hx, List.take_succ_cons, List.map_cons, List.sum_cons, Nat.add_assoc]

theorem le_place (h : Framing buf pos found leftover) {x : Nat × Header} (hx : x ∈ found) :
    pos ≤ x.1 := by
  obtain ⟨i, hi⟩ := List.mem_iff_getElem?.mp hx
  rw [h.place hi]
  exact Nat.le_add_right _ _

/-- No header is reported inside another message. -/
theorem outside (h : Framing buf pos found leftover) {x y : Nat × Header} (hx : x ∈ found)
    (hy : y ∈ found) : y.1 ≤ x.1 ∨ x.1 + x.2.extent ≤ y.1 := by
  induction h with
  | stop hs => cases hx
  | arriving hs hlong =>
      rw [List.mem_singleton.mp hx, List.mem_singleton.mp hy]
      exact .inl (le_refl _)
  | whole hs hfit h ih =>
      rcases List.mem_cons.mp hx with rfl | hx
      · rcases List.mem_cons.mp hy with rfl | hy
        · exact .inl (le_refl _)
        · exact .inr (h.le_place hy)
      · rcases List.mem_cons.mp hy with rfl | hy
        · exact .inl (le_trans (Nat.le_add_right _ _) (h.le_place hx))
        · exact ih hx hy

/-- What is left over is what the last message found lacks. -/
theorem leftover_eq (h : Framing buf pos found leftover) :
    leftover = match found.getLast? with
      | none => 0
      | some x => x.1 + x.2.extent - buf.length := by
  induction h with
  | stop hs => rfl
  | arriving hs hlong => rfl
  | @whole pos leftover found hs hfit h ih =>
      rw [ih, List.getLast?_cons]
      cases found.getLast? with
      | none => exact (Nat.sub_eq_zero_of_le hfit).symm
      | some x => rfl

end Framing

/-- What `scan` and `headers` report of a buffer in which no length wraps:
`found` with its places, and `leftover` bytes that the last message lacks. -/
structure Report (buf : List UInt8) (found : List (Nat × Header)) (leftover : Nat) : Prop where
  headers_eq : headers buf = some found
  scan_eq : scan buf = some (found.map Prod.snd, leftover)
  mem_iff (x : Nat × Header) :
    x ∈ found ↔ Reaches buf x.1 ∧ Stands buf x.1 ∧ x.2 = readHeader buf x.1
  place (i : Nat) (x : Nat × Header) (hx : found[i]? = some x) :
    x.1 = ((found.take i).map fun y => headerLen + y.2.payloadLen.toNat).sum
  outside (x : Nat × Header) (hx : x ∈ found) (byte : Nat) (hlow : x.1 + headerLen ≤ byte)
    (hhigh : byte < x.1 + headerLen + x.2.payloadLen.toNat) : byte ∉ found.map Prod.fst
  leftover_ne_zero_iff : leftover ≠ 0 ↔ ∃ x, found.getLast? = some x ∧
    buf.length < x.1 + headerLen + x.2.payloadLen.toNat
  leftover_eq (x : Nat × Header) (hx : found.getLast? = some x)
    (hlong : buf.length < x.1 + headerLen + x.2.payloadLen.toNat) :
    leftover = x.1 + headerLen + x.2.payloadLen.toNat - buf.length

theorem Framing.report {buf : List UInt8} {found : List (Nat × Header)} (hlen : buf.length < 2 ^ 62)
    (h : Framing buf 0 found leftover) (hshort : ∀ x ∈ found, x.2.payloadLen.toNat < 2 ^ 63) :
    Report buf found leftover := by
  have hrounds : found.length < buf.length + 1 := by
    have hle := h.length_le
    simp only [headerLen] at hle
    omega
  have hleft := h.leftover_eq
  have hassoc (x : Nat × Header) :
      x.1 + x.2.extent = x.1 + headerLen + x.2.payloadLen.toNat := (Nat.add_assoc _ _ _).symm
  exact {
    headers_eq := h.headersFrom_eq hshort hrounds
    scan_eq := h.scanFrom_eq hlen hshort hrounds
    mem_iff x := by
      refine ⟨h.reaches .start, ?_⟩
      rintro ⟨hr, hs, hread⟩
      rw [← Prod.eta x, hread]
      exact h.mem_of_reaches hr hs
    place i x hx := by
      rw [h.place hx, Nat.zero_add]
      rfl
    outside x hx byte hlow hhigh hmem := by
      obtain ⟨y, hy, rfl⟩ := List.mem_map.mp hmem
      rcases h.outside hx hy with hle | hge
      · simp only [headerLen] at hlow
        omega
      · rw [hassoc] at hge
        omega
    leftover_ne_zero_iff := by
      cases hlast : found.getLast? with
      | none =>
          rw [hlast] at hleft
          refine ⟨fun hne => absurd hleft hne, ?_⟩
          rintro ⟨x, hx, -⟩
          cases hx
      | some x =>
          simp only [hlast, hassoc] at hleft
          constructor
          · intro hne
            exact ⟨x, rfl, by omega⟩
          · rintro ⟨_, ⟨⟩, hlong⟩
            omega
    leftover_eq x hx _ := by
      simpa only [hx, hassoc] using hleft }

/-- The headers of a sequence of messages, with their places: one for each. -/
theorem headers_wire (ms : List Message) : headers (wire ms) = some (offsets 0 (ms.map Message.piece)) := by
  have hbytes : pieceBytes (ms.map Message.piece) = wire ms := by
    induction ms with
    | nil => rfl
    | cons m ms ih => rw [List.map_cons, pieceBytes_cons, ih, Message.bytes_piece, wire_cons]
  have hchain : Chain (ms.map Message.piece) := by
    clear hbytes
    induction ms with
    | nil => trivial
    | cons m ms ih => exact ⟨fun _ => m.missing_piece, ih⟩
  have h := headers_chain hchain (trails_nil _)
  rwa [List.append_nil, hbytes] at h

theorem map_snd_offsets (ms : List Message) (pos : Nat) :
    (offsets pos (ms.map Message.piece)).map Prod.snd = ms.map Message.header := by
  induction ms generalizing pos with
  | nil => rfl
  | cons m ms ih =>
      rw [List.map_cons, offsets, List.map_cons, ih]
      rfl

/-- **The two walkers are one parser**: on every buffer in which no header that
the messages lead to has a length of `2^63` or more, and of every sequence of
messages they report each one's header. -/
theorem headers_scan_agree :
    (∀ buf : List UInt8, buf.length < 2 ^ 62 →
      (∀ pos, Reaches buf pos → Stands buf pos → (readHeader buf pos).payloadLen.toNat < 2 ^ 63) →
      ∃ found leftover, Report buf found leftover) ∧
    ∀ ms : List Message, ∃ found, headers (ms.flatMap fun m =>
        message m.messageType m.controlCode m.messageParameter m.payload) = some found ∧
      found.map Prod.snd = ms.map Message.header := by
  refine ⟨fun buf hlen hshort => ?_, fun ms => ⟨_, headers_wire ms, map_snd_offsets ms 0⟩⟩
  obtain ⟨found, leftover, h⟩ := exists_framing buf 0
  refine ⟨found, leftover, h.report hlen fun x hx => ?_⟩
  obtain ⟨hreach, hstands, hread⟩ := h.reaches .start hx
  rw [hread]
  exact hshort x.1 hreach hstands

/-- A whole message and one that lacks a byte of its payload. -/
def cutInPayload : List UInt8 :=
  message msgData 0 22 [1, 2, 3] ++ (message msgDataEnd 1 24 [4, 5]).take 17

theorem headers_scan_agree_cutInPayload :
    cutInPayload.length < 2 ^ 62 ∧ ∃ found leftover, Report cutInPayload found leftover ∧
      found.map Prod.fst = [0, 19] ∧ leftover = 1 := by
  have hlong : cutInPayload.length = 36 := by decide
  have hstart : ∀ pos < 21, Stands cutInPayload pos →
      (readHeader cutInPayload pos).payloadLen.toNat < 2 ^ 63 := by decide
  obtain ⟨found, leftover, h⟩ := headers_scan_agree.1 cutInPayload (by decide) fun pos _ hs => by
    have hfit := hs.1
    rw [hlong, headerLen] at hfit
    exact hstart pos (by omega) hs
  have hheaders : (headers cutInPayload).map (List.map Prod.fst) = some [0, 19] := by decide
  have hscan : (scan cutInPayload).map Prod.snd = some 1 := by decide
  rw [h.headers_eq] at hheaders
  rw [h.scan_eq] at hscan
  exact ⟨by decide, found, leftover, h, Option.some.inj hheaders, Option.some.inj hscan⟩

end TestGear.Hislip
