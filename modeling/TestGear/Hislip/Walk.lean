import TestGear.Hislip.Inject

/-!
# TestGear.Hislip.Walk

When the header loops end.  Both add a payload length from the wire to a
position, and in a release build the sum wraps: a length close to `2^64` sends
the loop back, to where it was or into the header it has just read.

* `headers_eq_none_iff`, `scan_eq_none_iff` — the bound on the rounds cuts no
  loop short that would end;
* `walksEnd_iff` — the loops move on with every round, find no more headers
  than fit, and nothing panics, exactly if no sum wraps at a header that stands
  behind whole messages; or if one does, at a header that is no DataEND, to a
  place behind its own start where nothing comes of it;
* `not_walksEnd_lastLength`, the length `2^64 - 16`.
-/

namespace TestGear.Hislip

/-! ## Rounds -/

/-- Where the loop of `scan` goes on to, if it does. -/
def scanNext (buf : List UInt8) (pos : Nat) : Option Nat :=
  if Stands buf pos then
    let stop := (pos + headerLen + (readHeader buf pos).payloadLen.toNat) % 2 ^ 64
    if buf.length < stop then none else some stop
  else none

/-- Where the loop of `headers` goes on to, if it does. -/
def headersNext (buf : List UInt8) (pos : Nat) : Option Nat :=
  if Stands buf pos then
    let step := (headerLen + (readHeader buf pos).payloadLen.toNat) % 2 ^ 64
    if buf.length - pos < step then none else some (pos + step)
  else none

/-- What a loop finds that goes on to `next`. -/
def walkFrom (buf : List UInt8) (next : Nat → Option Nat) :
    (rounds pos : Nat) → Option (List (Nat × Header))
  | 0, _ => none
  | rounds + 1, pos =>
      if Stands buf pos then
        match next pos with
        | none => some [(pos, readHeader buf pos)]
        | some pos' => (walkFrom buf next rounds pos').map ((pos, readHeader buf pos) :: ·)
      else some []

/-- The loop of `headers` is a walk. -/
theorem headersFrom_eq_walkFrom (buf : List UInt8) (rounds pos : Nat) :
    headersFrom buf rounds pos = walkFrom buf (headersNext buf) rounds pos := by
  induction rounds generalizing pos with
  | zero => rfl
  | succ rounds ih =>
      rw [walkFrom, headersNext]
      by_cases hs : Stands buf pos
      · simp only [headersFrom_of_stands hs, hs, if_true]
        split
        · rfl
        · rw [ih]
      · rw [headersFrom_of_not_stands hs, if_neg hs]

/-- So is that of `scan`, but for the offsets. -/
theorem scanFrom_eq_walkFrom (buf : List UInt8) (rounds pos : Nat) :
    (scanFrom buf rounds pos).map Prod.fst =
      (walkFrom buf (scanNext buf) rounds pos).map (List.map Prod.snd) := by
  induction rounds generalizing pos with
  | zero => rfl
  | succ rounds ih =>
      rw [walkFrom, scanNext]
      by_cases hs : Stands buf pos
      · simp only [scanFrom_of_stands hs, hs, if_true]
        split
        · rfl
        · have h := congrArg (Option.map ((readHeader buf pos) :: ·)) (ih
            ((pos + headerLen + (readHeader buf pos).payloadLen.toNat) % 2 ^ 64))
          rw [Option.map_map, Option.map_map] at h
          rw [Option.map_map, Option.map_map]
          exact h
      · rw [scanFrom_of_not_stands hs, if_neg hs]
        rfl

/-- From the start of the buffer. -/
theorem headers_eq_walkFrom (buf : List UInt8) :
    headers buf = walkFrom buf (headersNext buf) (buf.length + 1) 0 :=
  headersFrom_eq_walkFrom buf _ _

/-- And likewise for `scan`. -/
theorem scan_eq_walkFrom (buf : List UInt8) :
    (scan buf).map Prod.fst =
      (walkFrom buf (scanNext buf) (buf.length + 1) 0).map (List.map Prod.snd) :=
  scanFrom_eq_walkFrom buf _ _

section

variable {buf : List UInt8} {next : Nat → Option Nat} {found : List (Nat × Header)}

/-- A walk that ends needs no more rounds. -/
theorem walkFrom_mono (h : walkFrom buf next rounds pos = some found) (more : Nat) :
    walkFrom buf next (rounds + more) pos = some found := by
  induction rounds generalizing pos found with
  | zero => cases h
  | succ rounds ih =>
      rw [Nat.succ_add_eq_add_succ, Nat.add_succ, walkFrom]
      rw [walkFrom] at h
      split at h
      · next hs =>
          rw [if_pos hs]
          cases hn : next pos with
          | none => simpa only [hn] using h
          | some pos' =>
              simp only [hn] at h ⊢
              obtain ⟨found', hfound', rfl⟩ := Option.map_eq_some_iff.mp h
              rw [ih hfound']
              rfl
      · next hs =>
          rw [if_neg hs]
          exact h

/-- What a loop finds does not depend on the rounds it is given. -/
theorem walkFrom_unique {found' : List (Nat × Header)} (h : walkFrom buf next rounds pos = some found)
    (h' : walkFrom buf next rounds' pos = some found') : found = found' := by
  have hmore := walkFrom_mono h rounds'
  rw [Nat.add_comm, walkFrom_mono h' rounds] at hmore
  exact (Option.some.inj hmore).symm

/-- A loop that ends needs one round for each header and one more. -/
theorem walkFrom_length (h : walkFrom buf next rounds pos = some found) :
    walkFrom buf next (found.length + 1) pos = some found := by
  induction rounds generalizing pos found with
  | zero => cases h
  | succ rounds ih =>
      rw [walkFrom] at h ⊢
      split at h
      · next hs =>
          rw [if_pos hs]
          cases hn : next pos with
          | none => simpa only [hn] using h
          | some pos' =>
              simp only [hn] at h ⊢
              obtain ⟨found', hfound', rfl⟩ := Option.map_eq_some_iff.mp h
              rw [List.length_cons, ih hfound']
              rfl
      · next hs =>
          rw [if_neg hs]
          exact h

/-- Where a header is found, the loop goes on to find what follows it. -/
theorem walkFrom_suffix (h : walkFrom buf next rounds pos = some found) {x : Nat × Header}
    (hx : x ∈ found) : x.1 + headerLen ≤ buf.length ∧
      ∃ rounds' later, walkFrom buf next rounds' x.1 = some later ∧ later.length ≤ found.length := by
  induction rounds generalizing pos found with
  | zero => cases h
  | succ rounds ih =>
      have hwhole := h
      rw [walkFrom] at h
      split at h
      · next hs =>
          cases hn : next pos with
          | none =>
              simp only [hn] at h
              obtain rfl := Option.some.inj h
              obtain rfl := List.mem_singleton.mp hx
              exact ⟨hs.1, _, _, hwhole, le_refl _⟩
          | some pos' =>
              simp only [hn] at h
              obtain ⟨found', hfound', rfl⟩ := Option.map_eq_some_iff.mp h
              rcases List.mem_cons.mp hx with rfl | hx
              · exact ⟨hs.1, _, _, hwhole, le_refl _⟩
              · obtain ⟨hfit, rounds', later, hlater, hle⟩ := ih hfound' hx
                exact ⟨hfit, rounds', later, hlater, hle.trans (Nat.le_succ _)⟩
      · obtain rfl := Option.some.inj h
        cases hx

/-- A loop that ends is nowhere twice. -/
theorem walkFrom_nodup (h : walkFrom buf next rounds pos = some found) :
    (found.map Prod.fst).Nodup := by
  induction rounds generalizing pos found with
  | zero => cases h
  | succ rounds ih =>
      have hwhole := h
      rw [walkFrom] at h
      split at h
      · cases hn : next pos with
        | none =>
            simp only [hn] at h
            obtain rfl := Option.some.inj h
            exact List.nodup_singleton _
        | some pos' =>
            simp only [hn] at h
            obtain ⟨found', hfound', rfl⟩ := Option.map_eq_some_iff.mp h
            refine List.nodup_cons.mpr ⟨fun hmem => ?_, ih hfound'⟩
            obtain ⟨x, hx, rfl⟩ := List.mem_map.mp hmem
            obtain ⟨-, rounds', later, hlater, hle⟩ := walkFrom_suffix hfound' hx
            have hlength := congrArg List.length (walkFrom_unique hwhole hlater)
            rw [List.length_cons] at hlength
            omega
      · obtain rfl := Option.some.inj h
        exact List.nodup_nil

/-- **The bound on the rounds**: a loop that ends at all ends within it. -/
theorem walkFrom_bound (h : walkFrom buf next rounds pos = some found) :
    walkFrom buf next (buf.length + 1) pos = some found := by
  have hsub : found.map Prod.fst ⊆ List.range buf.length := by
    intro place hplace
    obtain ⟨x, hx, rfl⟩ := List.mem_map.mp hplace
    have hfit := (walkFrom_suffix h hx).1
    rw [List.mem_range]
    simp only [headerLen] at hfit
    omega
  have hle := ((walkFrom_nodup h).subperm hsub).length_le
  rw [List.length_map, List.length_range] at hle
  have hmore := walkFrom_mono (walkFrom_length h) (buf.length - found.length)
  rwa [show found.length + 1 + (buf.length - found.length) = buf.length + 1 by omega] at hmore

end

/-- `headers` is `none` just when its loop never ends. -/
theorem headers_eq_none_iff (buf : List UInt8) :
    headers buf = none ↔ ∀ rounds, headersFrom buf rounds 0 = none := by
  refine ⟨fun h rounds => ?_, fun h => h _⟩
  rw [headersFrom_eq_walkFrom]
  rw [headers_eq_walkFrom] at h
  cases hwalk : walkFrom buf (headersNext buf) rounds 0 with
  | none => rfl
  | some found =>
      rw [walkFrom_bound hwalk] at h
      cases h

/-- `scan` is `none` just when its loop never ends. -/
theorem scan_eq_none_iff (buf : List UInt8) :
    scan buf = none ↔ ∀ rounds, scanFrom buf rounds 0 = none := by
  refine ⟨fun h rounds => ?_, fun h => h _⟩
  have hscan := scan_eq_walkFrom buf
  have hmap := scanFrom_eq_walkFrom buf rounds 0
  cases hwalk : walkFrom buf (scanNext buf) rounds 0 with
  | none =>
      rw [hwalk] at hmap
      exact Option.map_eq_none_iff.mp hmap
  | some found =>
      rw [walkFrom_bound hwalk, h] at hscan
      cases hscan

/-- The positions a loop comes to. -/
inductive Visited (next : Nat → Option Nat) : Nat → Prop
  | start : Visited next 0
  | step {pos pos' : Nat} (h : Visited next pos) (hnext : next pos = some pos') : Visited next pos'

/-- Following the lengths from the start of a buffer, one comes to a place where
no header stands, or one whose payload is not all there. -/
def LeadsOut (buf : List UInt8) : Prop := ∃ pos, Visited (scanNext buf) pos ∧ scanNext buf pos = none

/-- A walk that ends from a place it visits ends from the start. -/
theorem walkFrom_of_visited {buf : List UInt8} (h : Visited (scanNext buf) pos)
    (hwalk : ∃ rounds found, walkFrom buf (scanNext buf) rounds pos = some found) :
    ∃ rounds found, walkFrom buf (scanNext buf) rounds 0 = some found := by
  induction h with
  | start => exact hwalk
  | @step pos pos' h hnext ih =>
      obtain ⟨rounds, found, hfound⟩ := hwalk
      have hs : Stands buf pos := by
        by_contra hnot
        rw [scanNext, if_neg hnot] at hnext
        cases hnext
      refine ih ⟨rounds + 1, (pos, readHeader buf pos) :: found, ?_⟩
      simp only [walkFrom, if_pos hs, hnext, hfound, Option.map_some]

/-- A walk that ends leads out. -/
theorem leadsOut_of_walkFrom {buf : List UInt8} (h : Visited (scanNext buf) pos)
    {found : List (Nat × Header)} (hwalk : walkFrom buf (scanNext buf) rounds pos = some found) :
    LeadsOut buf := by
  induction rounds generalizing pos found with
  | zero => cases hwalk
  | succ rounds ih =>
      cases hnext : scanNext buf pos with
      | none => exact ⟨pos, h, hnext⟩
      | some pos' =>
          rw [walkFrom, hnext] at hwalk
          split at hwalk
          · obtain ⟨later, hlater, -⟩ := Option.map_eq_some_iff.mp hwalk
            exact ih (h.step hnext) hlater
          · next hs =>
              rw [scanNext, if_neg hs] at hnext
              cases hnext

/-- **`scan` returns** just when the lengths lead out. -/
theorem scan_ne_none_iff (buf : List UInt8) : scan buf ≠ none ↔ LeadsOut buf := by
  have hscan := scan_eq_walkFrom buf
  constructor
  · intro h
    obtain ⟨r, hr⟩ := Option.ne_none_iff_exists'.mp h
    rw [hr, Option.map_some, eq_comm, Option.map_eq_some_iff] at hscan
    obtain ⟨found, hfound, -⟩ := hscan
    exact leadsOut_of_walkFrom .start hfound
  · rintro ⟨pos, hvisited, hnext⟩ hnone
    have hone : ∃ found, walkFrom buf (scanNext buf) 1 pos = some found := by
      rw [walkFrom, hnext]
      split
      · exact ⟨_, rfl⟩
      · exact ⟨_, rfl⟩
    obtain ⟨rounds, found, hfound⟩ := walkFrom_of_visited hvisited ⟨1, hone⟩
    rw [hnone, walkFrom_bound hfound] at hscan
    cases hscan

/-- Every round moves on. -/
def Increases (next : Nat → Option Nat) : Prop :=
  ∀ pos pos', Visited next pos → next pos = some pos' → pos < pos'

/-! ## What has to hold -/

/-- The loops over the part of `buf` behind `pending` bytes of payload, and the
calls that run them. -/
structure WalksEnd (buf : List UInt8) (pending : Nat) : Prop where
  scan_increases : Increases (scanNext (buf.drop (min pending buf.length)))
  headers_increases : Increases (headersNext (buf.drop (min pending buf.length)))
  scan_returns : ∃ found owed, scan (buf.drop (min pending buf.length)) = some (found, owed) ∧
    headerLen * found.length ≤ (buf.drop (min pending buf.length)).length
  headers_returns : ∃ found, headers (buf.drop (min pending buf.length)) = some found ∧
    headerLen * found.length ≤ (buf.drop (min pending buf.length)).length
  observe (t : Tracker) (side : Side) (h : t.pending.get side = pending) :
    (t.observe buf side).isSome = true
  rewrite (t : Tracker) (h : t.pending.server = pending) : (t.rewrite buf).isSome = true
  split (cut : Nat) : (splitFirstDataEnd buf (min pending buf.length) cut).isSome = true

/-- No sum leaves 64 bits at a header `pos` bytes behind offset `off`: not the
position behind its payload, and for a DataEND not that position in the whole
buffer either. -/
def Fits (off pos : Nat) (h : Header) : Prop :=
  pos + headerLen + h.payloadLen.toNat < 2 ^ 64 ∧
    (h.messageType = msgDataEnd → off + pos + headerLen + h.payloadLen.toNat < 2 ^ 64)

/-- Nothing is missing of these messages. -/
def Whole (ps : List Piece) : Prop := ∀ p ∈ ps, p.missing = 0

/-- At every header that stands behind whole messages, no sum wraps; or it
wraps to a place behind the header's start, the header is no DataEND, and
another header there neither is one too many nor wraps. -/
def Harmless (off : Nat) (body : List UInt8) : Prop :=
  ∀ (ps : List Piece) (h : Header) (rest : List UInt8), Whole ps →
    body = pieceBytes ps ++ (h.bytes ++ rest) →
    Fits off (pieceBytes ps).length h ∨
      (2 ^ 64 < headerLen + h.payloadLen.toNat ∧ h.messageType ≠ msgDataEnd ∧
        ∀ (h' : Header) (rest' : List UInt8),
          (h.bytes ++ rest).drop (headerLen + h.payloadLen.toNat - 2 ^ 64) = h'.bytes ++ rest' →
          headerLen * (ps.length + 2) ≤ body.length ∧
            Fits off ((pieceBytes ps).length + (headerLen + h.payloadLen.toNat - 2 ^ 64)) h')

/-! ## Headers in a buffer -/

/-- Sixteen bytes that start with the prologue are a header. -/
theorem exists_drop_of_stands {buf : List UInt8} (hs : Stands buf pos) :
    ∃ h rest, buf.drop pos = Header.bytes h ++ rest := by
  obtain ⟨hfit, hp⟩ := hs
  simp only [headerLen] at hfit
  have hprologue : [buf.getD pos 0, buf.getD (pos + 1) 0] = prologue := by
    simpa [hasPrologue, prologue] using hp
  have hhead : (readHeader buf pos).bytes = slice buf pos headerLen := by
    rw [Header.bytes, readHeader, be32_ofBE32 (length_slice (by omega)),
      be64_ofBE64 (length_slice (by omega)), ← hprologue, ← slice_two (by omega),
      ← slice_two (show pos + 2 + 2 ≤ buf.length by omega), slice_append, slice_append, slice_append]
    rfl
  refine ⟨readHeader buf pos, buf.drop (pos + headerLen), ?_⟩
  rw [hhead, slice, ← List.drop_drop, List.take_append_drop]

/-- A word has four bytes. -/
theorem exists_be32 (x : UInt32) : ∃ a b c d, be32 x = [a, b, c, d] := ⟨_, _, _, _, rfl⟩

/-- A double word has eight. -/
theorem exists_be64 (x : UInt64) : ∃ a b c d e f g h, be64 x = [a, b, c, d, e, f, g, h] ∧
    x.toNat = ofBE [a, b, c, d, e, f, g, h] := by
  refine ⟨_, _, _, _, _, _, _, _, rfl, ?_⟩
  have h : ofBE (be64 x) = x.toNat := by
    rw [be64, ofBE_beBytes, Nat.mod_eq_of_lt (show x.toNat < 256 ^ 8 from x.toNat_lt)]
  exact h.symm

/-- A sum over a header wraps to a place inside it.  What could be read as a
header there has the tail of the large length at the head of its own. -/
theorem inner_header {h h' : Header} {rest rest' : List UInt8}
    (hwrap : 2 ^ 64 < headerLen + h.payloadLen.toNat)
    (hdrop : (h.bytes ++ rest).drop (headerLen + h.payloadLen.toNat - 2 ^ 64) = h'.bytes ++ rest') :
    2 ^ 63 ≤ h'.payloadLen.toNat ∧ headerLen + h'.payloadLen.toNat < 2 ^ 64 := by
  obtain ⟨d, hd, hlow, hhigh⟩ : ∃ d, headerLen + h.payloadLen.toNat - 2 ^ 64 = d ∧ 1 ≤ d ∧ d ≤ 15 := by
    have := h.payloadLen.toNat_lt
    simp only [headerLen] at *
    exact ⟨_, rfl, by omega, by omega⟩
  have hlen : h.payloadLen = UInt64.ofNat (2 ^ 64 - 16 + d) := by
    rw [← UInt64.toNat_inj, UInt64.toNat_ofNat_of_lt' (show 2 ^ 64 - 16 + d < 2 ^ 64 by omega)]
    simp only [headerLen] at hd hwrap
    omega
  obtain ⟨x0, x1, x2, x3, hx⟩ := exists_be32 h.messageParameter
  obtain ⟨y0, y1, y2, y3, hy⟩ := exists_be32 h'.messageParameter
  obtain ⟨m0, m1, m2, m3, m4, m5, m6, m7, hm, hvalue⟩ := exists_be64 h'.payloadLen
  rw [hd, Header.bytes, Header.bytes, hx, hy, hm, hlen] at hdrop
  rw [hvalue]
  have hbytes : be64 (UInt64.ofNat (2 ^ 64 - 16 + d)) =
      [255, 255, 255, 255, 255, 255, 255, UInt8.ofNat (240 + d)] := by
    interval_cases d <;> decide
  rw [hbytes] at hdrop
  -- only five of the fifteen places can hold a prologue, and there the last
  -- byte of the large length stands inside the other length
  have hread : m0 = 255 ∧ (m1 = 246 ∨ m2 = 245 ∨ m3 = 244 ∨ m4 = 243 ∨ m5 = 242) := by
    interval_cases d <;> simp [prologue] at hdrop <;> grind
  have hlt (b : UInt8) : b.toNat < 256 := b.toNat_lt
  have h1 := hlt m1
  have h2 := hlt m2
  have h3 := hlt m3
  have h4 := hlt m4
  have h5 := hlt m5
  have h6 := hlt m6
  have h7 := hlt m7
  simp only [ofBE, headerLen, List.length_cons, List.length_nil]
  rcases hread with ⟨rfl, rfl | rfl | rfl | rfl | rfl⟩ <;> simp only [UInt8.reduceToNat] at * <;> omega

/-! ## The two loops as one -/

/-- What both loops do with a header: go behind its payload if that is in the
buffer, and into the header if the sum wraps to there. -/
structure Loop (body : List UInt8) (next : Nat → Option Nat) : Prop where
  idle {pos : Nat} (hs : ¬ Stands body pos) : next pos = none
  fits {pos : Nat} {h : Header} {rest : List UInt8} (hbody : body.drop pos = h.bytes ++ rest)
    (hsum : pos + headerLen + h.payloadLen.toNat < 2 ^ 64) :
    next pos = if body.length < pos + headerLen + h.payloadLen.toNat then none
      else some (pos + headerLen + h.payloadLen.toNat)
  wraps {pos : Nat} {h : Header} {rest : List UInt8} (hbody : body.drop pos = h.bytes ++ rest)
    (hsum : 2 ^ 64 < headerLen + h.payloadLen.toNat) :
    next pos = some (pos + (headerLen + h.payloadLen.toNat - 2 ^ 64))

/-- The rule of `scan`. -/
theorem loop_scanNext {body : List UInt8} (hlen : body.length < 2 ^ 63) :
    Loop body (scanNext body) where
  idle hs := if_neg hs
  fits {pos h rest} hbody hsum := by
    rw [scanNext, if_pos (stands_of_drop hbody), readHeader_of_drop hbody, Nat.mod_eq_of_lt hsum]
  wraps {pos h rest} hbody hsum := by
    have hs := (stands_of_drop hbody).1
    have hlt := h.payloadLen.toNat_lt
    have hmod : (pos + headerLen + h.payloadLen.toNat) % 2 ^ 64 =
        pos + (headerLen + h.payloadLen.toNat - 2 ^ 64) := by
      simp only [headerLen] at *
      omega
    rw [scanNext, if_pos (stands_of_drop hbody), readHeader_of_drop hbody, hmod, if_neg]
    simp only [headerLen] at *
    omega

/-- The rule of `headers`. -/
theorem loop_headersNext (body : List UInt8) : Loop body (headersNext body) where
  idle hs := if_neg hs
  fits {pos h rest} hbody hsum := by
    have hs := (stands_of_drop hbody).1
    have hmod : (headerLen + h.payloadLen.toNat) % 2 ^ 64 = headerLen + h.payloadLen.toNat :=
      Nat.mod_eq_of_lt (by omega)
    rw [headersNext, if_pos (stands_of_drop hbody), readHeader_of_drop hbody, hmod, Nat.add_assoc]
    have hiff : body.length - pos < headerLen + h.payloadLen.toNat ↔
        body.length < pos + (headerLen + h.payloadLen.toNat) := by omega
    simp only [hiff]
  wraps {pos h rest} hbody hsum := by
    have hs := (stands_of_drop hbody).1
    have hlt := h.payloadLen.toNat_lt
    have hmod : (headerLen + h.payloadLen.toNat) % 2 ^ 64 = headerLen + h.payloadLen.toNat - 2 ^ 64 := by
      simp only [headerLen] at *
      omega
    rw [headersNext, if_pos (stands_of_drop hbody), readHeader_of_drop hbody, hmod, if_neg]
    simp only [headerLen] at *
    omega

/-! ## A harmless buffer -/

/-- Everything a loop can do behind whole messages `ps` if `tail` is left. -/
inductive Turn (body : List UInt8) (next : Nat → Option Nat) (off : Nat) (ps : List Piece)
    (tail : List UInt8) : Prop
  | idle (hs : ¬ Stands body (pieceBytes ps).length)
  | last (h : Header) (rest : List UInt8) (htail : tail = h.bytes ++ rest)
      (hfits : Fits off (pieceBytes ps).length h)
      (hlong : body.length < (pieceBytes ps).length + headerLen + h.payloadLen.toNat)
      (hnext : next (pieceBytes ps).length = none)
  | message (p : Piece) (tail' : List UInt8) (hwhole : p.missing = 0)
      (htail : tail = p.bytes ++ tail')
      (hnext : next (pieceBytes ps).length = some (pieceBytes (ps ++ [p])).length)
  | back (h : Header) (rest : List UInt8) (d : Nat) (htail : tail = h.bytes ++ rest) (hpos : 0 < d)
      (hlt : d < headerLen) (htype : h.messageType ≠ msgDataEnd)
      (hnext : next (pieceBytes ps).length = some ((pieceBytes ps).length + d))
      (hstop : next ((pieceBytes ps).length + d) = none)
      (hinner : Stands body ((pieceBytes ps).length + d) →
        headerLen * (ps.length + 2) ≤ body.length ∧
          Fits off ((pieceBytes ps).length + d) (readHeader body ((pieceBytes ps).length + d)) ∧
          body.length < (readHeader body ((pieceBytes ps).length + d)).payloadLen.toNat)

section

variable {body tail : List UInt8} {next : Nat → Option Nat} {off : Nat} {ps : List Piece}

/-- Behind the pieces comes the tail. -/
theorem drop_pieceBytes (hbody : body = pieceBytes ps ++ tail) :
    body.drop (pieceBytes ps).length = tail := by
  rw [hbody, drop_append_of_length rfl]

/-- And there the next message starts. -/
theorem drop_message {p : Piece} {tail' : List UInt8} (hbody : body = pieceBytes ps ++ tail)
    (htail : tail = p.bytes ++ tail') :
    body.drop (pieceBytes ps).length = p.header.bytes ++ (p.body ++ tail') := by
  rw [drop_pieceBytes hbody, htail, Piece.bytes, List.append_assoc]

/-- Which makes one piece more. -/
theorem append_message {p : Piece} {tail' : List UInt8} (hbody : body = pieceBytes ps ++ tail)
    (htail : tail = p.bytes ++ tail') : body = pieceBytes (ps ++ [p]) ++ tail' := by
  rw [hbody, htail]
  simp

/-- By as many bytes as it has. -/
theorem length_pieceBytes_concat (ps : List Piece) (p : Piece) :
    (pieceBytes (ps ++ [p])).length = (pieceBytes ps).length + p.bytes.length := by
  simp

/-- A header whose payload has all arrived, as a piece. -/
theorem exists_piece {h : Header} {rest : List UInt8} (hlen : h.payloadLen.toNat ≤ rest.length)
    (hshort : h.payloadLen.toNat < 2 ^ 63) :
    ∃ (p : Piece) (tail' : List UInt8), p.header = h ∧ p.missing = 0 ∧
      h.bytes ++ rest = p.bytes ++ tail' := by
  have hbody : (rest.take h.payloadLen.toNat).length = h.payloadLen.toNat := by simp [hlen]
  refine ⟨⟨h, rest.take h.payloadLen.toNat, hbody.le, hshort⟩, rest.drop h.payloadLen.toNat, rfl, ?_, ?_⟩
  · exact Nat.sub_eq_zero_of_le hbody.ge
  · rw [Piece.bytes, List.append_assoc, List.take_append_drop]

/-- A whole piece has a header and its payload. -/
theorem length_bytes_of_whole {p : Piece} (h : p.missing = 0) :
    p.bytes.length = headerLen + p.header.payloadLen.toNat := by
  have hfits := p.fits
  rw [Piece.missing] at h
  rw [Piece.length_bytes]
  omega

/-- **One round** behind whole messages. -/
theorem turn (L : Loop body next) (H : Harmless off body) (hlen : body.length < 2 ^ 63)
    (hw : Whole ps) (hbody : body = pieceBytes ps ++ tail) : Turn body next off ps tail := by
  by_cases hs : Stands body (pieceBytes ps).length
  swap
  · exact .idle hs
  obtain ⟨h, rest, hdrop⟩ := exists_drop_of_stands hs
  have htail : tail = h.bytes ++ rest := (drop_pieceBytes hbody).symm.trans hdrop
  have hsize : body.length = (pieceBytes ps).length + headerLen + rest.length := by
    rw [hbody, htail, List.length_append, List.length_append, Header.length_bytes, Nat.add_assoc]
  rcases H ps h rest hw (htail ▸ hbody) with hfits | ⟨hwrap, htype, hinner⟩
  · have hnext := L.fits hdrop hfits.1
    by_cases hlong : body.length < (pieceBytes ps).length + headerLen + h.payloadLen.toNat
    · rw [if_pos hlong] at hnext
      exact .last h rest htail hfits hlong hnext
    · obtain ⟨p, tail', hp, hwhole, hbytes⟩ := exists_piece (show h.payloadLen.toNat ≤ rest.length by omega) (by omega)
      rw [if_neg hlong] at hnext
      refine .message p tail' hwhole (htail.trans hbytes) ?_
      rw [hnext, length_pieceBytes_concat, length_bytes_of_whole hwhole, hp, Nat.add_assoc]
  · -- the sum wraps to a place inside the header
    have hlt := h.payloadLen.toNat_lt
    generalize hd : headerLen + h.payloadLen.toNat - 2 ^ 64 = d at hinner
    have hnext := L.wraps hdrop hwrap
    rw [hd] at hnext
    have hplace : body.drop ((pieceBytes ps).length + d) = (h.bytes ++ rest).drop d := by
      rw [← List.drop_drop, hdrop]
    have hthere (hs' : Stands body ((pieceBytes ps).length + d)) :
        headerLen * (ps.length + 2) ≤ body.length ∧
          Fits off ((pieceBytes ps).length + d) (readHeader body ((pieceBytes ps).length + d)) ∧
          body.length < (readHeader body ((pieceBytes ps).length + d)).payloadLen.toNat ∧
          next ((pieceBytes ps).length + d) = none := by
      obtain ⟨h', rest', hdrop'⟩ := exists_drop_of_stands hs'
      have hin := hplace.symm.trans hdrop'
      obtain ⟨hcount, hfits⟩ := hinner h' rest' hin
      have hlarge := (inner_header hwrap (hd ▸ hin)).1
      rw [readHeader_of_drop hdrop']
      refine ⟨hcount, hfits, by omega, ?_⟩
      rw [L.fits hdrop' hfits.1, if_pos (by omega)]
    refine .back h rest d htail (by omega) (by simp only [headerLen] at *; omega) htype hnext ?_
      fun hs' => ⟨(hthere hs').1, (hthere hs').2.1, (hthere hs').2.2.1⟩
    by_cases hs' : Stands body ((pieceBytes ps).length + d)
    · exact (hthere hs').2.2.2
    · exact L.idle hs'

/-- A whole piece more leaves all of them whole. -/
theorem whole_append {p : Piece} (hw : Whole ps) (hp : p.missing = 0) : Whole (ps ++ [p]) := by
  intro q hq
  rcases List.mem_append.mp hq with hq | hq
  · exact hw q hq
  · rw [List.mem_singleton.mp hq]
    exact hp

/-- No pieces are whole. -/
theorem whole_nil : Whole [] := by
  intro p hp
  cases hp

/-- Where a loop goes on to from behind whole messages: behind one more, or to
its end. -/
theorem next_of_harmless (L : Loop body next) (H : Harmless off body) (hlen : body.length < 2 ^ 63)
    (hw : Whole ps) (hbody : body = pieceBytes ps ++ tail)
    (hnext : next (pieceBytes ps).length = some pos) :
    (pieceBytes ps).length < pos ∧
      ((∃ ps' tail', Whole ps' ∧ body = pieceBytes ps' ++ tail' ∧ pos = (pieceBytes ps').length) ∨
        next pos = none) := by
  cases turn L H hlen hw hbody with
  | idle hs => rw [L.idle hs] at hnext; cases hnext
  | last h rest htail hfits hlong hnone => rw [hnone] at hnext; cases hnext
  | message p tail' hwhole htail hsome =>
      rw [hsome] at hnext
      obtain rfl := Option.some.inj hnext
      refine ⟨?_, .inl ⟨ps ++ [p], tail', whole_append hw hwhole, append_message hbody htail, rfl⟩⟩
      rw [length_pieceBytes_concat, Piece.length_bytes, headerLen]
      omega
  | back h rest d htail hpos hlt htype hsome hstop hinner =>
      rw [hsome] at hnext
      obtain rfl := Option.some.inj hnext
      exact ⟨by omega, .inr hstop⟩

/-- A loop stands behind whole messages, or is at its end. -/
theorem visited_cases (L : Loop body next) (H : Harmless off body) (hlen : body.length < 2 ^ 63)
    (hv : Visited next pos) :
    (∃ ps tail, Whole ps ∧ body = pieceBytes ps ++ tail ∧ pos = (pieceBytes ps).length) ∨
      next pos = none := by
  induction hv with
  | start => exact .inl ⟨[], body, whole_nil, rfl, rfl⟩
  | @step pos pos' hv hnext ih =>
      rcases ih with ⟨ps, tail, hw, hbody, rfl⟩ | hnone
      · exact (next_of_harmless L H hlen hw hbody hnext).2
      · rw [hnone] at hnext
        cases hnext

/-- Where headers are harmless the place moves on. -/
theorem increases_of_harmless (L : Loop body next) (H : Harmless off body)
    (hlen : body.length < 2 ^ 63) : Increases next := by
  intro pos pos' hv hnext
  rcases visited_cases L H hlen hv with ⟨ps, tail, hw, hbody, rfl⟩ | hnone
  · exact (next_of_harmless L H hlen hw hbody hnext).1
  · rw [hnone] at hnext
    cases hnext

/-- A header a loop has found: if it is a DataEND, the sum over it fits, and if
its payload is all there, it is a whole message behind others. -/
structure Found (off : Nat) (body : List UInt8) (x : Nat × Header) : Prop where
  fits : x.2.messageType = msgDataEnd → off + x.1 + headerLen + x.2.payloadLen.toNat < 2 ^ 64
  whole : x.2.messageType = msgDataEnd → x.1 + headerLen + x.2.payloadLen.toNat ≤ body.length →
    ∃ (ps : List Piece) (p : Piece) (tail : List UInt8), Whole ps ∧ p.missing = 0 ∧
      p.header = x.2 ∧ x.1 = (pieceBytes ps).length ∧ body = pieceBytes ps ++ (p.bytes ++ tail)

/-- Headers are no shorter than their bytes. -/
theorem headerLen_mul_length_le (ps : List Piece) : headerLen * ps.length ≤ (pieceBytes ps).length := by
  induction ps with
  | nil => simp
  | cons p ps ih =>
      rw [pieceBytes_cons, List.length_append, Piece.length_bytes, List.length_cons, Nat.mul_succ]
      omega

/-- The pieces lie in the buffer. -/
theorem length_pieceBytes_le (hbody : body = pieceBytes ps ++ tail) :
    (pieceBytes ps).length ≤ body.length := by
  rw [hbody, List.length_append]
  omega

/-- A header behind the others has room for itself. -/
theorem headerLen_mul_succ_le (hs : Stands body (pieceBytes ps).length) :
    headerLen * (ps.length + 1) ≤ body.length := by
  rw [Nat.mul_succ]
  exact (Nat.add_le_add_right (headerLen_mul_length_le ps) headerLen).trans hs.1

/-- A loop that moves on once: at most one more header is found. -/
theorem walkFrom_once {body : List UInt8} {next : Nat → Option Nat} (hs : Stands body pos)
    (hnext : next pos = some pos') (hstop : next pos' = none) (rounds : Nat) :
    walkFrom body next (rounds + 2) pos = some ((pos, readHeader body pos) ::
      if Stands body pos' then [(pos', readHeader body pos')] else []) := by
  rw [walkFrom, if_pos hs, hnext]
  by_cases hs' : Stands body pos'
  · simp [walkFrom, hstop, hs']
  · simp [walkFrom, hs']

/-- **A loop** behind whole messages ends, with no more headers than fit. -/
theorem walkFrom_of_harmless (L : Loop body next) (H : Harmless off body)
    (hoff : off + body.length < 2 ^ 63) (hw : Whole ps) (hbody : body = pieceBytes ps ++ tail)
    (hrounds : body.length < (pieceBytes ps).length + rounds) :
    ∃ found, walkFrom body next rounds (pieceBytes ps).length = some found ∧
      headerLen * (ps.length + found.length) ≤ body.length ∧ ∀ x ∈ found, Found off body x := by
  induction rounds generalizing ps tail with
  | zero =>
      have hsize := length_pieceBytes_le hbody
      omega
  | succ rounds ih =>
      cases turn L H (by omega) hw hbody with
      | idle hs =>
          rw [walkFrom, if_neg hs]
          exact ⟨[], rfl, (headerLen_mul_length_le ps).trans (length_pieceBytes_le hbody), by simp⟩
      | last h rest htail hfits hlong hnone =>
          have hdrop := (drop_pieceBytes hbody).trans htail
          have hs := stands_of_drop hdrop
          rw [walkFrom, if_pos hs, hnone, readHeader_of_drop hdrop]
          refine ⟨_, rfl, headerLen_mul_succ_le hs, ?_⟩
          intro x hx
          obtain rfl := List.mem_singleton.mp hx
          exact ⟨hfits.2, fun _ hle => absurd hle (not_le.mpr hlong)⟩
      | message p tail' hwhole htail hsome =>
          have hdrop := drop_message hbody htail
          have hbody' := append_message hbody htail
          have hsize := length_pieceBytes_le hbody'
          have hbehind := length_pieceBytes_concat ps p
          rw [length_bytes_of_whole hwhole] at hbehind
          have hrounds' : body.length < (pieceBytes (ps ++ [p])).length + rounds := by
            simp only [headerLen] at hbehind
            omega
          obtain ⟨found, hfound, hcount, hall⟩ := ih (whole_append hw hwhole) hbody' hrounds'
          rw [walkFrom, if_pos (stands_of_drop hdrop), hsome, readHeader_of_drop hdrop]
          simp only [hfound, Option.map_some]
          refine ⟨_, rfl, ?_, List.forall_mem_cons.mpr ⟨⟨fun _ => ?_, fun _ _ => ?_⟩, hall⟩⟩
          · rw [List.length_append, List.length_singleton] at hcount
            rw [List.length_cons, Nat.add_comm found.length, ← Nat.add_assoc]
            exact hcount
          · show off + (pieceBytes ps).length + headerLen + p.header.payloadLen.toNat < 2 ^ 64
            omega
          · exact ⟨ps, p, tail', hw, hwhole, rfl, rfl, by rw [hbody, htail]⟩
      | back h rest d htail hpos hlt htype hsome hstop hinner =>
          have hdrop := (drop_pieceBytes hbody).trans htail
          have hs := stands_of_drop hdrop
          have hhead : Found off body ((pieceBytes ps).length, h) :=
            ⟨fun he => absurd he htype, fun he => absurd he htype⟩
          have hfit := hs.1
          obtain ⟨rounds, rfl⟩ : ∃ r, rounds = r + 1 :=
            Nat.exists_eq_add_one.mpr (by simp only [headerLen] at hfit; omega)
          rw [walkFrom_once hs hsome hstop, readHeader_of_drop hdrop]
          by_cases hs' : Stands body ((pieceBytes ps).length + d)
          · obtain ⟨hcount, hfits, hlong⟩ := hinner hs'
            rw [if_pos hs']
            refine ⟨_, rfl, hcount, List.forall_mem_cons.mpr ⟨hhead, ?_⟩⟩
            intro x hx
            obtain rfl := List.mem_singleton.mp hx
            refine ⟨hfits.2, fun _ hle => absurd (Nat.le_trans ?_ hle) (not_le.mpr hlong)⟩
            exact Nat.le_add_left _ _
          · rw [if_neg hs']
            exact ⟨_, rfl, headerLen_mul_succ_le hs, List.forall_mem_cons.mpr ⟨hhead, by simp⟩⟩

/-- So the walk ends within the buffer, and finds nothing but what is harmless. -/
theorem walk_of_harmless (L : Loop body next) (H : Harmless off body)
    (hoff : off + body.length < 2 ^ 63) :
    ∃ found, walkFrom body next (body.length + 1) 0 = some found ∧
      headerLen * found.length ≤ body.length ∧ ∀ x ∈ found, Found off body x := by
  have hbody : body = pieceBytes [] ++ body := rfl
  have hrounds : body.length < (pieceBytes []).length + (body.length + 1) := by simp
  obtain ⟨found, hfound, hcount, hall⟩ := walkFrom_of_harmless L H hoff whole_nil hbody hrounds
  rw [List.length_nil, Nat.zero_add] at hcount
  exact ⟨found, hfound, hcount, hall⟩

end

/-! ## Whole messages -/

section

variable {body tail : List UInt8} {next : Nat → Option Nat} {ps : List Piece}

/-- A loop walks over whole messages. -/
theorem walkFrom_whole (L : Loop body next) (hlen : body.length < 2 ^ 64) (hw : Whole ps)
    (hpos : pos ≤ body.length) (hbody : body.drop pos = pieceBytes ps ++ tail) (rounds : Nat) :
    walkFrom body next (ps.length + rounds) pos =
      (walkFrom body next rounds (pos + (pieceBytes ps).length)).map (offsets pos ps ++ ·) := by
  induction ps generalizing pos with
  | nil => simp [offsets]
  | cons p ps ih =>
      obtain ⟨hp, hps⟩ := List.forall_mem_cons.mp hw
      rw [pieceBytes_cons, List.append_assoc] at hbody
      obtain ⟨hhead, hsize, hrest⟩ := drop_piece hpos hbody
      have hbytes := length_bytes_of_whole hp
      have hstop : pos + headerLen + p.header.payloadLen.toNat = pos + p.bytes.length := by omega
      have hle : pos + p.bytes.length ≤ body.length := by rw [Piece.length_bytes]; omega
      have hnext : next pos = some (pos + p.bytes.length) := by
        rw [L.fits hhead (by omega), hstop, if_neg (by omega)]
      have hdrop : body.drop (pos + p.bytes.length) = pieceBytes ps ++ tail := by
        rw [Piece.length_bytes, ← Nat.add_assoc]
        exact hrest
      have hrounds : (p :: ps).length + rounds = ps.length + rounds + 1 := by
        rw [List.length_cons]
        omega
      rw [hrounds, walkFrom, if_pos (stands_of_drop hhead), hnext, readHeader_of_drop hhead]
      simp only [ih hps hle hdrop, Option.map_map, offsets, pieceBytes_cons, List.length_append,
        Nat.add_assoc]
      rfl

/-- A walk passes the end of every run of whole pieces. -/
theorem visited_whole (L : Loop body next) (hlen : body.length < 2 ^ 64) (hw : Whole ps)
    (hbody : body = pieceBytes ps ++ tail) : Visited next (pieceBytes ps).length := by
  induction ps using List.reverseRecOn generalizing tail with
  | nil => exact .start
  | append_singleton ps p ih =>
      have hp : p.missing = 0 := hw p (by simp)
      have hbody' : body = pieceBytes ps ++ (p.bytes ++ tail) := by
        rw [hbody]
        simp
      have hstop : (pieceBytes ps).length + headerLen + p.header.payloadLen.toNat =
          (pieceBytes (ps ++ [p])).length := by
        rw [length_pieceBytes_concat, length_bytes_of_whole hp, Nat.add_assoc]
      have hle := length_pieceBytes_le hbody
      refine .step (ih (fun q hq => hw q (List.mem_append_left _ hq)) hbody') ?_
      rw [L.fits (drop_message hbody' rfl) (by omega), hstop, if_neg (by omega)]

/-- The loop of `headers` depends on nothing but what is left of the buffer. -/
theorem isSome_walkFrom_headersNext {buf buf' : List UInt8} (hpos : pos ≤ buf.length)
    (hpos' : pos' ≤ buf'.length) (hdrop : buf.drop pos = buf'.drop pos') (rounds : Nat) :
    (walkFrom buf (headersNext buf) rounds pos).isSome =
      (walkFrom buf' (headersNext buf') rounds pos').isSome := by
  induction rounds generalizing pos pos' with
  | zero => rfl
  | succ rounds ih =>
      rw [walkFrom, walkFrom]
      by_cases hs : Stands buf pos
      · obtain ⟨h, rest, hhead⟩ := exists_drop_of_stands hs
        have hhead' := hdrop.symm.trans hhead
        have hs' := stands_of_drop hhead'
        have hleft : buf.length - pos = buf'.length - pos' := by
          simpa using congrArg List.length hdrop
        rw [if_pos hs, if_pos hs', headersNext, headersNext, if_pos hs, if_pos hs',
          readHeader_of_drop hhead, readHeader_of_drop hhead', hleft]
        by_cases hstep : buf'.length - pos' < (headerLen + h.payloadLen.toNat) % 2 ^ 64
        · simp only [hstep, if_true, Option.isSome_some]
        · simp only [hstep, if_false, Option.isSome_map]
          refine ih (by omega) (by omega) ?_
          rw [← List.drop_drop, ← List.drop_drop, hdrop]
      · have hs' : ¬ Stands buf' pos' := by
          intro hs'
          obtain ⟨h, rest, hhead⟩ := exists_drop_of_stands hs'
          exact hs (stands_of_drop (hdrop.trans hhead))
        rw [if_neg hs, if_neg hs']

end

/-! ## Splitting -/

/-- The split loop does not panic over DataENDs whose sums fit. -/
theorem splitLoop_isSome (buf : List UInt8) (cut : Nat) {start : Nat} {found : List (Nat × Header)}
    (hfits : ∀ x ∈ found, x.2.messageType = msgDataEnd →
      start + x.1 + headerLen + x.2.payloadLen.toNat < 2 ^ 64) :
    (splitLoop buf start cut found).isSome = true := by
  induction found with
  | nil => rfl
  | cons x found ih =>
      obtain ⟨hx, hfound⟩ := List.forall_mem_cons.mp hfits
      obtain ⟨rel, h⟩ := x
      rw [splitLoop]
      split
      · exact ih hfound
      · next htype =>
          split
          · exact ih hfound
          · next hcut =>
              have hsum := hx (not_not.mp htype)
              simp only [Nat.mod_eq_of_lt hsum]
              split
              · rfl
              · rw [if_neg (by omega)]
                rfl

/-- What was split is a DataEND the loop found, with all of its payload. -/
theorem splitLoop_eq_some {buf out : List UInt8} {start cut : Nat} {found : List (Nat × Header)}
    (hfits : ∀ x ∈ found, x.2.messageType = msgDataEnd →
      start + x.1 + headerLen + x.2.payloadLen.toNat < 2 ^ 64)
    (hout : splitLoop buf start cut found = some (some out)) :
    ∃ x ∈ found, x.2.messageType = msgDataEnd ∧ cut < x.2.payloadLen.toNat ∧
      start + x.1 + headerLen + x.2.payloadLen.toNat ≤ buf.length ∧
      out = buf.take (start + x.1) ++
        message msgData x.2.controlCode x.2.messageParameter
          (slice buf (start + x.1 + headerLen) cut) ++
        message msgDataEnd x.2.controlCode x.2.messageParameter
          (slice buf (start + x.1 + headerLen + cut)
            (start + x.1 + headerLen + x.2.payloadLen.toNat - (start + x.1 + headerLen + cut))) ++
        buf.drop (start + x.1 + headerLen + x.2.payloadLen.toNat) := by
  induction found with
  | nil => cases hout
  | cons x found ih =>
      obtain ⟨hx, hfound⟩ := List.forall_mem_cons.mp hfits
      obtain ⟨rel, h⟩ := x
      rw [splitLoop] at hout
      split at hout
      · obtain ⟨y, hy, hrest⟩ := ih hfound hout
        exact ⟨y, List.mem_cons_of_mem _ hy, hrest⟩
      · next htype =>
          split at hout
          · obtain ⟨y, hy, hrest⟩ := ih hfound hout
            exact ⟨y, List.mem_cons_of_mem _ hy, hrest⟩
          · next hcut =>
              have hsum := hx (not_not.mp htype)
              simp only [Nat.mod_eq_of_lt hsum] at hout
              split at hout
              · cases hout
              · next hle =>
                  rw [if_neg (by omega)] at hout
                  obtain rfl := Option.some.inj (Option.some.inj hout)
                  exact ⟨(rel, h), List.mem_cons_self, not_not.mp htype, by simpa using hcut,
                    by simpa using hle, rfl⟩

/-- A DataEND over which the sum wraps is split with a panic, if nothing before
it is longer than the cut. -/
theorem splitLoop_panics {buf : List UInt8} {start cut rel : Nat} {h : Header}
    {before after : List (Nat × Header)} (hbefore : ∀ x ∈ before,
      x.2.messageType ≠ msgDataEnd ∨ x.2.payloadLen.toNat ≤ cut)
    (htype : h.messageType = msgDataEnd) (hcut : cut < h.payloadLen.toNat)
    (hfit : start + rel + headerLen ≤ buf.length) (hlen : buf.length < 2 ^ 63)
    (hsum : 2 ^ 64 ≤ start + rel + headerLen + h.payloadLen.toNat) :
    splitLoop buf start cut (before ++ (rel, h) :: after) = none := by
  induction before with
  | nil =>
      have hlt := h.payloadLen.toNat_lt
      have hmod : (start + rel + headerLen + h.payloadLen.toNat) % 2 ^ 64 =
          start + rel + headerLen + h.payloadLen.toNat - 2 ^ 64 := by omega
      rw [List.nil_append, splitLoop, if_neg (by simpa using htype), if_neg (by omega)]
      simp only [hmod]
      rw [if_neg (by omega), if_pos (by omega)]
  | cons x before ih =>
      obtain ⟨hx, hlater⟩ := List.forall_mem_cons.mp hbefore
      obtain ⟨rel', h'⟩ := x
      rw [List.cons_append, splitLoop]
      split
      · exact ih hlater
      · next hdata =>
          rw [if_pos (hx.resolve_left hdata)]
          exact ih hlater

/-! ## The calls -/

/-- Whether `headers` returns is decided behind the whole messages in front. -/
theorem isSome_headers_whole {ps : List Piece} {tail : List UInt8} (hw : Whole ps)
    (hlen : (pieceBytes ps ++ tail).length < 2 ^ 64) :
    (headers (pieceBytes ps ++ tail)).isSome =
      (walkFrom tail (headersNext tail) ((pieceBytes ps ++ tail).length + 1 - ps.length) 0).isSome := by
  have hrounds : (pieceBytes ps ++ tail).length + 1 =
      ps.length + ((pieceBytes ps ++ tail).length + 1 - ps.length) := by
    have hcount := length_le_pieceBytes ps
    rw [List.length_append]
    omega
  rw [headers_eq_walkFrom, hrounds, walkFrom_whole (loop_headersNext _) hlen hw (Nat.zero_le _) rfl,
    Option.isSome_map, ← hrounds]
  refine isSome_walkFrom_headersNext ?_ (Nat.zero_le _) ?_ _
  · rw [Nat.zero_add, List.length_append]
    omega
  · rw [Nat.zero_add, drop_append_of_length rfl, List.drop_zero]

/-- If `headers` ends behind some whole pieces, it ends behind others that leave
it no fewer rounds. -/
theorem isSome_headers_of_whole {ps qs : List Piece} {tail : List UInt8} (hw : Whole ps) (hq : Whole qs)
    (hlen : (pieceBytes ps ++ tail).length < 2 ^ 64) (hlen' : (pieceBytes qs ++ tail).length < 2 ^ 64)
    (hmore : (pieceBytes ps).length + qs.length ≤ (pieceBytes qs).length + ps.length)
    (h : (headers (pieceBytes ps ++ tail)).isSome = true) :
    (headers (pieceBytes qs ++ tail)).isSome = true := by
  rw [isSome_headers_whole hw hlen] at h
  rw [isSome_headers_whole hq hlen']
  obtain ⟨found, hfound⟩ := Option.isSome_iff_exists.mp h
  have hrounds : (pieceBytes qs ++ tail).length + 1 - qs.length =
      (pieceBytes ps ++ tail).length + 1 - ps.length +
        ((pieceBytes qs).length + ps.length - ((pieceBytes ps).length + qs.length)) := by
    have hcount := length_le_pieceBytes ps
    have hcount' := length_le_pieceBytes qs
    rw [List.length_append, List.length_append]
    omega
  rw [hrounds, walkFrom_mono hfound]
  rfl

/-- `headers` returns on a buffer with one message split if it does on the buffer. -/
theorem isSome_headers_split {ps : List Piece} {p : Piece} {tail : List UInt8} (hw : Whole ps)
    (hp : p.missing = 0) (hlen : (pieceBytes ps ++ (p.bytes ++ tail)).length < 2 ^ 63) (cut : Nat)
    (h : (headers (pieceBytes ps ++ (p.bytes ++ tail))).isSome = true) :
    (headers (pieceBytes ps ++ ((p.part msgData (p.body.take cut) (by simp)).bytes ++
      ((p.part msgDataEnd (p.body.drop cut) (by simp)).bytes ++ tail)))).isSome = true := by
  have hdata := p.missing_part msgData (p.body.take cut) (by simp)
  have hend := p.missing_part msgDataEnd (p.body.drop cut) (by simp)
  have hgrown : (p.part msgData (p.body.take cut) (by simp)).bytes.length +
      (p.part msgDataEnd (p.body.drop cut) (by simp)).bytes.length = p.bytes.length + headerLen := by
    simp only [Piece.length_bytes, Piece.part, List.length_take, List.length_drop]
    omega
  generalize p.part msgData (p.body.take cut) _ = d at *
  generalize p.part msgDataEnd (p.body.drop cut) _ = e at *
  have hout : pieceBytes ps ++ (d.bytes ++ (e.bytes ++ tail)) = pieceBytes (ps ++ [d] ++ [e]) ++ tail := by
    simp
  have hsizes : (pieceBytes (ps ++ [d] ++ [e])).length = (pieceBytes (ps ++ [p])).length + headerLen := by
    simp only [pieceBytes_append, pieceBytes_cons, pieceBytes_nil, List.append_nil, List.length_append]
    omega
  rw [append_message rfl rfl] at h hlen
  rw [hout]
  refine isSome_headers_of_whole (whole_append hw hp) (whole_append (whole_append hw hdata) hend)
    (by omega) ?_ ?_ h
  · rw [List.length_append] at hlen ⊢
    simp only [headerLen] at hsizes
    omega
  · simp only [List.length_append, List.length_cons, List.length_nil, headerLen] at hsizes ⊢
    omega

/-- A call returns if its `headers` and its split do, and the call it makes on
itself. -/
theorem isSome_rewriteWith {again : HislipFaults → List UInt8 → Option Rewritten} {pending : Nat}
    {f : HislipFaults} {buf : List UInt8}
    (hheaders : (headers (buf.drop (min pending buf.length))).isSome = true)
    (hsplit : ∀ cut, f.splitDataEndAt = some cut →
      ∃ r, splitFirstDataEnd buf (min pending buf.length) cut = some r ∧
        ∀ out, r = some out → (again { f with splitDataEndAt := none } out).isSome = true) :
    (rewriteWith again pending f buf).isSome = true := by
  obtain ⟨found, hfound⟩ := Option.isSome_iff_exists.mp hheaders
  rw [rewriteWith]
  split
  · rfl
  simp only [hfound, Option.bind_some]
  split
  · rfl
  cases hs : f.splitDataEndAt with
  | none => rfl
  | some cut =>
      obtain ⟨r, hr, hagain⟩ := hsplit cut hs
      simp only [hr, Option.bind_some]
      cases r with
      | none => rfl
      | some out =>
          simp only [Option.isSome_map]
          exact hagain out rfl

section

variable {buf : List UInt8} {pending : Nat}

/-- What `headers` finds in a harmless buffer. -/
theorem headers_of_harmless (hlen : buf.length < 2 ^ 63)
    (H : Harmless (min pending buf.length) (buf.drop (min pending buf.length))) :
    ∃ found, headers (buf.drop (min pending buf.length)) = some found ∧
      headerLen * found.length ≤ (buf.drop (min pending buf.length)).length ∧
      ∀ x ∈ found, Found (min pending buf.length) (buf.drop (min pending buf.length)) x := by
  rw [headers_eq_walkFrom]
  refine walk_of_harmless (loop_headersNext _) H ?_
  rw [List.length_drop]
  omega

/-- And what `scan` does. -/
theorem scan_of_harmless (hlen : buf.length < 2 ^ 63)
    (H : Harmless (min pending buf.length) (buf.drop (min pending buf.length))) :
    ∃ found owed, scan (buf.drop (min pending buf.length)) = some (found, owed) ∧
      headerLen * found.length ≤ (buf.drop (min pending buf.length)).length := by
  have hsize : min pending buf.length + (buf.drop (min pending buf.length)).length = buf.length := by
    rw [List.length_drop]
    omega
  obtain ⟨found, hfound, hcount, -⟩ := walk_of_harmless (loop_scanNext (by omega)) H (by omega)
  have hmap := scan_eq_walkFrom (buf.drop (min pending buf.length))
  rw [hfound, Option.map_some, Option.map_eq_some_iff] at hmap
  obtain ⟨⟨headers, owed⟩, hscan, rfl⟩ := hmap
  exact ⟨_, owed, hscan, by rwa [List.length_map]⟩

/-- The split of a harmless buffer returns, and so does the call on what it gives. -/
theorem split_of_harmless (hlen : buf.length < 2 ^ 63)
    (H : Harmless (min pending buf.length) (buf.drop (min pending buf.length))) (cut : Nat) :
    ∃ r, splitFirstDataEnd buf (min pending buf.length) cut = some r ∧
      ∀ out, r = some out → (headers (out.drop (min pending out.length))).isSome = true := by
  obtain ⟨found, hfound, -, hall⟩ := headers_of_harmless hlen H
  rw [splitFirstDataEnd]
  split
  · exact ⟨none, rfl, fun out hout => by cases hout⟩
  rw [hfound, Option.bind_some]
  obtain ⟨r, hr⟩ := Option.isSome_iff_exists.mp
    (splitLoop_isSome buf cut fun x hx => (hall x hx).fits)
  refine ⟨r, hr, ?_⟩
  rintro out rfl
  obtain ⟨x, hx, htype, hcut, hin, rfl⟩ := splitLoop_eq_some (fun x hx => (hall x hx).fits) hr
  have hsize : (buf.drop (min pending buf.length)).length = buf.length - min pending buf.length :=
    List.length_drop
  obtain ⟨ps, p, tail, hw, hp, hheader, hpos, hbody⟩ := (hall x hx).whole htype (by omega)
  -- there is a header behind the payload owed, so all that is owed is in the buffer
  obtain ⟨rel, h⟩ := x
  simp only at htype hcut hin hheader hpos
  have hstart : min pending buf.length = pending := by
    have hfit := congrArg List.length hbody
    simp only [List.length_append, Piece.length_bytes, headerLen, hsize] at hfit
    omega
  rw [hstart] at hbody hin ⊢
  obtain ⟨carry, hcarry, hbuf⟩ : ∃ carry : List UInt8, carry.length = pending ∧
      buf = (carry ++ pieceBytes ps) ++ (p.bytes ++ tail) := by
    refine ⟨buf.take pending, by rw [List.length_take]; omega, ?_⟩
    rw [List.append_assoc, ← hbody, List.take_append_drop]
  have hpre : (carry ++ pieceBytes ps).length = pending + rel := by
    rw [List.length_append, hcarry, hpos]
  have hparts := @split_piece p _ tail _ cut hpre hp (hheader ▸ hcut)
  rw [← hbuf, hheader] at hparts
  rw [hparts, List.append_assoc, Nat.min_eq_left (by rw [List.length_append]; omega),
    drop_append_of_length hcarry]
  refine isSome_headers_split hw hp ?_ cut ?_
  · rw [← hbody, List.length_drop]
    omega
  · rw [← hbody, ← hstart, hfound]
    rfl

end

/-! ## Exactly when -/

/-- So both end. -/
theorem walksEnd_of_harmless {buf : List UInt8} {pending : Nat} (hlen : buf.length < 2 ^ 63)
    (H : Harmless (min pending buf.length) (buf.drop (min pending buf.length))) :
    WalksEnd buf pending := by
  have hsize : (buf.drop (min pending buf.length)).length = buf.length - min pending buf.length :=
    List.length_drop
  have hshort : (buf.drop (min pending buf.length)).length < 2 ^ 63 := by omega
  obtain ⟨found, owed, hscan, hcount⟩ := scan_of_harmless hlen H
  obtain ⟨found', hfound', hcount', -⟩ := headers_of_harmless hlen H
  exact {
    scan_increases := increases_of_harmless (loop_scanNext hshort) H hshort
    headers_increases := increases_of_harmless (loop_headersNext _) H hshort
    scan_returns := ⟨found, owed, hscan, hcount⟩
    headers_returns := ⟨found', hfound', hcount'⟩
    observe := by
      rintro t side rfl
      simp only [Tracker.observe, takePending, Option.isSome_map, hscan, Option.isSome_some]
    rewrite := by
      rintro t rfl
      rw [Tracker.rewrite, Option.isSome_map, rewriteFaults]
      refine isSome_rewriteWith (by rw [hfound']; rfl) fun cut hs => ?_
      obtain ⟨r, hr, hagain⟩ := split_of_harmless hlen H cut
      exact ⟨r, hr, fun out hout =>
        isSome_rewriteWith (hagain out hout) fun cut' hs' => by cases hs'⟩
    split := by
      intro cut
      obtain ⟨r, hr, -⟩ := split_of_harmless hlen H cut
      rw [hr]
      rfl }

/-- A header is told from its bytes. -/
theorem header_eq_of_bytes {h h' : Header} {rest rest' : List UInt8}
    (heq : h.bytes ++ rest = h'.bytes ++ rest') : h = h' := by
  have hone : readHeader (h.bytes ++ rest) 0 = h := readHeader_of_drop List.drop_zero
  have htwo : readHeader (h.bytes ++ rest) 0 = h' := readHeader_of_drop (by rw [heq, List.drop_zero])
  exact hone.symm.trans htwo

/-- Behind whole messages, the headers in a chain are those of its pieces. -/
theorem payloadLen_lt_of_chain {ps qs : List Piece} {h : Header} {rest : List UInt8}
    (hc : Chain ps) (hw : Whole qs) (heq : pieceBytes ps = pieceBytes qs ++ (h.bytes ++ rest)) :
    h.payloadLen.toNat < 2 ^ 63 := by
  induction qs generalizing ps with
  | nil =>
      cases ps with
      | nil =>
          have hlen := congrArg List.length heq
          simp [headerLen] at hlen
          omega
      | cons p ps =>
          rw [pieceBytes_cons, Piece.bytes, List.append_assoc, pieceBytes_nil,
            List.nil_append] at heq
          rw [← header_eq_of_bytes heq]
          exact p.short
  | cons q qs ih =>
      obtain ⟨hq, hqs⟩ := List.forall_mem_cons.mp hw
      cases ps with
      | nil =>
          have hlen := congrArg List.length heq
          simp [headerLen] at hlen
          omega
      | cons p ps =>
          obtain ⟨hlast, hps⟩ := hc
          have hhead : p.header = q.header := by
            simp only [pieceBytes_cons, Piece.bytes, List.append_assoc] at heq
            exact header_eq_of_bytes heq
          have hqlen := length_bytes_of_whole hq
          rw [pieceBytes_cons, pieceBytes_cons, List.append_assoc] at heq
          by_cases hnil : ps = []
          · -- the last piece holds no more than the message it begins
            have hlen := congrArg List.length heq
            have hfits := p.fits
            rw [hnil] at hlen
            simp only [List.length_append, pieceBytes_nil, List.length_nil, Header.length_bytes,
              Piece.length_bytes, headerLen] at hlen hqlen
            rw [hhead] at hfits
            omega
          · have hplen := length_bytes_of_whole (hlast hnil)
            obtain ⟨-, htail⟩ := List.append_inj heq (by rw [hplen, hqlen, hhead])
            exact ih hps hqs htail

/-- The chunks of well-formed messages are harmless: no length in them wraps. -/
theorem harmless_chain {ps : List Piece} {off : Nat} (hc : Chain ps)
    (hlen : off + (pieceBytes ps).length < 2 ^ 63) : Harmless off (pieceBytes ps) := by
  intro qs h rest hw heq
  have hshort := payloadLen_lt_of_chain hc hw heq
  have hin := congrArg List.length heq
  simp only [List.length_append, Header.length_bytes] at hin
  exact .inl ⟨by omega, fun _ => by omega⟩

/-- What a loop finds first is the header it stands on. -/
theorem walkFrom_head {body rest : List UInt8} {next : Nat → Option Nat} {h : Header}
    {found : List (Nat × Header)} (hbody : body.drop pos = h.bytes ++ rest)
    (hwalk : walkFrom body next rounds pos = some found) :
    ∃ later, found = (pos, h) :: later ∧
      ∀ pos', next pos = some pos' → ∃ rounds', walkFrom body next rounds' pos' = some later := by
  cases rounds with
  | zero => cases hwalk
  | succ rounds =>
      rw [walkFrom, if_pos (stands_of_drop hbody), readHeader_of_drop hbody] at hwalk
      cases hn : next pos with
      | none =>
          simp only [hn] at hwalk
          exact ⟨[], (Option.some.inj hwalk).symm, fun pos' hpos' => nomatch hpos'⟩
      | some pos' =>
          simp only [hn] at hwalk
          obtain ⟨later, hlater, rfl⟩ := Option.map_eq_some_iff.mp hwalk
          refine ⟨later, rfl, ?_⟩
          rintro _ ⟨⟩
          exact ⟨rounds, hlater⟩

/-- There is an offset for every piece. -/
theorem length_offsets (pos : Nat) (ps : List Piece) : (offsets pos ps).length = ps.length := by
  induction ps generalizing pos with
  | nil => rfl
  | cons p ps ih => rw [offsets, List.length_cons, List.length_cons, ih]

/-- The headers of whole messages announce no more than is there. -/
theorem payloadLen_le_of_mem_offsets {ps : List Piece} (hw : Whole ps) {x : Nat × Header}
    (hx : x ∈ offsets pos ps) : x.2.payloadLen.toNat ≤ (pieceBytes ps).length := by
  induction ps generalizing pos with
  | nil => cases hx
  | cons p ps ih =>
      obtain ⟨hp, hps⟩ := List.forall_mem_cons.mp hw
      rw [pieceBytes_cons, List.length_append]
      rcases List.mem_cons.mp hx with rfl | hx
      · rw [length_bytes_of_whole hp]
        show p.header.payloadLen.toNat ≤ _
        omega
      · exact (ih hps hx).trans (Nat.le_add_left _ _)

/-- If `scan` moves on from a header although the sum wraps, it wraps to behind
the header's start. -/
theorem scan_wraps_inside {body rest : List UInt8} {h : Header} (hlen : body.length < 2 ^ 63)
    (hincr : Increases (scanNext body)) (hv : Visited (scanNext body) pos)
    (hbody : body.drop pos = h.bytes ++ rest) (hsum : 2 ^ 64 ≤ pos + headerLen + h.payloadLen.toNat) :
    2 ^ 64 < headerLen + h.payloadLen.toNat := by
  have hfit := (stands_of_drop hbody).1
  have hlt := h.payloadLen.toNat_lt
  have hmod : (pos + headerLen + h.payloadLen.toNat) % 2 ^ 64 =
      pos + headerLen + h.payloadLen.toNat - 2 ^ 64 := by
    simp only [headerLen] at *
    omega
  have hnext : scanNext body pos = some (pos + headerLen + h.payloadLen.toNat - 2 ^ 64) := by
    rw [scanNext, if_pos (stands_of_drop hbody), readHeader_of_drop hbody, hmod, if_neg (by omega)]
  have hmoved := hincr pos _ hv hnext
  omega

/-- If the split with the whole buffer's length does not panic, no sum wraps at
the first long DataEND it finds. -/
theorem sum_lt_of_split {buf : List UInt8} {start rel : Nat} {h : Header}
    {before after : List (Nat × Header)} (hlen : buf.length < 2 ^ 63)
    (hsplit : (splitFirstDataEnd buf start buf.length).isSome = true)
    (hfound : headers (buf.drop start) = some (before ++ (rel, h) :: after))
    (hbefore : ∀ x ∈ before, x.2.messageType ≠ msgDataEnd ∨ x.2.payloadLen.toNat ≤ buf.length)
    (hfit : start + rel + headerLen ≤ buf.length) (htype : h.messageType = msgDataEnd) :
    start + rel + headerLen + h.payloadLen.toNat < 2 ^ 64 := by
  by_contra hsum
  rw [splitFirstDataEnd, if_neg (by simp only [headerLen] at hfit; omega), hfound, Option.bind_some,
    splitLoop_panics hbefore htype (by omega) hfit hlen (by omega)] at hsplit
  cases hsplit

/-- What `headers` finds first are the whole messages in front. -/
theorem headers_whole {body tail : List UInt8} {ps : List Piece} {found : List (Nat × Header)}
    (hlen : body.length < 2 ^ 64) (hw : Whole ps) (hbody : body = pieceBytes ps ++ tail)
    (hfound : headers body = some found) :
    ∃ later rounds, found = offsets 0 ps ++ later ∧
      walkFrom body (headersNext body) rounds (pieceBytes ps).length = some later := by
  have hrounds : body.length + 1 = ps.length + (body.length + 1 - ps.length) := by
    have hcount := length_le_pieceBytes ps
    rw [hbody, List.length_append]
    omega
  rw [headers_eq_walkFrom, hrounds, walkFrom_whole (loop_headersNext body) hlen hw (Nat.zero_le _) hbody,
    Nat.zero_add] at hfound
  obtain ⟨later, hlater, rfl⟩ := Option.map_eq_some_iff.mp hfound
  exact ⟨later, _, rfl, hlater⟩

/-- **Only on harmless buffers** do the loops end. -/
theorem harmless_of_walksEnd {buf : List UInt8} {pending : Nat} (hlen : buf.length < 2 ^ 63)
    (W : WalksEnd buf pending) :
    Harmless (min pending buf.length) (buf.drop (min pending buf.length)) := by
  intro ps h rest hw hbody
  obtain ⟨found, hfound, hcount⟩ := W.headers_returns
  have hincr := W.scan_increases
  have hsplit := W.split buf.length
  have hsize : min pending buf.length + (buf.drop (min pending buf.length)).length = buf.length := by
    rw [List.length_drop]
    omega
  have hsum {rel : Nat} {x : Header} {before after : List (Nat × Header)} :=
    @sum_lt_of_split buf (min pending buf.length) rel x before after hlen hsplit
  generalize min pending buf.length = off at *
  generalize buf.drop off = body at *
  have hdrop := drop_pieceBytes hbody
  have L := @loop_scanNext body (by omega)
  have hvisited := visited_whole L (by omega) hw hbody
  have hfit := (stands_of_drop hdrop).1
  have hbefore : ∀ x ∈ offsets 0 ps,
      x.2.messageType ≠ msgDataEnd ∨ x.2.payloadLen.toNat ≤ buf.length :=
    fun x hx => .inr ((payloadLen_le_of_mem_offsets hw hx).trans (by omega))
  obtain ⟨_, rounds, rfl, hwalk⟩ := headers_whole (by omega) hw hbody hfound
  obtain ⟨later, rfl, hlater⟩ := walkFrom_head hdrop hwalk
  have hdataEnd := hsum hfound hbefore (by omega)
  by_cases hpos : (pieceBytes ps).length + headerLen + h.payloadLen.toNat < 2 ^ 64
  · exact .inl ⟨hpos, hdataEnd⟩
  have hwrap := scan_wraps_inside (by omega) hincr hvisited hdrop (by omega)
  have htype : h.messageType ≠ msgDataEnd := fun htype => by
    have := hdataEnd htype
    omega
  refine .inr ⟨hwrap, htype, fun h' rest' hdrop' => ?_⟩
  obtain ⟨-, hlow⟩ := inner_header hwrap hdrop'
  obtain ⟨rounds', hwalk'⟩ := hlater _ ((loop_headersNext body).wraps hdrop hwrap)
  have hvisited' := hvisited.step (L.wraps hdrop hwrap)
  generalize headerLen + h.payloadLen.toNat - 2 ^ 64 = d at *
  have hinner : body.drop ((pieceBytes ps).length + d) = h'.bytes ++ rest' := by
    rw [← List.drop_drop, hdrop, hdrop']
  have hfit' := (stands_of_drop hinner).1
  obtain ⟨later', rfl, -⟩ := walkFrom_head hinner hwalk'
  rw [← List.singleton_append, ← List.append_assoc] at hfound
  refine ⟨?_, ?_, hsum hfound ?_ (by omega)⟩
  · have htwo : ps.length + 2 ≤
        (offsets 0 ps ++ ((pieceBytes ps).length, h) :: ((pieceBytes ps).length + d, h') :: later').length := by
      rw [List.length_append, length_offsets, List.length_cons, List.length_cons]
      omega
    exact (Nat.mul_le_mul_left headerLen htwo).trans hcount
  · by_contra hpos'
    have := scan_wraps_inside (by omega) hincr hvisited' hinner (by omega)
    omega
  · intro x hx
    rcases List.mem_append.mp hx with hx | hx
    · exact hbefore x hx
    · rw [List.mem_singleton.mp hx]
      exact .inl htype

/-- **When the header loops end**, for a chunk no longer than a slice can be. -/
theorem walksEnd_iff {buf : List UInt8} {pending : Nat} (hlen : buf.length < 2 ^ 63) :
    WalksEnd buf pending ↔
      Harmless (min pending buf.length) (buf.drop (min pending buf.length)) :=
  ⟨harmless_of_walksEnd hlen, walksEnd_of_harmless hlen⟩

theorem walksEnd_iff_reply :
    (message msgDataEnd 0 22 [0x31]).length < 2 ^ 63 ∧ WalksEnd (message msgDataEnd 0 22 [0x31]) 0 := by
  refine ⟨by decide, (walksEnd_iff (by decide)).mpr ?_⟩
  intro ps h rest hw hbody
  have hcount := headerLen_mul_length_le ps
  have hsize := congrArg List.length hbody
  simp only [List.length_append, Header.length_bytes] at hsize
  have hps : ps = [] := by
    refine List.eq_nil_of_length_eq_zero ?_
    have hlong : (List.drop (min 0 (message msgDataEnd 0 22 [0x31]).length)
        (message msgDataEnd 0 22 [0x31])).length = 17 := by decide
    simp only [headerLen] at *
    omega
  subst hps
  have hread : readHeader (message msgDataEnd 0 22 [0x31]) 0 = h := readHeader_of_drop hbody
  rw [← hread]
  exact .inl ⟨by decide, fun _ => by decide⟩

/-- A header whose length makes `scan` and `headers` stay where they are. -/
def lastLength : List UInt8 :=
  [0x48, 0x53, 0, 0, 0, 0, 0, 0, 0xff, 0xff, 0xff, 0xff, 0xff, 0xff, 0xff, 0xf0]

theorem not_walksEnd_lastLength :
    scanNext lastLength 0 = some 0 ∧ scan lastLength = none ∧ headers lastLength = none ∧
      ¬ WalksEnd lastLength 0 := by
  refine ⟨by decide, by decide, by decide, fun W => ?_⟩
  have hstays : scanNext (lastLength.drop (min 0 lastLength.length)) 0 = some 0 := by decide
  exact Nat.lt_irrefl 0 (W.scan_increases 0 0 .start hstays)

end TestGear.Hislip
