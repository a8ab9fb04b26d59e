import TestGear.Hislip.Stream
import TestGear.Hislip.Tracker

/-!
# TestGear.Hislip.Observe

Does the log depend on how TCP cuts the stream?  The tracker carries one
number per direction from chunk to chunk: the payload bytes owed by the last
header.  While that number is right, one `observe` call records exactly the
headers that begin in its chunk and leaves the number right again
(`observe_chain`).

There is one kind of chunk after which it is not: a chunk that lies strictly
inside one payload.  `observe` first takes the chunk's bytes off the count
and then stores the leftover of an empty scan over it, so the count drops to
zero while payload is still owed, and the next chunk is read as if it started
with a header.

* `observe_chunks_exact` — the log is exact, in every state a run reaches, as
  long as no chunk lies strictly inside a payload;
* `observe_loses_header` — a message cut into three chunks hides the message
  behind it.
-/

namespace TestGear.Hislip

/-! ## Cuts of a stream -/

/-- `chunks` is the byte stream of `ms`, cut into non-empty chunks with no cut
strictly inside a header. -/
structure Segmentation (ms : List Message) (chunks : List (List UInt8)) : Prop where
  bytes : chunks.flatten = wire ms
  nonempty : ∀ c ∈ chunks, c ≠ []
  header_whole : ∀ k ≤ chunks.length, insideHeader ms (chunks.take k).flatten.length = false

/-- Does the chunk from offset `lo` to offset `hi` lie strictly inside one
payload: begun behind its header, ended before its last byte? -/
def insidePayload : List Message → Nat → Nat → Bool
  | [], _, _ => false
  | m :: ms, lo, hi =>
      (headerLen ≤ lo && hi < m.size) ||
        (m.size ≤ lo && insidePayload ms (lo - m.size) (hi - m.size))

/-- No chunk lies strictly inside a payload: every message is spread over at
most two chunks. -/
def NoInnerChunk (ms : List Message) (chunks : List (List UInt8)) : Prop :=
  ∀ k < chunks.length,
    insidePayload ms (chunks.take k).flatten.length (chunks.take (k + 1)).flatten.length = false

/-- The headers of the messages that begin before offset `n` of the stream. -/
def headersBefore : List Message → Nat → List Header
  | [], _ => []
  | m :: ms, n => if n = 0 then [] else m.header :: headersBefore ms (n - m.size)

@[simp] theorem headersBefore_zero (ms : List Message) : headersBefore ms 0 = [] := by
  cases ms <;> simp [headersBefore]

theorem insidePayload_zero (ms : List Message) (hi : Nat) : insidePayload ms 0 hi = false := by
  cases ms with
  | nil => rfl
  | cons m ms =>
      have hsize := m.headerLen_le_size
      have hpos : ¬ m.size ≤ 0 := by simp only [headerLen] at hsize; omega
      simp [insidePayload, headerLen, hpos]

/-- Behind whole messages, a chunk is judged by the messages that follow. -/
theorem insidePayload_append (xs ys : List Message) (h : (wire xs).length ≤ lo) (hlh : lo ≤ hi) :
    insidePayload (xs ++ ys) lo hi =
      insidePayload ys (lo - (wire xs).length) (hi - (wire xs).length) := by
  induction xs generalizing lo hi with
  | nil => simp
  | cons m xs ih =>
      simp only [wire_cons, List.length_append, Message.length_bytes] at h ⊢
      have hle : m.size ≤ lo := by omega
      have hhi : ¬ hi < m.size := by omega
      simp only [List.cons_append, insidePayload, hle, hhi, decide_false, decide_true,
        Bool.and_false, Bool.false_or, Bool.true_and]
      rw [ih (by omega) (by omega), Nat.sub_sub, Nat.sub_sub]

/-- A chunk that stays within the payload still to come lies strictly inside
that payload. -/
theorem insidePayload_of_lt_carry {later : List Message} (h : Arrived begun ps carry)
    (hhi : hi < carry.length) :
    insidePayload (begun ++ later) ((pieceBytes ps).length + lo) ((pieceBytes ps).length + hi) =
      true := by
  induction h with
  | nil => simp at hhi
  | last m p carry hh hb =>
      have hlo : headerLen ≤ headerLen + p.body.length + lo := by omega
      have hsize : headerLen + p.body.length + hi < m.size := by
        rw [Message.size, hb, List.length_append]; omega
      simp [insidePayload, hlo, hsize]
  | @cons m ms ps carry h ih =>
      have hbytes : (m.piece.bytes).length = m.size := by simp
      simp only [pieceBytes_cons, List.length_append, hbytes, List.cons_append, insidePayload]
      rw [Nat.add_assoc, Nat.add_assoc, Nat.add_sub_cancel_left, Nat.add_sub_cancel_left, ih hhi]
      simp

/-- What has begun by an offset behind a chunk: what began in the chunk, and
what begins behind the payload it leaves owed. -/
theorem headersBefore_arrived {later : List Message} (h : Arrived begun ps carry) (n : Nat) :
    headersBefore (begun ++ later) ((pieceBytes ps).length + n) =
      begun.map Message.header ++ headersBefore later (n - carry.length) := by
  induction h with
  | nil => simp
  | last m p carry hh hb =>
      have hpos : headerLen + p.body.length + n ≠ 0 := by simp only [headerLen]; omega
      have hrest : headerLen + p.body.length + n - m.size = n - carry.length := by
        rw [Message.size, hb, List.length_append]; omega
      simp only [pieceBytes_cons, pieceBytes_nil, List.append_nil, Piece.length_bytes,
        List.cons_append, List.nil_append, headersBefore, if_neg hpos, hrest, List.map_cons,
        List.map_nil]
  | cons m h ih =>
      have hbytes : (m.piece.bytes).length = m.size := by simp
      have hsize := m.headerLen_le_size
      simp only [pieceBytes_cons, List.length_append, hbytes, List.cons_append, headersBefore,
        List.map_cons]
      rw [if_neg (by simp only [headerLen] at hsize; omega), Nat.add_assoc,
        Nat.add_sub_cancel_left, ih]

/-- All messages have begun by the end of the stream. -/
theorem headersBefore_wire (ms : List Message) :
    headersBefore ms (wire ms).length = ms.map Message.header := by
  induction ms with
  | nil => rfl
  | cons m ms ih =>
      have hsize := m.headerLen_le_size
      simp only [wire_cons, List.length_append, Message.length_bytes, headersBefore, List.map_cons]
      rw [if_neg (by simp only [headerLen] at hsize; omega), Nat.add_sub_cancel_left, ih]

/-! ## One chunk off the front -/

/-- `chunks` are cut from the front of `carry ++ wire ms` and `rest` is left:
no cut inside a header, no chunk strictly inside a payload. -/
structure Cuts (carry : List UInt8) (ms : List Message) (chunks : List (List UInt8))
    (rest : List UInt8) : Prop where
  bytes : chunks.flatten ++ rest = carry ++ wire ms
  header_whole : ∀ k ≤ chunks.length,
    insideHeader ms ((chunks.take k).flatten.length - carry.length) = false
  carry_first : ∀ c cs, chunks = c :: cs → carry.length ≤ c.length
  no_inner : ∀ k < chunks.length,
    insidePayload ms ((chunks.take k).flatten.length - carry.length)
      ((chunks.take (k + 1)).flatten.length - carry.length) = false

/-- The first chunk is the payload owed and then a chain; what follows it is
cut in the same way, from the payload the chain leaves owed. -/
theorem Cuts.uncons (h : Cuts carry ms (c :: cs) rest) :
    ∃ begun later ps carry', ms = begun ++ later ∧ Arrived begun ps carry' ∧
      c = carry ++ pieceBytes ps ∧ Cuts carry' later cs rest := by
  have hbytes := h.bytes
  rw [List.flatten_cons, List.append_assoc] at hbytes
  obtain ⟨c', rfl, hwire⟩ := append_eq_append_of_le hbytes.symm (h.carry_first c cs rfl)
  have hcut : insideHeader ms c'.length = false := by simpa using h.header_whole 1 (by simp)
  obtain ⟨begun, later, ps, carry', rfl, harr, rfl, hrest⟩ := exists_arrived ms hwire.symm hcut
  have hsum : (pieceBytes ps).length + carry'.length = (wire begun).length := by
    rw [← harr.append_carry, List.length_append]
  -- offsets behind this chunk, counted from its end
  have hoff (k : Nat) : (((carry ++ pieceBytes ps) :: cs).take (k + 1)).flatten.length -
      carry.length = (pieceBytes ps).length + (cs.take k).flatten.length := by
    simp only [List.take_succ_cons, List.flatten_cons, List.length_append]
    omega
  have hinner (k : Nat) (hk : k < cs.length) := h.no_inner (k + 1) (by simpa using hk)
  simp only [hoff] at hinner
  refine ⟨begun, later, ps, carry', rfl, harr, rfl, hrest, fun k hk => ?_, fun d ds hd => ?_,
    fun k hk => ?_⟩
  · have hk' := h.header_whole (k + 1) (by simpa using hk)
    rw [hoff] at hk'
    rcases Nat.lt_or_ge (cs.take k).flatten.length carry'.length with hlt | hge
    · rw [Nat.sub_eq_zero_of_le (Nat.le_of_lt hlt), insideHeader_zero]
    · rw [insideHeader_append begun later (by omega)] at hk'
      rw [← hk']
      congr 1
      omega
  · subst hd
    by_contra hlt
    have h0 := hinner 0 (by simp)
    simp only [List.take_zero, List.flatten_nil, List.length_nil, Nat.zero_add,
      List.take_succ_cons, List.flatten_cons, List.append_nil] at h0
    rw [insidePayload_of_lt_carry harr (Nat.lt_of_not_le hlt)] at h0
    exact Bool.noConfusion h0
  · have hmono : (cs.take k).flatten.length ≤ (cs.take (k + 1)).flatten.length := by
      rw [List.take_add_one]
      simp
    have hk' := hinner k hk
    rcases Nat.lt_or_ge (cs.take k).flatten.length carry'.length with hlt | hge
    · rw [Nat.sub_eq_zero_of_le (Nat.le_of_lt hlt), insidePayload_zero]
    · rw [insidePayload_append begun later (by omega) (by omega)] at hk'
      rw [← hk']
      congr 1 <;> omega

/-! ## Feeding chunks to the tracker -/

namespace Tracker

/-- Feed the chunks of one direction to the tracker, in order. -/
def observeAll (t : Tracker) (side : Side) (chunks : List (List UInt8)) : Option Tracker :=
  chunks.foldlM (fun t c => t.observe c side) t

@[simp] theorem observeAll_nil (t : Tracker) (side : Side) : t.observeAll side [] = some t := rfl

@[simp] theorem observeAll_cons (t : Tracker) (side : Side) (c : List UInt8)
    (cs : List (List UInt8)) :
    t.observeAll side (c :: cs) = (t.observe c side).bind fun t' => t'.observeAll side cs := rfl

end Tracker

@[simp] theorem Pending.get_set (p : Pending) (n : Nat) (side : Side) :
    (p.set n side).get side = n := by
  cases side <;> rfl

@[simp] theorem Pending.set_set (p : Pending) (m n : Nat) (side : Side) :
    (p.set m side).set n side = p.set n side := by
  cases side <;> rfl

/-- **One chunk**: with the pending count right, a chunk that is the rest of
the payload owed and then a chain records the chain's headers and leaves the
count at what the chain owes. -/
theorem observe_chain {t : Tracker} {side : Side} {carry : List UInt8} {ps : List Piece}
    (hp : t.pending.get side = carry.length) (hc : Chain ps)
    (hlen : (pieceBytes ps).length < 2 ^ 63) :
    t.observe (carry ++ pieceBytes ps) side =
      some { t with
        seen := t.seen ++ (ps.map Piece.header).map fun header => ⟨side, header⟩
        pending := t.pending.set (owed ps) side } := by
  have htake : takePending (t.pending.get side) (carry ++ pieceBytes ps).length =
      (carry.length, 0) := by
    simp [takePending, hp]
  simp only [Tracker.observe, htake, drop_append_of_length rfl, scan_chain hc hlen,
    Option.map_some, Pending.set_set]

/-- **A run of chunks**, from any state in which the pending count is right. -/
theorem observeAll_of_cuts {side : Side} {chunks : List (List UInt8)} {ms : List Message}
    {carry rest : List UInt8} {t : Tracker} (hcuts : Cuts carry ms chunks rest)
    (hlen : ∀ c ∈ chunks, c.length < 2 ^ 63) (hp : t.pending.get side = carry.length) :
    ∃ t', t.observeAll side chunks = some t' ∧
      t'.seen = t.seen ++ (headersBefore ms (chunks.flatten.length - carry.length)).map
        fun header => ⟨side, header⟩ := by
  induction chunks generalizing ms carry t with
  | nil => exact ⟨t, rfl, by simp⟩
  | cons c cs ih =>
      obtain ⟨begun, later, ps, carry', rfl, harr, rfl, hcuts'⟩ := hcuts.uncons
      have hshort : (pieceBytes ps).length < 2 ^ 63 := by
        have := hlen _ List.mem_cons_self
        rw [List.length_append] at this
        omega
      obtain ⟨t₁, hobs, hseen₁, hp₁⟩ : ∃ t₁, t.observe (carry ++ pieceBytes ps) side = some t₁ ∧
          t₁.seen = t.seen ++ (begun.map Message.header).map (fun header => ⟨side, header⟩) ∧
          t₁.pending.get side = carry'.length := by
        refine ⟨_, observe_chain hp harr.chain hshort, by rw [harr.map_header], ?_⟩
        rw [Pending.get_set, harr.owed_eq]
      obtain ⟨t', hrun, hseen⟩ := ih hcuts' (fun c hc => hlen c (List.mem_cons_of_mem _ hc)) hp₁
      refine ⟨t', by simp [hobs, hrun], ?_⟩
      have hall : (((carry ++ pieceBytes ps) :: cs).flatten).length - carry.length =
          (pieceBytes ps).length + cs.flatten.length := by
        simp only [List.flatten_cons, List.length_append]
        omega
      rw [hseen, hseen₁, hall, headersBefore_arrived harr]
      simp

/-! ## The log and the segmentation -/

/-- Fed to a fresh tracker, the chunks record the messages' headers, once each
and in order, and nothing else. -/
def RecordsExactly (side : Side) (ms : List Message) (chunks : List (List UInt8)) : Prop :=
  ∃ t, Tracker.new.observeAll side chunks = some t ∧
    t.snapshot = ms.map fun m => ⟨side, m.header⟩

/-- **Observation does not depend on the segmentation**, in every run in which
no chunk lies strictly inside a payload: after any number of chunks the log is
exactly the headers of the messages begun so far, and in the end it is all of
them. -/
theorem observe_chunks_exact (side : Side) (ms : List Message) (chunks : List (List UInt8))
    (hlen : (wire ms).length < 2 ^ 63) (hseg : Segmentation ms chunks)
    (hin : NoInnerChunk ms chunks) :
    (∀ k ≤ chunks.length, ∃ t, Tracker.new.observeAll side (chunks.take k) = some t ∧
      t.snapshot = (headersBefore ms (chunks.take k).flatten.length).map
        fun header => ⟨side, header⟩) ∧
    RecordsExactly side ms chunks := by
  have hstate (k : Nat) (hk : k ≤ chunks.length) :
      ∃ t, Tracker.new.observeAll side (chunks.take k) = some t ∧
        t.snapshot = (headersBefore ms (chunks.take k).flatten.length).map
          fun header => ⟨side, header⟩ := by
    have hcuts : Cuts [] ms (chunks.take k) (chunks.drop k).flatten := by
      refine ⟨?_, fun j hj => ?_, fun _ _ _ => Nat.zero_le _, fun j hj => ?_⟩
      · rw [← List.flatten_append, List.take_append_drop, hseg.bytes, List.nil_append]
      · rw [List.length_take] at hj
        rw [List.take_take, Nat.min_eq_left (by omega)]
        exact hseg.header_whole j (by omega)
      · rw [List.length_take] at hj
        rw [List.take_take, List.take_take, Nat.min_eq_left (by omega),
          Nat.min_eq_left (by omega)]
        exact hin j (by omega)
    have hshort (c : List UInt8) (hc : c ∈ chunks.take k) : c.length < 2 ^ 63 := by
      have hle := (List.sublist_flatten_of_mem (List.mem_of_mem_take hc)).length_le
      rw [hseg.bytes] at hle
      omega
    have hp : Tracker.new.pending.get side = ([] : List UInt8).length := by cases side <;> rfl
    obtain ⟨t, hrun, hseen⟩ := observeAll_of_cuts hcuts hshort hp
    exact ⟨t, hrun, by simpa [Tracker.snapshot, Tracker.new] using hseen⟩
  refine ⟨hstate, ?_⟩
  obtain ⟨t, hrun, hseen⟩ := hstate chunks.length (Nat.le_refl _)
  rw [List.take_length, hseg.bytes, headersBefore_wire, List.map_map] at hseen
  exact ⟨t, by simpa using hrun, hseen⟩

/-- A message of three payload bytes followed by an empty one. -/
def twoMessages : List Message :=
  [⟨msgDataEnd, 0, 0xFFFFFF00, [1, 2, 3], Message.short_three⟩, ⟨msgDataEnd, 0, 0xFFFFFF02, [], Message.short_nil⟩]

/-- `twoMessages`, the first payload cut in two: within the bound. -/
theorem observe_chunks_exact_two :
    Segmentation twoMessages [(wire twoMessages).take 17, (wire twoMessages).drop 17] ∧
      RecordsExactly .server twoMessages
        [(wire twoMessages).take 17, (wire twoMessages).drop 17] := by
  have hseg : Segmentation twoMessages
      [(wire twoMessages).take 17, (wire twoMessages).drop 17] :=
    ⟨by decide, by decide, by decide⟩
  exact ⟨hseg, (observe_chunks_exact .server twoMessages _ (by decide) hseg
    (by unfold NoInnerChunk; decide)).2⟩

/-- The first payload cut in three: the middle chunk lies strictly inside it,
the count is lost, and the second message's header is never recorded. -/
theorem observe_loses_header :
    Segmentation twoMessages [(wire twoMessages).take 17, ((wire twoMessages).drop 17).take 1,
        (wire twoMessages).drop 18] ∧
      ¬ RecordsExactly .server twoMessages [(wire twoMessages).take 17,
        ((wire twoMessages).drop 17).take 1, (wire twoMessages).drop 18] := by
  refine ⟨⟨by decide, by decide, by decide⟩, ?_⟩
  rintro ⟨t, hrun, hseen⟩
  have hlog : (Tracker.new.observeAll .server [(wire twoMessages).take 17,
      ((wire twoMessages).drop 17).take 1, (wire twoMessages).drop 18]).map Tracker.snapshot =
      some [⟨.server, ⟨msgDataEnd, 0, 0xFFFFFF00, 3⟩⟩] := by decide
  rw [hrun, Option.map_some, hseen] at hlog
  exact absurd hlog (by decide)

end TestGear.Hislip
