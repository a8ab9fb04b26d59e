import TestGear.Hislip.Inject
import TestGear.Proxy
import TestGear.Vxi11.Rewrite

/-!
# TestGear.Proxy.Limits

The byte limits against the message faults.  The limits are counted on the
reads as they are received, while a stale record makes what is written 40
bytes longer and a split DataEND 16, and the read that passes a limit skips
the rewrite.

* `length_pass` — what a read is lengthened by (`Trackers.added`);
* `take_pass` — what is rewritten behind the hits leaves the bytes before them;
* `limits_hold` — what is written is a prefix of the rewritten stream and within
  every limit that is set, if there is room for what is added and no fault hits
  the bytes let through of the read that is cut.
-/

/-! ## Stale records -/

namespace TestGear.Vxi11

/-- How many records of a buffer get a stale one put in front. -/
def Tracker.staleReplies (t : Tracker) (buf : List UInt8) : Nat :=
  ((wholeRecords buf).getD []).countP fun (_, bodyAt, bodyLen) =>
    staleHits t.faults ((readU32 (slice buf bodyAt bodyLen) 0).bind t.calls)

theorem countP_spans (calls : Calls) (f : Vxi11Faults) {buf : List UInt8} {rs : List Record}
    (hpos : pos ≤ buf.length) (hbuf : buf.drop pos = recordBytes rs) :
    (spans pos rs).countP (fun (_, bodyAt, bodyLen) =>
        staleHits f ((readU32 (slice buf bodyAt bodyLen) 0).bind calls)) =
      rs.countP fun r => staleHits f (procOf calls r) := by
  induction rs generalizing pos with
  | nil => rfl
  | cons r rs ih =>
      obtain ⟨hlen, -, hbody, htail⟩ := drop_record hpos hbuf
      rw [spans, List.countP_cons, List.countP_cons, ih (by omega) htail]
      simp only [hbody, procOf]
      rfl

theorem length_deliveryBytes (calls : Calls) (f : Vxi11Faults) (rs : List Record) :
    (deliveryBytes (rs.map (delivered calls f))).length =
      (recordBytes rs).length + 40 * rs.countP fun r => staleHits f (procOf calls r) := by
  induction rs with
  | nil => rfl
  | cons r rs ih =>
      have hone : (delivered calls f r).bytes.length =
          r.bytes.length + if staleHits f (procOf calls r) then 40 else 0 := by
        cases h : staleHits f (procOf calls r) <;>
          simp [delivered, Delivery.bytes, h, length_rewrittenBody, length_staleRecord]
        omega
      rw [List.map_cons, deliveryBytes, List.flatMap_cons, List.length_append, hone,
        recordBytes_cons, List.length_append, List.countP_cons]
      rw [deliveryBytes] at ih
      split <;> omega

/-- What goes out for a buffer is 40 bytes longer for every stale record. -/
theorem length_rewriteReplies (t : Tracker) (buf : List UInt8) :
    ((t.rewriteReplies buf).1.getD buf).length = buf.length + 40 * t.staleReplies buf := by
  cases hfound : wholeRecords buf with
  | none => simp [rewriteReplies_of_not_records t hfound, Tracker.staleReplies, hfound]
  | some found =>
      obtain ⟨rs, hne, rfl, rfl⟩ := wholeRecords_eq_some_iff.mp hfound
      have hout : (t.rewriteReplies (recordBytes rs)).1.getD (recordBytes rs) =
          deliveryBytes (rs.map (delivered t.calls t.faults)) := by
        rw [rewriteReplies_records t hne]
        cases hany : rs.any (touches t.calls t.faults) with
        | true => rfl
        | false => exact (deliveryBytes_of_not_touches hany).symm
      rw [hout, length_deliveryBytes, Tracker.staleReplies, hfound, Option.getD_some,
        countP_spans t.calls t.faults (Nat.zero_le _) List.drop_zero]

/-- Up to the first record that is hit, what goes out is what came. -/
theorem take_deliveryBytes (calls : Calls) (f : Vxi11Faults) {rs : List Record} {k : Nat}
    (h : ∀ before r after, rs = before ++ r :: after → (recordBytes before).length < k →
      touches calls f r = false) :
    (deliveryBytes (rs.map (delivered calls f))).take k = (recordBytes rs).take k := by
  induction rs generalizing k with
  | nil => rfl
  | cons r rs ih =>
      by_cases hk : k = 0
      · rw [hk, List.take_zero, List.take_zero]
      have hone := delivered_of_not_touches (h [] r rs rfl (Nat.pos_of_ne_zero hk))
      have hrest := @ih (k - r.bytes.length) fun before r' after hsplit hlt =>
        h (r :: before) r' after (by rw [hsplit]; rfl) (by
          rw [recordBytes_cons, List.length_append]; omega)
      rw [List.map_cons, deliveryBytes, List.flatMap_cons, hone, recordBytes_cons, List.take_append,
        List.take_append, ← hrest, deliveryBytes]

/-- What goes out for a buffer, up to the first record that is hit. -/
theorem take_rewriteReplies (t : Tracker) {buf : List UInt8} {k : Nat}
    (h : ∀ before r after, buf = recordBytes (before ++ r :: after) →
      (recordBytes before).length < k → touches t.calls t.faults r = false) :
    ((t.rewriteReplies buf).1.getD buf).take k = buf.take k := by
  cases hfound : wholeRecords buf with
  | none => rw [rewriteReplies_of_not_records t hfound, Option.getD_none]
  | some found =>
      obtain ⟨rs, hne, rfl, rfl⟩ := wholeRecords_eq_some_iff.mp hfound
      rw [rewriteReplies_records t hne]
      split
      · exact take_deliveryBytes t.calls t.faults fun before r after hsplit =>
          h before r after (by rw [hsplit])
      · rfl

end TestGear.Vxi11

/-! ## Split messages -/

namespace TestGear.Hislip

/-- Is a DataEND of this buffer split? -/
def HislipFaults.splits (f : HislipFaults) (pending : Nat) (buf : List UInt8) : Bool :=
  f.splitDataEndAt.any fun cut =>
    (splitFirstDataEnd buf (min pending buf.length) cut).join.isSome

/-- A header that is found is all there. -/
theorem headersFrom_within {buf : List UInt8} {found : List (Nat × Header)}
    (h : headersFrom buf rounds pos = some found) :
    ∀ p ∈ found, p.1 + headerLen ≤ buf.length := by
  induction rounds generalizing pos found with
  | zero => simp [headersFrom] at h
  | succ rounds ih =>
      by_cases hs : Stands buf pos
      · rw [headersFrom_of_stands hs] at h
        split at h
        · simp only [Option.some.injEq] at h
          subst h
          simpa using hs.1
        · obtain ⟨rest, hrest, rfl⟩ := Option.map_eq_some_iff.mp h
          exact List.forall_mem_cons.mpr ⟨hs.1, ih hrest⟩
      · rw [headersFrom_of_not_stands hs, Option.some.injEq] at h
        simp [← h]

/-- One round writes inside the header it stands on. -/
theorem length_rewriteHeader (faults : HislipFaults) (start : Nat) (st : Rewriting)
    {p : Nat × Header} (hp : start + p.1 + headerLen ≤ st.out.length) :
    (rewriteHeader faults start st p).out.length = st.out.length := by
  obtain ⟨rel, header⟩ := p
  have hparam : ∀ (out : List UInt8) (x : UInt32), out.length = st.out.length →
      (splice out (start + rel + 4) (be32 x)).length = st.out.length := by
    intro out x hout
    rw [length_splice (by rw [length_be32, hout]; simp only [headerLen] at hp; omega), hout]
  have hpro : ∀ out : List UInt8, out.length = st.out.length →
      (splice out (start + rel) [0x58]).length = st.out.length := by
    intro out hout
    rw [length_splice (by rw [hout]; simp only [headerLen] at hp; simp; omega), hout]
  simp only [rewriteHeader]
  repeat' split
  all_goals repeat first | rfl | apply hpro | apply hparam

theorem length_foldl_rewriteHeader (faults : HislipFaults) (start : Nat)
    {found : List (Nat × Header)} {st : Rewriting}
    (h : ∀ p ∈ found, start + p.1 + headerLen ≤ st.out.length) :
    (found.foldl (rewriteHeader faults start) st).out.length = st.out.length := by
  induction found generalizing st with
  | nil => rfl
  | cons p found ih =>
      have hone := length_rewriteHeader faults start st (h p List.mem_cons_self)
      rw [List.foldl_cons, ih, hone]
      intro q hq
      rw [hone]
      exact h q (List.mem_cons_of_mem p hq)

@[simp] theorem length_message (messageType controlCode : UInt8) (parameter : UInt32)
    (payload : List UInt8) :
    (message messageType controlCode parameter payload).length = headerLen + payload.length := by
  simp [message, prologue, headerLen]
  omega

/-- The split message has one header more. -/
theorem length_splitLoop {buf out : List UInt8} {start cut : Nat} {found : List (Nat × Header)}
    (h : splitLoop buf start cut found = some (some out)) : out.length = buf.length + headerLen := by
  induction found with
  | nil => simp [splitLoop] at h
  | cons p found ih =>
      obtain ⟨rel, header⟩ := p
      unfold splitLoop at h
      split at h
      · exact ih h
      · split at h
        · exact ih h
        · simp only at h
          split at h
          · cases h
          · split at h
            · cases h
            · next hstop hcut =>
                simp only [Option.some.injEq] at h
                subst h
                simp only [List.length_append, length_message, slice, List.length_take,
                  List.length_drop, headerLen] at hstop hcut ⊢
                omega

theorem length_splitFirstDataEnd {buf out : List UInt8} {start cut : Nat}
    (h : splitFirstDataEnd buf start cut = some (some out)) :
    out.length = buf.length + headerLen := by
  unfold splitFirstDataEnd at h
  split at h
  · cases h
  · obtain ⟨found, -, hloop⟩ := Option.bind_eq_some_iff.mp h
    exact length_splitLoop hloop

theorem splits_of_not_armed {f : HislipFaults} (h : f.armed = false) (pending : Nat)
    (buf : List UInt8) : f.splits pending buf = false := by
  simp only [HislipFaults.armed, Bool.or_eq_false_iff, Option.isSome_eq_false_iff,
    Option.isNone_iff_eq_none] at h
  rw [HislipFaults.splits, h.2]
  rfl

/-- Without a header there is nothing to split. -/
theorem splits_of_headers_nil (f : HislipFaults) {pending : Nat} {buf : List UInt8}
    (h : headers (buf.drop (min pending buf.length)) = some []) : f.splits pending buf = false := by
  unfold HislipFaults.splits
  cases f.splitDataEndAt with
  | none => rfl
  | some cut => by_cases hcut : cut = 0 <;> simp [splitFirstDataEnd, hcut, h, splitLoop]

/-- What the loop gives back is as long as the buffer, changed or not. -/
theorem length_patch (f : HislipFaults) {pending : Nat} {buf : List UInt8}
    {found : List (Nat × Header)}
    (hfound : headers (buf.drop (min pending buf.length)) = some found) (changed : Bool) :
    ((if changed then some (found.foldl (rewriteHeader f (min pending buf.length))
      ⟨buf, false, f⟩).out else none).getD buf).length = buf.length := by
  have hin : ∀ p ∈ found,
      min pending buf.length + p.1 + headerLen ≤ (Rewriting.mk buf false f).out.length := by
    intro p hp
    have hfit := headersFrom_within hfound p hp
    rw [List.length_drop] at hfit
    simp only [headerLen] at hfit ⊢
    omega
  cases changed with
  | false => rfl
  | true => exact length_foldl_rewriteHeader f (min pending buf.length) hin

/-- The body of `rewrite`, if the call it makes on itself only overwrites. -/
theorem length_rewriteWith {again : HislipFaults → List UInt8 → Option Rewritten} {pending : Nat}
    {f g : HislipFaults} {buf : List UInt8} {r : Option (List UInt8)}
    (hagain : ∀ split r g, f.splitDataEndAt.isSome →
      again { f with splitDataEndAt := none } split = some (r, g) →
      (r.getD split).length = split.length)
    (h : rewriteWith again pending f buf = some (r, g)) :
    (r.getD buf).length = buf.length + headerLen * (f.splits pending buf).toNat := by
  unfold rewriteWith at h
  split at h
  · next harm =>
      simp only [Option.some.injEq, Prod.mk.injEq] at h
      simp [← h.1, splits_of_not_armed (by simpa using harm)]
  · obtain ⟨found, hfound, h⟩ := Option.bind_eq_some_iff.mp h
    split at h
    · next hnil =>
        simp only [Option.some.injEq, Prod.mk.injEq] at h
        simp [← h.1, splits_of_headers_nil f (hnil ▸ hfound)]
    · have hpatch := length_patch f hfound
      cases hs : f.splitDataEndAt with
      | none =>
          simp only [hs, Option.some.injEq, Prod.mk.injEq] at h
          simp [← h.1, hpatch, HislipFaults.splits, hs]
      | some cut =>
          simp only [hs] at h
          obtain ⟨split?, hsplit, h⟩ := Option.bind_eq_some_iff.mp h
          cases split? with
          | none =>
              simp only [Option.some.injEq, Prod.mk.injEq] at h
              simp [← h.1, hpatch, HislipFaults.splits, hs, hsplit]
          | some split =>
              obtain ⟨⟨r', g'⟩, hr', hg⟩ := Option.map_eq_some_iff.mp h
              simp only [Prod.mk.injEq] at hg
              have hlen := hagain split r' g' (by rw [hs]; rfl) hr'
              rw [← hg.1, Option.getD_some, hlen, length_splitFirstDataEnd hsplit]
              simp [HislipFaults.splits, hs, hsplit]

/-- What goes out for a buffer is one header longer if a message is split. -/
theorem length_rewrite {t t' : Tracker} {buf : List UInt8} {r : Option (List UInt8)}
    (h : t.rewrite buf = some (r, t')) :
    (r.getD buf).length =
      buf.length + headerLen * (t.faults.splits t.pending.server buf).toNat := by
  obtain ⟨⟨r', g⟩, hr, hrt⟩ := Option.map_eq_some_iff.mp h
  obtain ⟨rfl, -⟩ := Prod.mk.inj hrt
  refine length_rewriteWith ?_ hr
  intro split r g hs hinner
  have hlen := length_rewriteWith (fun _ _ _ hnot => absurd hnot (by simp)) hinner
  simpa [HislipFaults.splits] using hlen

/-- Overwriting leaves what is before. -/
theorem take_splice {buf w : List UInt8} (hk : k ≤ off) (hoff : off ≤ buf.length) :
    (splice buf off w).take k = buf.take k := by
  rw [splice, List.append_assoc, List.take_append_of_le_length (by rw [List.length_take]; omega),
    List.take_take, Nat.min_eq_left hk]

/-- A round over a header that is not hit does nothing. -/
theorem rewriteHeader_of_not_hits {f : HislipFaults} {p : Nat × Header} (h : hits f p.2 = false)
    (start : Nat) (st : Rewriting) : rewriteHeader f start st p = st := by
  obtain ⟨rel, header⟩ := p
  simp only [hits, Bool.or_eq_false_iff, Bool.and_eq_false_iff, Option.isSome_eq_false_iff,
    Option.isNone_iff_eq_none, beq_eq_false_iff_ne] at h
  obtain ⟨⟨hend, hdata⟩, hbreak⟩ := h
  simp only [rewriteHeader, hbreak, Bool.false_eq_true, if_false]
  cases hE : f.skewDataEndId <;> cases hD : f.skewDataId <;> simp_all

/-- One round writes behind the start of a header that is hit, and nowhere
else. -/
theorem take_rewriteHeader (f : HislipFaults) (start : Nat) (st : Rewriting) {p : Nat × Header}
    (hp : start + p.1 + headerLen ≤ st.out.length)
    (h : start + p.1 < k → hits f p.2 = false) :
    (rewriteHeader f start st p).out.take k = st.out.take k := by
  by_cases hk : start + p.1 < k
  · rw [rewriteHeader_of_not_hits (h hk)]
  · obtain ⟨rel, header⟩ := p
    simp only [headerLen] at hp hk
    have hparam : ∀ (out : List UInt8) (x : UInt32), out.length = st.out.length →
        out.take k = st.out.take k →
        (splice out (start + rel + 4) (be32 x)).take k = st.out.take k := by
      intro out x hlen hout
      rw [take_splice (by omega) (by omega), hout]
    have hpro : ∀ out : List UInt8, out.length = st.out.length → out.take k = st.out.take k →
        (splice out (start + rel) [0x58]).take k = st.out.take k := by
      intro out hlen hout
      rw [take_splice (by omega) (by omega), hout]
    have hlen : ∀ (out : List UInt8) (x : UInt32), out.length = st.out.length →
        (splice out (start + rel + 4) (be32 x)).length = st.out.length := by
      intro out x hout
      rw [length_splice (by rw [length_be32]; omega), hout]
    simp only [rewriteHeader]
    repeat' split
    all_goals repeat first | rfl | apply hpro | apply hparam | apply hlen

theorem take_foldl_rewriteHeader (f : HislipFaults) (start : Nat) {found : List (Nat × Header)}
    {st : Rewriting} (hin : ∀ p ∈ found, start + p.1 + headerLen ≤ st.out.length)
    (h : ∀ p ∈ found, start + p.1 < k → hits f p.2 = false) :
    (found.foldl (rewriteHeader f start) st).out.take k = st.out.take k := by
  induction found generalizing st with
  | nil => rfl
  | cons p found ih =>
      have hone := length_rewriteHeader f start st (hin p List.mem_cons_self)
      rw [List.foldl_cons, ih, take_rewriteHeader f start st (hin p List.mem_cons_self)
        (h p List.mem_cons_self)]
      · intro q hq
        rw [hone]
        exact hin q (List.mem_cons_of_mem p hq)
      · exact fun q hq => h q (List.mem_cons_of_mem p hq)

/-- What goes out for a buffer of which nothing is split, up to the first header
that is hit. -/
theorem take_rewrite {t t' : Tracker} {buf : List UInt8} {r : Option (List UInt8)}
    (hr : t.rewrite buf = some (r, t')) (hsplit : t.faults.splits t.pending.server buf = false)
    (h : ∀ found, headers (buf.drop (min t.pending.server buf.length)) = some found →
      ∀ p ∈ found, min t.pending.server buf.length + p.1 < k → hits t.faults p.2 = false) :
    (r.getD buf).take k = buf.take k := by
  obtain ⟨⟨r', g⟩, hrew, hrt⟩ := Option.map_eq_some_iff.mp hr
  obtain ⟨rfl, -⟩ := Prod.mk.inj hrt
  clear hr hrt
  rw [rewriteFaults, rewriteWith] at hrew
  split at hrew
  · obtain ⟨rfl, -⟩ := Prod.mk.inj (Option.some.inj hrew)
    rfl
  obtain ⟨found, hfound, hrew⟩ := Option.bind_eq_some_iff.mp hrew
  split at hrew
  · obtain ⟨rfl, -⟩ := Prod.mk.inj (Option.some.inj hrew)
    rfl
  have hin : ∀ p ∈ found,
      min t.pending.server buf.length + p.1 + headerLen ≤ (Rewriting.mk buf false t.faults).out.length := by
    intro p hp
    have hfit := headersFrom_within hfound p hp
    rw [List.length_drop] at hfit
    simp only [headerLen] at hfit ⊢
    omega
  have hpatch (changed : Bool) : ((if changed then
      some (found.foldl (rewriteHeader t.faults (min t.pending.server buf.length))
        ⟨buf, false, t.faults⟩).out else none).getD buf).take k = buf.take k := by
    cases changed with
    | false => rfl
    | true => exact take_foldl_rewriteHeader t.faults _ hin (h found hfound)
  cases hs : t.faults.splitDataEndAt with
  | none =>
      simp only [hs, Option.some.injEq, Prod.mk.injEq] at hrew
      rw [← hrew.1]
      exact hpatch _
  | some cut =>
      simp only [hs] at hrew
      obtain ⟨split?, hsplit?, hrew⟩ := Option.bind_eq_some_iff.mp hrew
      cases split? with
      | none =>
          simp only [Option.some.injEq, Prod.mk.injEq] at hrew
          rw [← hrew.1]
          exact hpatch _
      | some split =>
          rw [HislipFaults.splits, hs] at hsplit
          simp [hsplit?] at hsplit

end TestGear.Hislip

namespace TestGear.Proxy

/-! ## What is added -/

namespace Trackers

/-- The bytes the trackers add to a read: 40 for a stale record, and one
header for a split message if the VXI-11 tracker has no answer. -/
def added (ts : Trackers) (chunk : List UInt8) : Nat :=
  40 * (ts.vxi11.map (·.staleReplies chunk)).getD 0 +
    Hislip.headerLen * ((ts.rewriteReplies chunk).1.isNone &&
      ts.hislip.any fun h => h.faults.splits h.pending.server chunk).toNat

theorem length_rewriteReplies (ts : Trackers) (chunk : List UInt8) :
    ((ts.rewriteReplies chunk).1.getD chunk).length =
      chunk.length + 40 * (ts.vxi11.map (·.staleReplies chunk)).getD 0 := by
  unfold rewriteReplies
  cases ts.vxi11 with
  | none => rfl
  | some t => exact Vxi11.length_rewriteReplies t chunk

theorem length_rewrite {ts : Trackers} {chunk : List UInt8}
    {r : Option (List UInt8) × Option Hislip.Tracker}
    (h : ts.rewrite (ts.rewriteReplies chunk).1 chunk = some r) :
    (r.1.getD chunk).length = chunk.length + ts.added chunk := by
  have hvxi := ts.length_rewriteReplies chunk
  cases hrep : (ts.rewriteReplies chunk).1 with
  | some out =>
      simp only [hrep, rewrite, Option.some.injEq] at h
      rw [hrep, Option.getD_some] at hvxi
      rw [← h]
      simp [added, hrep, hvxi]
  | none =>
      rw [hrep, Option.getD_none] at hvxi
      cases hh : ts.hislip with
      | none =>
          simp only [hrep, rewrite, hh, Option.some.injEq] at h
          rw [← h]
          simp only [added, hh, Option.getD_none, Option.any_none, Bool.and_false,
            Bool.toNat_false]
          omega
      | some t =>
          simp only [hrep, rewrite, hh] at h
          obtain ⟨⟨r', t'⟩, hr, rfl⟩ := Option.map_eq_some_iff.mp h
          have hlen := Hislip.length_rewrite hr
          simp only [added, hrep, hh, Prod.map_apply, id_eq, Option.isNone_none, Bool.true_and,
            Option.any_some] at hlen ⊢
          omega

/-- A read is lengthened by what is added, and by nothing else. -/
theorem length_pass {ts ts' : Trackers} {chunk body : List UInt8}
    (h : ts.pass chunk = some (body, ts')) : body.length = chunk.length + ts.added chunk := by
  rw [pass] at h
  obtain ⟨r, hr, hobs⟩ := Option.bind_eq_some_iff.mp h
  have hbody : body = r.1.getD chunk := by
    cases hh : r.2 with
    | none =>
        simp only [hh, Option.some.injEq, Prod.mk.injEq] at hobs
        exact hobs.1.symm
    | some t =>
        simp only [hh, Option.map_eq_some_iff, Prod.mk.injEq] at hobs
        obtain ⟨t', -, hb, -⟩ := hobs
        exact hb.symm
  rw [hbody, length_rewrite hr]

end Trackers

/-- The bytes added to an event. -/
def Event.added (ts : Trackers) : Event → Nat
  | .client _ => 0
  | .server r => ts.added r.bytes

/-- The bytes added to a run of events. -/
def added : Trackers → List Event → Nat
  | _, [] => 0
  | ts, e :: es => e.added ts + ((ts.see e).map fun ts => added ts es).getD 0

theorem length_rewritten {ts ts' : Trackers} {es : List Event} (h : after ts es = some ts') :
    (rewritten ts es).length = received es + added ts es := by
  induction es generalizing ts with
  | nil => rfl
  | cons e es ih =>
      rw [after, Option.bind_eq_some_iff] at h
      obtain ⟨ts₁, hsee, hrest⟩ := h
      have htail := ih hrest
      rw [added, hsee, received_cons]
      cases e with
      | client buf =>
          rw [rewritten_client hsee, htail]
          simp [Event.bytes, Event.added]
      | server r =>
          rw [Trackers.see, Option.map_eq_some_iff] at hsee
          obtain ⟨⟨body, ts₂⟩, hpass, rfl⟩ := hsee
          rw [rewritten_server hpass, List.length_append, htail, Trackers.length_pass hpass]
          simp only [Event.bytes, Event.added, Option.map_some, Option.getD_some]
          omega

/-! ## Within the limits -/

/-- What the client is sent is a prefix of the rewritten stream, and no longer
than any limit that is set. -/
def HoldsLimits (f : Faults) (ts : Trackers) (es : List Event) : Prop :=
  (forward f ts es).written <+: rewritten ts es ∧
    ∀ limit, (limits f).Has limit → (forward f ts es).written.length ≤ limit

/-- No armed fault hits what begins among the first `k` bytes of a read: none of
the records there is touched; and if the read is left to the HiSLIP tracker,
none of the headers there is, and no message is split.  The calls on the read
return. -/
structure Trackers.Spares (ts : Trackers) (chunk : List UInt8) (k : Nat) : Prop where
  returns : (ts.pass chunk).isSome
  records : ∀ t, ts.vxi11 = some t → ∀ before r after,
    chunk = Vxi11.recordBytes (before ++ r :: after) → (Vxi11.recordBytes before).length < k →
    Vxi11.touches t.calls t.faults r = false
  headers : ∀ h found, ts.hislip = some h → (ts.rewriteReplies chunk).1 = none →
    Hislip.headers (chunk.drop (min h.pending.server chunk.length)) = some found →
    ∀ x ∈ found, min h.pending.server chunk.length + x.1 < k → Hislip.hits h.faults x.2 = false
  whole : ∀ h, ts.hislip = some h → (ts.rewriteReplies chunk).1 = none →
    h.faults.splits h.pending.server chunk = false

/-- What begins among the bytes let through of a read goes out as it came. -/
theorem take_pass {ts ts' : Trackers} {chunk body : List UInt8} {k : Nat} (h : ts.Spares chunk k)
    (hpass : ts.pass chunk = some (body, ts')) : body.take k = chunk.take k := by
  rw [Trackers.pass] at hpass
  obtain ⟨r, hr, hobs⟩ := Option.bind_eq_some_iff.mp hpass
  have hbody : body = r.1.getD chunk := by
    cases hh : r.2 with
    | none =>
        simp only [hh, Option.some.injEq, Prod.mk.injEq] at hobs
        exact hobs.1.symm
    | some t =>
        simp only [hh, Option.map_eq_some_iff, Prod.mk.injEq] at hobs
        obtain ⟨t', -, hb, -⟩ := hobs
        exact hb.symm
  have hreplies : ((ts.rewriteReplies chunk).1.getD chunk).take k = chunk.take k := by
    unfold Trackers.rewriteReplies
    cases hv : ts.vxi11 with
    | none => rfl
    | some t => exact Vxi11.take_rewriteReplies t (h.records t hv)
  rw [hbody]
  cases hrep : (ts.rewriteReplies chunk).1 with
  | some out =>
      rw [hrep] at hr hreplies
      obtain rfl := Option.some.inj hr
      exact hreplies
  | none =>
      cases hh : ts.hislip with
      | none =>
          simp only [hrep, Trackers.rewrite, hh, Option.some.injEq] at hr
          rw [← hr]
          rfl
      | some t =>
          simp only [hrep, Trackers.rewrite, hh] at hr
          obtain ⟨⟨r', t'⟩, hrew, rfl⟩ := Option.map_eq_some_iff.mp hr
          exact Hislip.take_rewrite hrew (h.whole t hh hrep) fun found => h.headers t found hh hrep

/-- The limits leave room for what is added: as long as no limit is passed, what
is received and what is added to it stay within the limits; and when a read
passes a limit, nothing has been added before it and the limit is the smallest
that is set. -/
structure Budget (f : Faults) (ts : Trackers) (es : List Event) : Prop where
  lengthened : ∀ pre post ts', es = pre ++ post → after ts pre = some ts' →
    (limits f).passed (received pre) = none →
    ∀ limit, (limits f).Has limit → received pre + added ts pre ≤ limit
  cut : ∀ pre r post ts' ending limit, es = pre ++ .server r :: post → after ts pre = some ts' →
    (limits f).passed (received pre) = none →
    (limits f).passed (received pre + r.bytes.length) = some (ending, limit) →
    added ts pre = 0 ∧ ∀ other, (limits f).Has other → limit ≤ other

/-- There is room, and no armed fault hits what is let through of the read that
passes a limit. -/
structure Room (f : Faults) (ts : Trackers) (es : List Event) : Prop extends Budget f ts es where
  spares : ∀ pre r post ts' ending limit, es = pre ++ .server r :: post → after ts pre = some ts' →
    (limits f).passed (received pre) = none →
    (limits f).passed (received pre + r.bytes.length) = some (ending, limit) →
    received pre < limit → ts'.Spares r.bytes (limit - received pre)

/-- The bytes let through of a read that is spared are a beginning of what it is
rewritten to. -/
theorem take_prefix_rewritten {ts : Trackers} {r : Read} {k : Nat}
    (h : ts.Spares r.bytes k) (es : List Event) :
    r.bytes.take k <+: rewritten ts (.server r :: es) := by
  obtain ⟨⟨body, ts'⟩, hpass⟩ := Option.isSome_iff_exists.mp h.returns
  rw [rewritten_server hpass, ← take_pass h hpass]
  exact (List.take_prefix k body).trans (List.prefix_append _ _)

theorem HoldsLimits.budget {f : Faults} {ts : Trackers} {es : List Event}
    (h : HoldsLimits f ts es) : Budget f ts es := by
  obtain ⟨-, hlength⟩ := h
  constructor
  · rintro pre post ts' rfl hafter hl limit hlimit
    have hle := hlength limit hlimit
    rw [forward_append hafter hl, Forwarding.behind, List.length_append,
      length_rewritten hafter] at hle
    omega
  · rintro pre r post ts' ending limit rfl hafter hl hcut
    obtain ⟨hset, hlt⟩ := Limits.passed_eq_some hcut
    have hge := Limits.passed_eq_none_iff.mp hl limit hset
    have hroom : ∀ other, (limits f).Has other →
        received pre + added ts pre + (limit - received pre) ≤ other := by
      intro other hother
      have hle := hlength other hother
      rw [forward_cut hafter hl hcut, List.length_append, length_rewritten hafter,
        List.length_take] at hle
      omega
    have hself := hroom limit hset
    refine ⟨by omega, fun other hother => ?_⟩
    have hle := hroom other hother
    omega

theorem Room.holdsLimits {f : Faults} {ts : Trackers} {es : List Event} (h : Room f ts es) :
    HoldsLimits f ts es := by
  have hstops := toClient_stops (limits f) (Limits.passed_zero _) ts es
  unfold HoldsLimits forward
  generalize toClient (limits f) 0 ts es = fw at hstops
  cases hstops with
  | closed ts' hafter hl =>
      rw [Nat.zero_add] at hl
      refine ⟨List.prefix_rfl, fun limit hlimit => ?_⟩
      rw [length_rewritten hafter]
      exact h.lengthened es [] ts' (by simp) hafter hl limit hlimit
  | hung pre e post ts' hes hafter hl hsee =>
      subst hes
      rw [Nat.zero_add] at hl
      have hpre := Limits.passed_mono (Nat.le_add_right _ _) hl
      refine ⟨by rw [rewritten_append hafter]; exact List.prefix_append _ _, fun limit hlimit => ?_⟩
      rw [length_rewritten hafter]
      exact h.lengthened pre _ ts' rfl hafter hpre limit hlimit
  | cut pre r post ts' ending limit hes hafter hl hcut =>
      subst hes
      rw [Nat.zero_add] at hl hcut ⊢
      obtain ⟨hzero, hleast⟩ := h.cut pre r post ts' ending limit rfl hafter hl hcut
      obtain ⟨hset, hlt⟩ := Limits.passed_eq_some hcut
      have hge := Limits.passed_eq_none_iff.mp hl limit hset
      constructor
      · rw [rewritten_append hafter, List.prefix_append_right_inj]
        by_cases hroom : received pre < limit
        · exact take_prefix_rewritten (h.spares pre r post ts' ending limit rfl hafter hl hcut hroom)
            post
        · rw [Nat.sub_eq_zero_of_le (Nat.le_of_not_lt hroom), List.take_zero]
          exact List.nil_prefix
      · intro other hother
        have hle := hleast other hother
        rw [List.length_append, length_rewritten hafter, hzero, List.length_take]
        omega

/-- **The limits hold for what the client is sent** if they leave room for the
message faults and no fault hits what is let through of the read that is cut.
The room is needed, too. -/
theorem limits_hold (f : Faults) (ts : Trackers) (es : List Event) :
    (Room f ts es → HoldsLimits f ts es) ∧ (HoldsLimits f ts es → Budget f ts es) :=
  ⟨Room.holdsLimits, HoldsLimits.budget⟩

/-- One read of three bytes, of which a limit of two lets two through. -/
theorem limits_hold_three :
    HoldsLimits { Faults.new with dropAfterBytes := 2 } {} [.server ⟨[1, 2, 3], by decide⟩] := by
  have hlimits : ∀ limit,
      (limits { Faults.new with dropAfterBytes := 2 }).Has limit → limit = 2 := by
    rintro limit (h | h)
    · exact (Option.some.inj h).symm
    · cases h
  refine (limits_hold _ _ _).1 ⟨⟨fun pre post ts' hes _ hpassed limit hlimit => ?_,
    fun pre r post ts' ending limit hes _ _ hcut => ?_⟩, fun pre r post ts' ending limit hes hafter _ _ _ => ?_⟩
  · obtain rfl := hlimits limit hlimit
    rw [Limits.passed_eq_none_iff] at hpassed
    have hle := hpassed 2 hlimit
    have hadded : added {} pre = 0 := by
      have hpre : pre = [] ∨ pre = [.server ⟨[1, 2, 3], by decide⟩] := by
        rcases pre with _ | ⟨e, _ | ⟨e', pre⟩⟩
        · exact .inl rfl
        · obtain ⟨rfl, -⟩ := List.cons.inj hes
          exact .inr rfl
        · simp at hes
      rcases hpre with rfl | rfl <;> rfl
    omega
  · have hpre : pre = [] := by
      rcases pre with _ | ⟨e, pre⟩
      · rfl
      · simp at hes
    obtain ⟨hset, -⟩ := Limits.passed_eq_some hcut
    rw [hpre, hlimits limit hset]
    exact ⟨rfl, fun other hother => (hlimits other hother).ge⟩
  · have hpre : pre = [] := by
      rcases pre with _ | ⟨e, pre⟩
      · rfl
      · simp at hes
    subst hpre
    obtain rfl : {} = ts' := Option.some.inj hafter
    exact {
      returns := rfl
      records := fun _ h => by cases h
      headers := fun _ _ h => by cases h
      whole := fun _ h => by cases h }

/-! ## A stale record at the limit -/

/-- A device_read call with xid 1. -/
def readCall : List UInt8 :=
  [0x80000040, 1, 0, 2, 0x607AF, 1, 12, 0, 0, 0, 0, 1, 1024, 2000, 0, 0, 0].flatMap be32

/-- Its reply: no error, end of message, no data. -/
def readReply : Read := ⟨[0x80000024, 1, 1, 0, 0, 0, 0, 0, 4, 0].flatMap be32, by decide⟩

/-- A stale reply is armed before the next device_read's. -/
def staleArmed : Trackers :=
  { vxi11 := some { faults := { staleReplyBeforeProc := some Vxi11.deviceRead } } }

/-- The reply has 40 bytes and fits the limit; with the stale record before it
80 are written. -/
theorem not_holdsLimits_stale : ¬ HoldsLimits { Faults.new with dropAfterBytes := 40 } staleArmed
    [.client readCall, .server readReply] := by
  intro h
  have hle := h.2 40 (.inl (by decide))
  revert hle
  decide +kernel

end TestGear.Proxy
