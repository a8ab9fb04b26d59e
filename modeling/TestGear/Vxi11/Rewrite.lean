import TestGear.Vxi11.Tracker

/-!
# TestGear.Vxi11.Rewrite

What `rewriteReplies` does to a buffer of whole records.  Each record is
forwarded as a `Delivery`: under its own mark, with a body of its own length,
and perhaps with a made-up record in front of it.

* `rewriteReplies_records` — the forwarded buffer and the faults left armed,
  record by record;
* `rewriteReplies_keeps_framing` — the framing survives every buffer, every
  map and every fault set, and only the named words are touched.
-/

namespace TestGear.Vxi11

/-! ## One record -/

/-- The procedure a reply record belongs to, as far as the map knows. -/
def procOf (calls : Calls) (r : Record) : Option UInt32 := (readU32 r.body 0).bind calls

/-- Is the error word of this reply replaced? -/
def errorHits (f : Vxi11Faults) (proc : Option UInt32) (body : List UInt8) : Bool :=
  f.errorOnProc.isSome && f.errorCode.isSome && proc == f.errorOnProc &&
    decide (results + 4 ≤ body.length)

/-- Is the maxRecvSize word of this reply replaced? -/
def sizeHits (f : Vxi11Faults) (proc : Option UInt32) (body : List UInt8) : Bool :=
  f.maxRecvSize.isSome && proc == some createLink && decide (results + 16 ≤ body.length)

/-- Is a stale record put before this reply? -/
def staleHits (f : Vxi11Faults) (proc : Option UInt32) : Bool :=
  f.staleReplyBeforeProc.isSome && proc == f.staleReplyBeforeProc

/-- The record the tracker makes up: a last fragment of 36 bytes, accepted and
successful, under an xid nobody is waiting for. -/
def staleRecord (xid : UInt32) : List UInt8 :=
  [0x80, 0, 0, 0x24] ++ be32 (xid ^^^ 0x5A5A5A5A) ++ [0, 0, 0, 1] ++ List.replicate 28 0

theorem frame_eq_staleRecord (xid : UInt32) :
    frame (staleBody (xid ^^^ 0x5A5A5A5A)) = staleRecord xid := by
  have hmark : be32 0x80000024 = [0x80, 0, 0, 0x24] := by decide
  have hone : be32 1 = [0, 0, 0, 1] := by decide
  have hzero : be32 0 = [0, 0, 0, 0] := by decide
  rw [frame_staleBody, staleBody, hmark, hone, hzero]
  simp [staleRecord]

theorem length_staleRecord (xid : UInt32) : (staleRecord xid).length = 40 := by
  simp [staleRecord]

/-- A reply as it is forwarded. -/
structure Delivery where
  record : Record
  stale : Bool
  body : List UInt8

/-- The xid of a record that is long enough to have one. -/
def Record.xid (r : Record) : UInt32 := (readU32 r.body 0).getD 0

def Delivery.bytes (d : Delivery) : List UInt8 :=
  (if d.stale then staleRecord d.record.xid else []) ++ be32 d.record.mark ++ d.body

def deliveryBytes (ds : List Delivery) : List UInt8 := ds.flatMap Delivery.bytes

/-- A reply body with the words the faults name replaced. -/
def rewrittenBody (f : Vxi11Faults) (proc : Option UInt32) (body : List UInt8) : List UInt8 :=
  let body' := if errorHits f proc body then splice body results (be32 (f.errorCode.getD 0)) else body
  if sizeHits f proc body then splice body' (results + 12) (be32 (f.maxRecvSize.getD 0)) else body'

/-- What a call whose copy of the armed faults is `f` forwards for a record. -/
def delivered (calls : Calls) (f : Vxi11Faults) (r : Record) : Delivery where
  record := r
  stale := staleHits f (procOf calls r)
  body := rewrittenBody f (procOf calls r) r.body

/-- Does such a call change anything about this record? -/
def touches (calls : Calls) (f : Vxi11Faults) (r : Record) : Bool :=
  errorHits f (procOf calls r) r.body || sizeHits f (procOf calls r) r.body ||
    staleHits f (procOf calls r)

/-- The shared fault set `g` after a record has been rewritten. -/
def disarm (calls : Calls) (f : Vxi11Faults) (g : Vxi11Faults) (r : Record) : Vxi11Faults :=
  { g with
    errorOnProc :=
      if errorHits f (procOf calls r) r.body && f.errorOnce.getD true then none else g.errorOnProc
    staleReplyBeforeProc :=
      if staleHits f (procOf calls r) then none else g.staleReplyBeforeProc }

theorem applyError_eq (f : Vxi11Faults) (proc : Option UInt32) (body : List UInt8)
    (st : Rewriting) :
    applyError f proc body st =
      (if errorHits f proc body then splice body results (be32 (f.errorCode.getD 0)) else body,
        { out := st.out
          changed := st.changed || errorHits f proc body
          faults := { st.faults with
            errorOnProc := if errorHits f proc body && f.errorOnce.getD true then none
              else st.faults.errorOnProc } }) := by
  unfold applyError errorHits writeU32
  cases hp : f.errorOnProc with
  | none => simp
  | some target =>
      cases hc : f.errorCode with
      | none => simp
      | some code =>
          by_cases hproc : proc = some target
          · by_cases hlen : body.length < results + 4
            · simp [hproc, hlen, Nat.not_le_of_lt hlen]
            · cases f.errorOnce.getD true <;> simp [hproc, hlen, Nat.le_of_not_lt hlen]
          · simp [hproc, beq_eq_false_iff_ne.mpr hproc]

theorem applySize_eq (f : Vxi11Faults) (proc : Option UInt32) (body : List UInt8)
    (st : Rewriting) :
    applySize f proc body st =
      (if sizeHits f proc body then splice body (results + 12) (be32 (f.maxRecvSize.getD 0)) else body,
        { st with changed := st.changed || sizeHits f proc body }) := by
  unfold applySize sizeHits writeU32
  cases hs : f.maxRecvSize with
  | none => simp
  | some size =>
      by_cases hproc : proc = some createLink
      · by_cases hlen : body.length < results + 12 + 4
        · simp [hproc, hlen, Nat.not_le_of_lt hlen]
        · simp [hproc, hlen, Nat.le_of_not_lt hlen]
      · simp [hproc, beq_eq_false_iff_ne.mpr hproc]

theorem applyStale_eq (f : Vxi11Faults) (proc : Option UInt32) (xid : UInt32) (st : Rewriting) :
    applyStale f proc xid st =
      { out := st.out ++ (if staleHits f proc then staleRecord xid else [])
        changed := st.changed || staleHits f proc
        faults := { st.faults with
          staleReplyBeforeProc := if staleHits f proc then none
            else st.faults.staleReplyBeforeProc } } := by
  unfold applyStale staleHits
  cases hs : f.staleReplyBeforeProc with
  | none => simp
  | some target =>
      by_cases hproc : proc = some target
      · simp [hproc, frame_eq_staleRecord]
      · simp [hproc, beq_eq_false_iff_ne.mpr hproc]

/-- The error word does not move the end of the body. -/
theorem length_errorBody (f : Vxi11Faults) (proc : Option UInt32) (body : List UInt8) :
    (if errorHits f proc body then splice body results (be32 (f.errorCode.getD 0))
      else body).length = body.length := by
  split
  · next h =>
      have hfit : results + 4 ≤ body.length := by
        simp only [errorHits, Bool.and_eq_true, decide_eq_true_eq] at h
        exact h.2
      exact length_splice (by rw [length_be32]; exact hfit)
  · rfl

/-- **One round of the loop**, at the record it stands on. -/
theorem rewriteReply_at (calls : Calls) (f : Vxi11Faults) {buf : List UInt8} {r : Record}
    {rs : List Record} (hpos : pos ≤ buf.length) (hbuf : buf.drop pos = recordBytes (r :: rs))
    (st : Rewriting) :
    rewriteReply calls f buf st (pos, pos + 4, r.body.length) =
      { out := st.out ++ (delivered calls f r).bytes
        changed := st.changed || touches calls f r
        faults := disarm calls f st.faults r } := by
  obtain ⟨hlen, hmark, hbody, -⟩ := drop_record hpos hbuf
  have hfour : pos + 4 - pos = 4 := by omega
  have hwhole : slice buf pos (pos + 4 + r.body.length - pos) = be32 r.mark ++ r.body := by
    have htake : pos + 4 + r.body.length - pos = r.bytes.length := by
      rw [Record.length_bytes]; omega
    rw [htake, slice, hbuf, recordBytes_cons, take_append_of_length rfl, Record.bytes]
  simp only [rewriteReply, hbody]
  cases hx : readU32 r.body 0 with
  | none =>
      -- no xid, so no procedure: every fault needs one
      have hproc : procOf calls r = none := by rw [procOf, hx]; rfl
      have herr : errorHits f none r.body = false := by
        cases h : f.errorOnProc <;> simp [errorHits, h]
      have hsize : sizeHits f none r.body = false := by simp [sizeHits]
      have hstale : staleHits f none = false := by
        cases h : f.staleReplyBeforeProc <;> simp [staleHits, h]
      simp [hwhole, Delivery.bytes, delivered, rewrittenBody, touches, disarm, hproc, herr, hsize,
        hstale]
  | some xid =>
      obtain rfl : r.xid = xid := by rw [Record.xid, hx]; rfl
      have hproc : calls r.xid = procOf calls r := by rw [procOf, hx]; rfl
      have hsize : ∀ body, body.length = r.body.length →
          sizeHits f (procOf calls r) body = sizeHits f (procOf calls r) r.body := by
        intro body hb
        rw [sizeHits, hb, sizeHits]
      simp only [hproc, applyError_eq, applySize_eq, applyStale_eq, hfour, hmark,
        hsize _ (length_errorBody f (procOf calls r) r.body)]
      simp only [delivered, Delivery.bytes, rewrittenBody, touches, disarm, Bool.or_assoc,
        List.append_assoc]
      rfl

/-! ## A buffer of records -/

/-- **The rewrite loop** over the records of a buffer. -/
theorem foldl_rewriteReply (calls : Calls) (f : Vxi11Faults) {buf : List UInt8} {rs : List Record}
    (hpos : pos ≤ buf.length) (hbuf : buf.drop pos = recordBytes rs) (st : Rewriting) :
    (spans pos rs).foldl (rewriteReply calls f buf) st =
      { out := st.out ++ deliveryBytes (rs.map (delivered calls f))
        changed := st.changed || rs.any (touches calls f)
        faults := rs.foldl (disarm calls f) st.faults } := by
  induction rs generalizing pos st with
  | nil => simp [spans, deliveryBytes]
  | cons r rs ih =>
      obtain ⟨hlen, -, -, htail⟩ := drop_record hpos hbuf
      rw [spans, List.foldl_cons, rewriteReply_at calls f hpos hbuf, ih (by omega) htail]
      simp [deliveryBytes, Bool.or_assoc]

theorem delivered_of_not_touches {calls : Calls} {f : Vxi11Faults} {r : Record}
    (h : touches calls f r = false) : (delivered calls f r).bytes = r.bytes := by
  simp only [touches, Bool.or_eq_false_iff] at h
  simp [delivered, Delivery.bytes, rewrittenBody, Record.bytes, h.1.1, h.1.2, h.2]

theorem deliveryBytes_of_not_touches {calls : Calls} {f : Vxi11Faults} {rs : List Record}
    (h : rs.any (touches calls f) = false) :
    deliveryBytes (rs.map (delivered calls f)) = recordBytes rs := by
  rw [deliveryBytes, List.flatMap_map, recordBytes]
  refine List.flatMap_congr fun r hr => delivered_of_not_touches ?_
  rw [List.any_eq_false] at h
  simpa using h r hr

theorem touches_of_not_armed {f : Vxi11Faults} (h : f.isArmed = false) (calls : Calls)
    (r : Record) : touches calls f r = false := by
  simp only [Vxi11Faults.isArmed, Bool.or_eq_false_iff] at h
  simp [touches, errorHits, sizeHits, staleHits, h.1.1, h.1.2, h.2]

theorem foldl_disarm_of_not_armed {f : Vxi11Faults} (h : f.isArmed = false) (calls : Calls)
    (rs : List Record) : rs.foldl (disarm calls f) f = f := by
  induction rs with
  | nil => rfl
  | cons r rs ih =>
      have ht := touches_of_not_armed h calls r
      simp only [touches, Bool.or_eq_false_iff] at ht
      have hd : disarm calls f f r = f := by simp [disarm, ht.1.1, ht.2]
      rw [List.foldl_cons, hd, ih]

/-- **A whole call** on a buffer of records. -/
theorem rewriteReplies_records (t : Tracker) {rs : List Record} (hne : rs ≠ []) :
    t.rewriteReplies (recordBytes rs) =
      (if rs.any (touches t.calls t.faults) then
          some (deliveryBytes (rs.map (delivered t.calls t.faults))) else none,
        { t with faults := rs.foldl (disarm t.calls t.faults) t.faults }) := by
  rw [Tracker.rewriteReplies]
  cases harm : t.faults.isArmed with
  | false =>
      have hany : rs.any (touches t.calls t.faults) = false := by
        simp [touches_of_not_armed harm]
      simp [hany, foldl_disarm_of_not_armed harm]
  | true =>
      have hloop := foldl_rewriteReply t.calls t.faults (Nat.zero_le (recordBytes rs).length)
        List.drop_zero ⟨[], false, t.faults⟩
      simp [wholeRecords_records hne, hloop]

/-- A call on anything else changes nothing. -/
theorem rewriteReplies_of_not_records (t : Tracker) {buf : List UInt8}
    (h : wholeRecords buf = none) : t.rewriteReplies buf = (none, t) := by
  rw [Tracker.rewriteReplies, h]
  split <;> rfl

/-! ## Framing -/

/-- `body` with its two nameable words taken back from `original`. -/
def restoreWords (original body : List UInt8) : List UInt8 :=
  splice (splice body 24 (slice original 24 4)) 36 (slice original 36 4)

/-- What may be done to a record: its error word replaced, if its procedure is
the target; its maxRecvSize word replaced, if it answers a create_link; a stale
record put in front of it, if its procedure is that target. -/
structure Delivery.Faithful (calls : Calls) (f : Vxi11Faults) (d : Delivery) : Prop where
  length : d.body.length = d.record.body.length
  stale : d.stale = true →
    ∃ p, procOf calls d.record = some p ∧ f.staleReplyBeforeProc = some p
  words : ∀ i, d.body[i]? ≠ d.record.body[i]? →
    (24 ≤ i ∧ i < 28 ∧ f.errorCode.isSome ∧
      ∃ p, procOf calls d.record = some p ∧ f.errorOnProc = some p) ∨
    (36 ≤ i ∧ i < 40 ∧ f.maxRecvSize.isSome ∧ procOf calls d.record = some createLink)
  restored : restoreWords d.record.body d.body = d.record.body

/-- A call on `buf` keeps the framing: nothing is done to a buffer that is not
made of whole records; else the input's records are forwarded in order, each
`Faithful`ly, and taking back the additions gives the input. -/
def KeepsFraming (t : Tracker) (buf : List UInt8) : Prop :=
  ((∀ rs, buf ≠ recordBytes rs) → (t.rewriteReplies buf).1 = none) ∧
  ∀ rs, buf = recordBytes rs → ∀ out, (t.rewriteReplies buf).1 = some out →
    ∃ ds : List Delivery, ds.map Delivery.record = rs ∧ out = deliveryBytes ds ∧
      (∀ d ∈ ds, d.Faithful t.calls t.faults) ∧
      (ds.flatMap fun d => be32 d.record.mark ++ restoreWords d.record.body d.body) = buf

theorem errorHits_iff {f : Vxi11Faults} {proc : Option UInt32} {body : List UInt8} :
    errorHits f proc body = true ↔
      (∃ p, proc = some p ∧ f.errorOnProc = some p) ∧ f.errorCode.isSome ∧ 28 ≤ body.length := by
  cases h : f.errorOnProc with
  | none => simp [errorHits, h]
  | some target =>
      simp only [errorHits, h, Option.isSome_some, Bool.true_and, Bool.and_eq_true, beq_iff_eq,
        decide_eq_true_eq, Option.some.injEq]
      constructor
      · rintro ⟨⟨hcode, hproc⟩, hlen⟩
        exact ⟨⟨target, hproc, rfl⟩, hcode, hlen⟩
      · rintro ⟨⟨p, hproc, rfl⟩, hcode, hlen⟩
        exact ⟨⟨hcode, hproc⟩, hlen⟩

theorem sizeHits_iff {f : Vxi11Faults} {proc : Option UInt32} {body : List UInt8} :
    sizeHits f proc body = true ↔
      proc = some createLink ∧ f.maxRecvSize.isSome ∧ 40 ≤ body.length := by
  simp only [sizeHits, Bool.and_eq_true, beq_iff_eq, decide_eq_true_eq]
  constructor
  · rintro ⟨⟨hsize, hproc⟩, hlen⟩
    exact ⟨hproc, hsize, hlen⟩
  · rintro ⟨hproc, hsize, hlen⟩
    exact ⟨⟨hsize, hproc⟩, hlen⟩

theorem staleHits_iff {f : Vxi11Faults} {proc : Option UInt32} :
    staleHits f proc = true ↔ ∃ p, proc = some p ∧ f.staleReplyBeforeProc = some p := by
  cases h : f.staleReplyBeforeProc <;> simp [staleHits, h]

theorem length_rewrittenBody (f : Vxi11Faults) (proc : Option UInt32) (body : List UInt8) :
    (rewrittenBody f proc body).length = body.length := by
  have herr := length_errorBody f proc body
  rw [rewrittenBody]
  split
  · next h =>
      rw [length_splice, herr]
      rw [herr, length_be32]
      exact (sizeHits_iff.mp h).2.2
  · exact herr

/-- A byte that differs lies in a word that was replaced. -/
theorem rewrittenBody_words {f : Vxi11Faults} {proc : Option UInt32} {body : List UInt8} {i : Nat}
    (h : (rewrittenBody f proc body)[i]? ≠ body[i]?) :
    (24 ≤ i ∧ i < 28 ∧ errorHits f proc body = true) ∨
      (36 ≤ i ∧ i < 40 ∧ sizeHits f proc body = true) := by
  have herr := length_errorBody f proc body
  have hword : (if errorHits f proc body then splice body results (be32 (f.errorCode.getD 0))
      else body)[i]? ≠ body[i]? → 24 ≤ i ∧ i < 28 ∧ errorHits f proc body = true := by
    intro hne
    split at hne
    · next hhit =>
        have hfit : results + (be32 (f.errorCode.getD 0)).length ≤ body.length := by
          rw [length_be32]
          exact (errorHits_iff.mp hhit).2.2
        rw [getElem?_splice hfit, length_be32] at hne
        by_contra hout
        exact hne (if_neg fun hin => hout ⟨hin.1, hin.2, hhit⟩)
    · exact absurd rfl hne
  rw [rewrittenBody] at h
  split at h
  · next hhit =>
      have hfit : results + 12 + (be32 (f.maxRecvSize.getD 0)).length ≤
          (if errorHits f proc body then splice body results (be32 (f.errorCode.getD 0))
            else body).length := by
        rw [herr, length_be32]
        exact (sizeHits_iff.mp hhit).2.2
      rw [getElem?_splice hfit, length_be32] at h
      split at h
      · next hin => exact .inr ⟨hin.1, hin.2, hhit⟩
      · exact .inl (hword h)
  · exact .inl (hword h)

theorem delivered_faithful (calls : Calls) (f : Vxi11Faults) (r : Record) :
    (delivered calls f r).Faithful calls f where
  length := length_rewrittenBody f _ r.body
  stale h := staleHits_iff.mp h
  words i h := by
    rcases rewrittenBody_words h with ⟨hlo, hhi, hhit⟩ | ⟨hlo, hhi, hhit⟩
    · obtain ⟨hp, hcode, -⟩ := errorHits_iff.mp hhit
      exact .inl ⟨hlo, hhi, hcode, hp⟩
    · obtain ⟨hp, hsize, -⟩ := sizeHits_iff.mp hhit
      exact .inr ⟨hlo, hhi, hsize, hp⟩
  restored := by
    have hlen : (rewrittenBody f (procOf calls r) r.body).length = r.body.length :=
      length_rewrittenBody f _ r.body
    have hlen' : (splice (rewrittenBody f (procOf calls r) r.body) 24
        (slice r.body 24 4)).length = r.body.length := by
      rw [length_splice_slice hlen, hlen]
    refine List.ext_getElem? fun i => ?_
    show (restoreWords r.body (rewrittenBody f (procOf calls r) r.body))[i]? = r.body[i]?
    rw [restoreWords, getElem?_splice_slice hlen', getElem?_splice_slice hlen]
    split
    · rfl
    · split
      · rfl
      · by_contra hne
        rcases rewrittenBody_words hne with ⟨hlo, hhi, -⟩ | ⟨hlo, hhi, -⟩ <;> omega

/-- **Framing survives**: for every tracker state and every buffer. -/
theorem rewriteReplies_keeps_framing (t : Tracker) (buf : List UInt8) : KeepsFraming t buf := by
  constructor
  · intro hnot
    have hnone : wholeRecords buf = none := by
      rw [Option.eq_none_iff_forall_not_mem]
      intro found hfound
      obtain ⟨rs, -, hbuf, -⟩ := wholeRecords_eq_some_iff.mp hfound
      exact hnot rs hbuf
    rw [rewriteReplies_of_not_records t hnone]
  · rintro rs rfl out hout
    have hne : rs ≠ [] := by
      rintro rfl
      rw [rewriteReplies_of_not_records t (by decide)] at hout
      cases hout
    rw [rewriteReplies_records t hne] at hout
    simp only [Option.ite_none_right_eq_some, Option.some.injEq] at hout
    obtain ⟨-, rfl⟩ := hout
    refine ⟨rs.map (delivered t.calls t.faults), ?_, rfl, ?_, ?_⟩
    · rw [List.map_map]
      exact List.map_id rs
    · intro d hd
      obtain ⟨r, -, rfl⟩ := List.mem_map.mp hd
      exact delivered_faithful t.calls t.faults r
    · rw [List.flatMap_map, recordBytes]
      refine List.flatMap_congr fun r _ => ?_
      rw [(delivered_faithful t.calls t.faults r).restored]
      rfl

end TestGear.Vxi11
