import TestGear.Hislip.OneShot
import TestGear.Proxy

/-!
# TestGear.Proxy.Log

The HiSLIP tracker's log against what the client was sent, on a connection
whose reads hold whole messages and whose prologues are left alone.  What is
forwarded is recorded as it is sent; but the read that a limit cuts is not
recorded at all, whatever of it is let through.

* `Carries` — the headers that are all there in a beginning of a message
  stream, and `Carries.unique`: the bytes decide them;
* `deliver_messages` — whole messages are delivered as whole messages, and
  their headers recorded;
* `logExact_iff` — the log is exactly what was delivered, unless 16 bytes or
  more of a cut read were let through.
-/

namespace TestGear.Hislip

/-! ## The headers in a beginning of a stream -/

/-- The headers of the messages whose 16 header bytes are all among the first
`n` bytes. -/
def headersWithin : List Message → Nat → List Header
  | [], _ => []
  | m :: ms, n => if n < headerLen then [] else m.header :: headersWithin ms (n - m.size)

theorem headersWithin_of_lt (ms : List Message) {n : Nat} (h : n < headerLen) :
    headersWithin ms n = [] := by
  cases ms with
  | nil => rfl
  | cons m ms => rw [headersWithin, if_pos h]

theorem headersWithin_append (xs ys : List Message) (n : Nat) :
    headersWithin (xs ++ ys) ((wire xs).length + n) =
      xs.map Message.header ++ headersWithin ys n := by
  induction xs with
  | nil => simp
  | cons m xs ih =>
      have hle := m.headerLen_le_size
      have hrest : m.size + (wire xs).length + n - m.size = (wire xs).length + n := by omega
      rw [List.cons_append, wire_cons, List.length_append, Message.length_bytes, headersWithin,
        if_neg (by omega), hrest, ih]
      rfl

theorem headersWithin_wire (ms : List Message) :
    headersWithin ms (wire ms).length = ms.map Message.header := by
  have h := headersWithin_append ms [] 0
  simpa [headersWithin] using h

/-- `hs` are the headers that are all there in `w`, a beginning of a stream of
messages. -/
def Carries (w : List UInt8) (hs : List Header) : Prop :=
  ∃ ms, w <+: wire ms ∧ hs = headersWithin ms w.length

/-- Two streams that begin alike begin with the same header. -/
theorem header_eq_of_prefix {m m' : Message} {ms ms' : List Message} {w : List UInt8}
    (h : w <+: wire (m :: ms)) (h' : w <+: wire (m' :: ms')) (hlen : headerLen ≤ w.length) :
    m.header = m'.header := by
  have hread : ∀ {m : Message} {ms}, w <+: wire (m :: ms) → readHeader (w.take headerLen) 0 = m.header := by
    intro m ms hw
    have htake : w.take headerLen = m.header.bytes := by
      rw [List.prefix_iff_eq_take] at hw
      rw [hw, List.take_take, Nat.min_eq_left hlen, wire_cons, Message.bytes_eq,
        List.append_assoc, take_append_of_length (Header.length_bytes _)]
    exact @readHeader_of_drop 0 _ [] _ (by simp [htake])
  rw [← hread h, hread h']

/-- **The bytes decide** which headers they carry. -/
theorem Carries.unique {w : List UInt8} {hs hs' : List Header} (h : Carries w hs)
    (h' : Carries w hs') : hs = hs' := by
  obtain ⟨ms, hw, rfl⟩ := h
  obtain ⟨ms', hw', rfl⟩ := h'
  induction ms generalizing ms' w with
  | nil =>
      have hnil : w = [] := List.prefix_nil.mp hw
      rw [hnil, headersWithin_of_lt ms' (by decide)]
      rfl
  | cons m ms ih =>
      rcases Nat.lt_or_ge w.length headerLen with hlt | hge
      · rw [headersWithin_of_lt _ hlt, headersWithin_of_lt _ hlt]
      · cases ms' with
        | nil =>
            rw [List.prefix_nil.mp hw'] at hge
            exact absurd hge (by decide)
        | cons m' ms' =>
            have hheader := header_eq_of_prefix hw hw' hge
            have hsize : m.size = m'.size := by
              have hpay := congrArg (fun h : Header => h.payloadLen.toNat) hheader
              simp only [Message.toNat_payloadLen_header] at hpay
              rw [Message.size, Message.size, hpay]
            have hdrop : ∀ {m : Message} {ms}, w <+: wire (m :: ms) →
                w.drop m.size <+: wire ms := by
              intro m ms hw
              have hd := List.IsPrefix.drop hw m.size
              rwa [wire_cons, drop_append_of_length (Message.length_bytes m)] at hd
            have hrest := ih (hdrop hw) ms' (by rw [hsize]; exact hdrop hw')
            rw [List.length_drop] at hrest
            rw [headersWithin, headersWithin, if_neg (by omega), if_neg (by omega), hheader, hrest,
              hsize]

/-! ## Whole messages -/

theorem pieceBytes_map_piece (ms : List Message) :
    pieceBytes (ms.map Message.piece) = wire ms := by
  rw [pieceBytes, List.flatMap_map]
  rfl

theorem arrived_pieces (ms : List Message) : Arrived ms (ms.map Message.piece) [] := by
  induction ms with
  | nil => exact .nil
  | cons m ms ih => exact .cons m ih

/-- Where nothing is still to come, every message is whole. -/
theorem Arrived.eq_pieces (h : Arrived ms ps carry) (hcarry : carry = []) :
    ps = ms.map Message.piece := by
  induction h with
  | nil => rfl
  | last m p carry hh hb =>
      obtain ⟨header, body, fits, short⟩ := p
      subst hcarry
      rw [List.append_nil] at hb
      simp only [Message.piece, List.map_cons, List.map_nil, hb]
      simp only at hh
      simp only [hh]
  | cons m h ih => rw [List.map_cons, ← ih hcarry]

/-- A message with its Message Parameter skewed. -/
def Message.skewed (f : HislipFaults) (m : Message) : Message :=
  { m with messageParameter := m.messageParameter + skewOf f m.header }

theorem map_skewed_piece (f : HislipFaults) (ms : List Message) :
    (ms.map Message.piece).map (Piece.skewed f) = (ms.map (Message.skewed f)).map Message.piece := by
  rw [List.map_map, List.map_map]
  rfl

theorem length_wire_skewed (f : HislipFaults) (ms : List Message) :
    (wire (ms.map (Message.skewed f))).length = (wire ms).length := by
  induction ms with
  | nil => rfl
  | cons m ms ih =>
      rw [List.map_cons, wire_cons, wire_cons, List.length_append, List.length_append, ih,
        Message.length_bytes, Message.length_bytes]
      rfl

/-- A tracker that stands between two messages of the server and is to break no
prologue. -/
structure Tracker.Clean (t : Tracker) : Prop where
  pending : t.pending.server = 0
  unbroken : t.faults.breakPrologue.getD false = false

/-- **Whole messages** are delivered as whole messages, perhaps one more, and
recorded as they are delivered. -/
theorem deliver_messages {t : Tracker} (ht : t.Clean) {ms : List Message}
    (hlen : (wire ms).length < 2 ^ 62) :
    ∃ ms' t', t.deliver (wire ms) = some (wire ms', t') ∧ t'.Clean ∧
      t'.seen = t.seen ++ ms'.map fun m => ⟨.server, m.header⟩ := by
  obtain ⟨begun, harr, hcase⟩ := @splitStep_arrived _ _ _ t.faults (arrived_pieces ms)
  have hrw := @rewriteFaults_chain t.faults (ms.map Message.piece) [] (arrived_pieces ms).chain
  obtain ⟨hqs, hg, hwire⟩ : (splitStep t.faults (ms.map Message.piece)).1 = begun.map Message.piece ∧
      (splitStep t.faults (ms.map Message.piece)).2.breakPrologue = t.faults.breakPrologue ∧
      (wire begun).length ≤ (wire ms).length + headerLen := by
    refine ⟨harr.eq_pieces rfl, ?_⟩
    rcases hcase with ⟨rfl, hg⟩ | ⟨⟨cut, -, -, hsplit⟩, hg⟩
    · exact ⟨by rw [hg], by omega⟩
    · exact ⟨by rw [hg], by rw [hsplit.length_wire]⟩
  generalize (splitStep t.faults (ms.map Message.piece)).2 = g at *
  rw [hqs] at hrw
  have hunbroken : g.breakPrologue.getD false = false := by rw [hg]; exact ht.unbroken
  have hlen' : (wire begun).length < 2 ^ 63 := by simp only [headerLen] at hwire; omega
  obtain ⟨r, hr, hout⟩ := hrw (by simp only [List.nil_append, pieceBytes_map_piece]; omega)
  rw [patchedBytes_of_unbroken hunbroken, map_skewed_piece] at hout
  simp only [List.nil_append, pieceBytes_map_piece, List.length_nil] at hr hout
  have hpending : t.pending.get .server = ([] : List UInt8).length := ht.pending
  obtain ⟨t', hobs, hseen, hpending', hfaults⟩ : ∃ t',
      Tracker.observe { t with faults := disarmed g (begun.map Message.piece) }
        (wire (begun.map (Message.skewed g))) .server = some t' ∧
      t'.seen = t.seen ++ (begun.map (Message.skewed g)).map (fun m => ⟨.server, m.header⟩) ∧
      t'.pending.server = 0 ∧ t'.faults = disarmed g (begun.map Message.piece) := by
    have hlen'' : (pieceBytes ((begun.map (Message.skewed g)).map Message.piece)).length < 2 ^ 63 := by
      rw [pieceBytes_map_piece, length_wire_skewed]
      exact hlen'
    have hobs := @observe_chain { t with faults := disarmed g (begun.map Message.piece) } .server []
      _ hpending (arrived_pieces (begun.map (Message.skewed g))).chain hlen''
    rw [List.nil_append, pieceBytes_map_piece, (arrived_pieces _).owed_eq,
      (arrived_pieces _).map_header, List.map_map] at hobs
    exact ⟨_, hobs, rfl, rfl, rfl⟩
  refine ⟨begun.map (Message.skewed g), t', ?_, ⟨hpending', ?_⟩, hseen⟩
  · rw [Tracker.deliver, Tracker.rewrite, ht.pending, hr]
    simp only [Option.map_some, Option.bind_some, hout, hobs]
  · simp [hfaults, disarmed_eq, armedAfter, hunbroken]

end TestGear.Hislip

namespace TestGear.Proxy

open Hislip

/-! ## A connection of whole messages -/

/-- The trackers of a HiSLIP connection. -/
def onHislip (t : Tracker) : Trackers := { hislip := some t }

theorem sent_onHislip (t : Tracker) (buf : List UInt8) :
    (onHislip t).sent buf = (t.observe buf .client).map onHislip := rfl

theorem pass_onHislip (t : Tracker) (chunk : List UInt8) :
    (onHislip t).pass chunk = (t.deliver chunk).map (Prod.map id onHislip) := by
  simp only [Trackers.pass, Trackers.rewriteReplies, Trackers.rewrite, onHislip, Tracker.deliver]
  cases t.rewrite chunk with
  | none => rfl
  | some r =>
      simp only [Option.map_some, Option.bind_some, Option.map_map]
      rfl

/-- A read that holds whole messages, in a buffer's room. -/
def Whole (r : Read) : Prop := r.bytes.length ≤ bufLen ∧ ∃ ms, r.bytes = wire ms

/-- The server's headers on record. -/
def serverHeaders (t : Tracker) : List Header :=
  (t.seen.filter fun s => s.side = .server).map Seen.header

/-- What the client sends is recorded apart. -/
theorem observe_client {t t' : Tracker} {buf : List UInt8} (h : t.observe buf .client = some t')
    (ht : t.Clean) : t'.Clean ∧ serverHeaders t' = serverHeaders t := by
  obtain ⟨⟨found, leftover⟩, -, rfl⟩ := Option.map_eq_some_iff.mp h
  refine ⟨⟨ht.pending, ht.unbroken⟩, ?_⟩
  simp [serverHeaders]

/-- **As long as every call returns**, whole messages have been written, and
their headers are on record. -/
theorem after_whole {t : Tracker} (ht : t.Clean) {es : List Event}
    (hes : ∀ r, .server r ∈ es → Whole r) {ts' : Trackers}
    (h : after (onHislip t) es = some ts') :
    ∃ t' ms, ts' = onHislip t' ∧ rewritten (onHislip t) es = wire ms ∧
      serverHeaders t' = serverHeaders t ++ ms.map Message.header := by
  induction es generalizing t with
  | nil =>
      rw [after, Option.some.injEq] at h
      exact ⟨t, [], h.symm, rfl, by simp⟩
  | cons e es ih =>
      rw [after, Option.bind_eq_some_iff] at h
      obtain ⟨ts₁, hsee, hrest⟩ := h
      have hes' : ∀ r, .server r ∈ es → Whole r := fun r hr => hes r (List.mem_cons_of_mem e hr)
      cases e with
      | client buf =>
          rw [Trackers.see, sent_onHislip, Option.map_eq_some_iff] at hsee
          obtain ⟨t₁, hobs, rfl⟩ := hsee
          obtain ⟨ht₁, hsame⟩ := observe_client hobs ht
          obtain ⟨t', ms, rfl, hrw, hlog⟩ := ih ht₁ hes' hrest
          have hsent : (onHislip t).sent buf = some (onHislip t₁) := by
            rw [sent_onHislip, hobs]
            rfl
          exact ⟨t', ms, rfl, by rw [rewritten_client hsent, hrw], by rw [hlog, hsame]⟩
      | server r =>
          obtain ⟨hfits, ms, hms⟩ := hes r List.mem_cons_self
          have hlen : (wire ms).length < 2 ^ 62 := by
            rw [hms, bufLen] at hfits
            omega
          obtain ⟨ms', t₁, hdel, ht₁, hseen⟩ := deliver_messages ht hlen
          have hpass : (onHislip t).pass r.bytes = some (wire ms', onHislip t₁) := by
            rw [pass_onHislip, hms, hdel]
            rfl
          rw [Trackers.see, hpass, Option.map_some, Option.some.injEq] at hsee
          subst hsee
          obtain ⟨t', ms₂, rfl, hrw, hlog⟩ := ih ht₁ hes' hrest
          refine ⟨t', ms' ++ ms₂, rfl, by rw [rewritten_server hpass, hrw, wire_append], ?_⟩
          rw [hlog, serverHeaders, hseen, List.map_append, ← List.append_assoc]
          simp [serverHeaders, List.filter_map, Function.comp_def]

/-! ## The log -/

/-- What the tracker has recorded of the server, when forwarding stops, is the
headers that were written to the client. -/
def LogExact (f : Faults) (t : Tracker) (es : List Event) : Prop :=
  ∃ t' hs, (forward f (onHislip t) es).trackers = onHislip t' ∧
    serverHeaders t' = serverHeaders t ++ hs ∧ Carries (forward f (onHislip t) es).written hs

/-- Of the read that a limit cuts, less than one header is let through. -/
def CutInHeader (f : Faults) (t : Tracker) (es : List Event) : Prop :=
  ∀ pre r post ts' ending limit, es = pre ++ .server r :: post →
    after (onHislip t) pre = some ts' → (limits f).passed (received pre) = none →
    (limits f).passed (received pre + r.bytes.length) = some (ending, limit) →
    limit - received pre < headerLen

theorem carries_wire (ms : List Message) : Carries (wire ms) (ms.map Message.header) :=
  ⟨ms, List.prefix_rfl, (headersWithin_wire ms).symm⟩

/-- The bytes that were written when a read is cut behind `k` bytes. -/
theorem carries_cut {xs ys : List Message} {k : Nat} (hk : k ≤ (wire ys).length) :
    Carries (wire xs ++ (wire ys).take k) (xs.map Message.header ++ headersWithin ys k) := by
  refine ⟨xs ++ ys, ?_, ?_⟩
  · rw [wire_append, List.prefix_append_right_inj]
    exact List.take_prefix k _
  · rw [List.length_append, List.length_take, Nat.min_eq_left hk, headersWithin_append]

section

variable {f : Faults} {t : Tracker} {es : List Event}

theorem LogExact.cutInHeader (ht : t.Clean) (hes : ∀ r, .server r ∈ es → Whole r)
    (h : LogExact f t es) : CutInHeader f t es := by
  rintro pre r post ts' ending limit rfl hafter hl hcut
  by_contra hthrough
  rw [Nat.not_lt] at hthrough
  obtain ⟨t', hs, htrackers, hlog, hcarries⟩ := h
  obtain ⟨t₁, ms, rfl, hrw, hlog₁⟩ :=
    after_whole ht (fun r hr => hes r (List.mem_append_left _ hr)) hafter
  obtain ⟨-, ys, hys⟩ := hes r (by simp)
  obtain ⟨hset, hlt⟩ := Limits.passed_eq_some hcut
  rw [forward_cut hafter hl hcut] at htrackers hcarries
  have hone : t₁ = t' := by simpa [onHislip] using htrackers
  subst hone
  have hk : limit - received pre ≤ (wire ys).length := by rw [← hys]; omega
  have hall := hcarries.unique (by rw [hrw, hys]; exact carries_cut hk)
  rw [hlog₁, List.append_cancel_left_eq] at hlog
  rw [← hlog, List.self_eq_append_right] at hall
  -- the cut read has a first header, and it was let through
  cases ys with
  | nil => exact r.nonempty hys
  | cons m ys =>
      rw [headersWithin, if_neg (Nat.not_lt.mpr hthrough)] at hall
      cases hall

theorem CutInHeader.logExact (ht : t.Clean) (hes : ∀ r, .server r ∈ es → Whole r)
    (h : CutInHeader f t es) : LogExact f t es := by
  have hstops := toClient_stops (limits f) (Limits.passed_zero _) (onHislip t) es
  unfold LogExact forward
  generalize toClient (limits f) 0 (onHislip t) es = fw at hstops
  cases hstops with
  | closed ts' hafter hl =>
      obtain ⟨t', ms, rfl, hrw, hlog⟩ := after_whole ht hes hafter
      exact ⟨t', ms.map Message.header, rfl, hlog, by rw [hrw]; exact carries_wire ms⟩
  | hung pre e post ts' heq hafter hl hsee =>
      subst heq
      obtain ⟨t', ms, rfl, hrw, hlog⟩ :=
        after_whole ht (fun r hr => hes r (List.mem_append_left _ hr)) hafter
      exact ⟨t', ms.map Message.header, rfl, hlog, by rw [hrw]; exact carries_wire ms⟩
  | cut pre r post ts' ending limit heq hafter hl hcut =>
      subst heq
      rw [Nat.zero_add] at hl hcut ⊢
      obtain ⟨t', ms, rfl, hrw, hlog⟩ :=
        after_whole ht (fun r hr => hes r (List.mem_append_left _ hr)) hafter
      obtain ⟨-, ys, hys⟩ := hes r (by simp)
      obtain ⟨hset, hlt⟩ := Limits.passed_eq_some hcut
      have hk : limit - received pre ≤ (wire ys).length := by rw [← hys]; omega
      have hsmall := h pre r post _ ending limit rfl hafter hl hcut
      have hcarries := @carries_cut ms ys _ hk
      rw [headersWithin_of_lt ys hsmall, List.append_nil] at hcarries
      exact ⟨t', ms.map Message.header, rfl, hlog, by rw [hrw, hys]; exact hcarries⟩

/-- **The log describes what the client received** exactly when no limit lets a
header through of the read it cuts. -/
theorem logExact_iff (ht : t.Clean) (hes : ∀ r, .server r ∈ es → Whole r) :
    LogExact f t es ↔ CutInHeader f t es :=
  ⟨LogExact.cutInHeader ht hes, CutInHeader.logExact ht hes⟩

end

/-! ## Two messages in one read -/

/-- A DataEND without payload: a header and nothing else. -/
def emptyDataEnd : Message := ⟨msgDataEnd, 0, 0, [], Message.short_nil⟩

def twoInOne : List Event := [.server ⟨wire [emptyDataEnd, emptyDataEnd], by decide⟩]

theorem whole_twoInOne : ∀ r, .server r ∈ twoInOne → Whole r := by
  intro r hr
  simp only [twoInOne, List.mem_singleton, Event.server.injEq] at hr
  subst hr
  exact ⟨by decide, _, rfl⟩

theorem logExact_iff_dropInHeader :
    LogExact { Faults.new with dropAfterBytes := 5 } Tracker.new twoInOne := by
  refine (logExact_iff ⟨rfl, rfl⟩ whole_twoInOne).mpr ?_
  intro pre r post ts' ending limit _ _ _ hcut
  obtain ⟨hset, -⟩ := Limits.passed_eq_some hcut
  have hlimit : limit = 5 := by
    rcases hset with h | h
    · exact (Option.some.inj h).symm
    · cases h
  rw [hlimit, headerLen]
  omega

/-- A drop behind 20 bytes lets the first header through, and the log is
empty. -/
theorem not_logExact_dropInSecond :
    ¬ LogExact { Faults.new with dropAfterBytes := 20 } Tracker.new twoInOne := by
  rintro ⟨t', hs, htrackers, hlog, hcarries⟩
  have ht : Tracker.new = t' := Option.some.inj (congrArg Trackers.hislip htrackers)
  subst ht
  have hnone : hs = [] := by simpa [serverHeaders, Tracker.new] using hlog
  have hfirst : Carries (forward { Faults.new with dropAfterBytes := 20 } (onHislip Tracker.new)
      twoInOne).written [emptyDataEnd.header] :=
    @carries_cut [] [emptyDataEnd, emptyDataEnd] 20 (by decide)
  rw [hcarries.unique hfirst] at hnone
  cases hnone

end TestGear.Proxy
