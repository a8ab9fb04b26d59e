import TestGear.Hislip.Walk
import TestGear.Proxy

/-!
# TestGear.Proxy.Segmentation

Where the byte limits cut a stream that the trackers leave alone, however TCP
segments it.  A read that passes a limit ends the connection there; but the
drop is tested first, so a read that passes both limits is dropped at the
drop's even where the stall's is smaller.

* `rewritten_of_unarmed` — with no message fault armed nothing is rewritten;
* `cutAt_iff` — exactly when two segmentations of one stream are cut at the
  smallest limit and end by it.
-/

namespace TestGear

/-- Noting calls leaves the armed faults alone. -/
theorem Vxi11.faults_observeCalls (t : Vxi11.Tracker) (buf : List UInt8) :
    (t.observeCalls buf).faults = t.faults := by
  have hone : ∀ (t : Vxi11.Tracker) record, (t.observeCall record).faults = t.faults := by
    intro t record
    unfold Vxi11.Tracker.observeCall
    split <;> rfl
  unfold Vxi11.Tracker.observeCalls
  cases Vxi11.wholeRecords buf with
  | none => rfl
  | some found =>
      induction found generalizing t with
      | nil => rfl
      | cons s found ih => exact (ih _).trans (hone t _)

/-- So does recording headers. -/
theorem Hislip.faults_observe {t t' : Hislip.Tracker} {buf : List UInt8} {side : Hislip.Side}
    (h : t.observe buf side = some t') : t'.faults = t.faults := by
  obtain ⟨r, -, rfl⟩ := Option.map_eq_some_iff.mp h
  rfl

end TestGear

namespace TestGear.Proxy

/-! ## With nothing armed -/

/-- No message fault is armed in either tracker. -/
structure Trackers.Unarmed (ts : Trackers) : Prop where
  vxi11 : ∀ t, ts.vxi11 = some t → t.faults.isArmed = false
  hislip : ∀ t, ts.hislip = some t → t.faults.armed = false

namespace Trackers.Unarmed

theorem sent {ts ts' : Trackers} (h : ts.Unarmed) {buf : List UInt8}
    (hsent : ts.sent buf = some ts') : ts'.Unarmed := by
  have hvxi : ∀ t, ts.vxi11.map (·.observeCalls buf) = some t → t.faults.isArmed = false := by
    intro t ht
    obtain ⟨t₀, ht₀, rfl⟩ := Option.map_eq_some_iff.mp ht
    rw [Vxi11.faults_observeCalls]
    exact h.vxi11 t₀ ht₀
  unfold Trackers.sent at hsent
  cases hh : ts.hislip with
  | none =>
      simp only [hh, Option.some.injEq] at hsent
      subst hsent
      exact ⟨hvxi, fun _ hnone => nomatch hnone⟩
  | some t =>
      simp only [hh, Option.map_eq_some_iff] at hsent
      obtain ⟨t', hobs, rfl⟩ := hsent
      refine ⟨hvxi, ?_⟩
      rintro _ ⟨⟩
      rw [Hislip.faults_observe hobs]
      exact h.hislip t hh

/-- A read goes by as it is. -/
theorem pass {ts ts' : Trackers} (h : ts.Unarmed) {chunk body : List UInt8}
    (hpass : ts.pass chunk = some (body, ts')) : body = chunk ∧ ts'.Unarmed := by
  have hvxi : ts.rewriteReplies chunk = (none, ts.vxi11) := by
    unfold Trackers.rewriteReplies
    cases ht : ts.vxi11 with
    | none => rfl
    | some t => simp [Vxi11.Tracker.rewriteReplies, h.vxi11 t ht]
  cases hh : ts.hislip with
  | none =>
      simp only [Trackers.pass, Trackers.rewrite, hvxi, hh, Option.bind_some, Option.getD_none,
        Option.some.injEq, Prod.mk.injEq] at hpass
      obtain ⟨rfl, rfl⟩ := hpass
      exact ⟨rfl, h.vxi11, fun _ hnone => nomatch hnone⟩
  | some t =>
      have hrew : t.rewrite chunk = some (none, t) := by
        simp [Hislip.Tracker.rewrite, Hislip.rewriteFaults, Hislip.rewriteWith, h.hislip t hh]
      simp only [Trackers.pass, Trackers.rewrite, hvxi, hh, hrew, Option.map_some, Prod.map_apply,
        id_eq, Option.bind_some, Option.getD_none, Option.map_eq_some_iff, Prod.mk.injEq] at hpass
      obtain ⟨t', hobs, rfl, rfl⟩ := hpass
      refine ⟨rfl, h.vxi11, ?_⟩
      rintro _ ⟨⟩
      rw [Hislip.faults_observe hobs]
      exact h.hislip t hh

/-- Any event. -/
theorem see {ts ts' : Trackers} (h : ts.Unarmed) {e : Event} (hsee : ts.see e = some ts') :
    ts'.Unarmed := by
  cases e with
  | client buf => exact h.sent hsee
  | server r =>
      rw [Trackers.see, Option.map_eq_some_iff] at hsee
      obtain ⟨⟨body, ts₂⟩, hpass, rfl⟩ := hsee
      exact (h.pass hpass).2

theorem after {ts ts' : Trackers} (h : ts.Unarmed) {es : List Event}
    (hafter : Proxy.after ts es = some ts') : ts'.Unarmed := by
  induction es generalizing ts with
  | nil =>
      cases hafter
      exact h
  | cons e es ih =>
      rw [Proxy.after, Option.bind_eq_some_iff] at hafter
      obtain ⟨ts₁, hsee, hrest⟩ := hafter
      exact ih (h.see hsee) hrest

end Trackers.Unarmed

/-- What a tracker looks for headers in, when it is shown `buf`: what is behind
the payload that is still to come. -/
def shown (t : Hislip.Tracker) (side : Hislip.Side) (buf : List UInt8) : List UInt8 :=
  buf.drop (min (t.pending.get side) buf.length)

/-- The lengths in what an event brings lead out of it, for a HiSLIP tracker. -/
def Trackers.LeadsOut (ts : Trackers) (e : Event) : Prop :=
  ∀ t, ts.hislip = some t → Hislip.LeadsOut (match e with
    | .client buf => shown t .client buf
    | .server r => shown t .server r.bytes)

theorem observe_ne_none_iff (t : Hislip.Tracker) (buf : List UInt8) (side : Hislip.Side) :
    t.observe buf side ≠ none ↔ Hislip.LeadsOut (shown t side buf) := by
  rw [← Hislip.scan_ne_none_iff, Hislip.Tracker.observe, ne_eq, Option.map_eq_none_iff]
  rfl

/-- With nothing armed, a call returns just when the lengths lead out. -/
theorem Trackers.Unarmed.see_ne_none_iff {ts : Trackers} (h : ts.Unarmed) (e : Event) :
    ts.see e ≠ none ↔ ts.LeadsOut e := by
  cases hh : ts.hislip with
  | none =>
      have hsee : ts.see e ≠ none := by
        cases e with
        | client buf => simp [Trackers.see, Trackers.sent, hh]
        | server r => simp [Trackers.see, Trackers.pass, Trackers.rewrite, hh]
      exact iff_of_true hsee fun t ht => by rw [hh] at ht; cases ht
  | some t =>
      have hleads : ts.LeadsOut e ↔ Hislip.LeadsOut (match e with
          | .client buf => shown t .client buf
          | .server r => shown t .server r.bytes) := by
        simp [Trackers.LeadsOut, hh]
      rw [hleads]
      cases e with
      | client buf =>
          rw [← observe_ne_none_iff]
          simp [Trackers.see, Trackers.sent, hh]
      | server r =>
          have hvxi : (ts.rewriteReplies r.bytes).1 = none := by
            cases ht : ts.vxi11 with
            | none => simp [Trackers.rewriteReplies, ht]
            | some t => simp [Trackers.rewriteReplies, ht, Vxi11.Tracker.rewriteReplies, h.vxi11 t ht]
          have hrew : t.rewrite r.bytes = some (none, t) := by
            simp [Hislip.Tracker.rewrite, Hislip.rewriteFaults, Hislip.rewriteWith, h.hislip t hh]
          rw [← observe_ne_none_iff]
          simp [Trackers.see, Trackers.pass, Trackers.rewrite, hvxi, hh, hrew]

/-- With nothing armed, what is written is what was received. -/
theorem rewritten_of_unarmed {ts ts' : Trackers} {es : List Event} (hts : ts.Unarmed)
    (h : after ts es = some ts') : rewritten ts es = stream es := by
  induction es generalizing ts with
  | nil => rfl
  | cons e es ih =>
      rw [after, Option.bind_eq_some_iff] at h
      obtain ⟨ts₁, hsee, hrest⟩ := h
      cases e with
      | client buf =>
          rw [rewritten_client hsee, ih (hts.sent hsee) hrest]
          rfl
      | server r =>
          rw [Trackers.see, Option.map_eq_some_iff] at hsee
          obtain ⟨⟨body, ts₂⟩, hpass, rfl⟩ := hsee
          obtain ⟨rfl, hun⟩ := hts.pass hpass
          rw [rewritten_server hpass, ih hun hrest]
          rfl

/-! ## The smallest limit -/

namespace Limits

/-- What may be delivered of a stream: as much as every limit has room for. -/
def prefixOf (l : Limits) (s : List UInt8) : List UInt8 :=
  (s.take (l.drop.getD s.length)).take (l.stall.getD s.length)

/-- How a stream of `n` bytes ends: by the smaller limit of those it passes. -/
def endingOf (l : Limits) (n : Nat) : Ending :=
  match exceeded l.drop n, exceeded l.stall n with
  | some drop, some stall => if drop ≤ stall then .dropped else .stalled
  | some _, none => .dropped
  | none, some _ => .stalled
  | none, none => .closed

variable {l : Limits} {n limit : Nat} {ending : Ending}

/-- A stream no limit is passed by is delivered whole. -/
theorem prefixOf_of_not_passed {s : List UInt8} (h : l.passed s.length = none) :
    l.prefixOf s = s := by
  rw [passed_eq_none_iff] at h
  have hroom : ∀ limit : Option Nat, (∀ m, limit = some m → l.Has m) →
      s.length ≤ limit.getD s.length := by
    intro limit hset
    cases limit with
    | none => exact Nat.le_refl _
    | some m => exact h m (hset m rfl)
  rw [prefixOf, List.take_of_length_le (hroom l.drop fun _ => .inl),
    List.take_of_length_le (hroom l.stall fun _ => .inr)]

theorem endingOf_of_not_passed (h : l.passed n = none) : l.endingOf n = .closed := by
  rw [passed_eq_none_iff] at h
  have hdrop : exceeded l.drop n = none := exceeded_eq_none_iff.mpr fun m hm => h m (.inl hm)
  have hstall : exceeded l.stall n = none := exceeded_eq_none_iff.mpr fun m hm => h m (.inr hm)
  rw [endingOf, hdrop, hstall]

/-- A stream that passes its smallest limit is delivered up to there. -/
theorem prefixOf_of_least {s : List UInt8} (hset : l.Has limit) (hlt : limit < s.length)
    (hleast : ∀ other, l.Has other → limit ≤ other) : l.prefixOf s = s.take limit := by
  have hroom : ∀ limit' : Option Nat, (∀ m, limit' = some m → l.Has m) →
      limit ≤ limit'.getD s.length := by
    intro limit' hset'
    cases limit' with
    | none => exact Nat.le_of_lt hlt
    | some m => exact hleast m (hset' m rfl)
  have hdrop := hroom l.drop fun _ => .inl
  have hstall := hroom l.stall fun _ => .inr
  have hmin : min (l.stall.getD s.length) (l.drop.getD s.length) = limit := by
    rcases hset with h | h <;> simp only [h, Option.getD_some] at hdrop hstall ⊢ <;> omega
  rw [prefixOf, List.take_take, hmin]

/-- The limit that a read passes first is the one the stream ends by, if it is
the smallest that is set. -/
theorem endingOf_of_passed {m : Nat} (hle : n ≤ m) (h : l.passed n = some (ending, limit))
    (hleast : ∀ other, l.Has other → limit ≤ other) : l.endingOf m = ending := by
  obtain ⟨hset, hlt⟩ := passed_eq_some h
  unfold passed at h
  cases hd : exceeded l.drop n with
  | some d =>
      simp only [hd, Option.some.injEq, Prod.mk.injEq] at h
      obtain ⟨rfl, rfl⟩ := h
      obtain ⟨hdrop, -⟩ := exceeded_eq_some_iff.mp hd
      have hd' : exceeded l.drop m = some d := exceeded_eq_some_iff.mpr ⟨hdrop, by omega⟩
      rw [endingOf, hd']
      cases hs : exceeded l.stall m with
      | none => rfl
      | some s => simp [hleast s (.inr (exceeded_eq_some_iff.mp hs).1)]
  | none =>
      simp only [hd, Option.map_eq_some_iff, Prod.mk.injEq] at h
      obtain ⟨s, hs, rfl, rfl⟩ := h
      obtain ⟨hstall, -⟩ := exceeded_eq_some_iff.mp hs
      have hs' : exceeded l.stall m = some s := exceeded_eq_some_iff.mpr ⟨hstall, by omega⟩
      rw [endingOf, hs']
      cases hd' : exceeded l.drop m with
      | none => rfl
      | some d =>
          have hlate := exceeded_eq_none_iff.mp hd d (exceeded_eq_some_iff.mp hd').1
          have hnot : ¬ d ≤ s := by omega
          simp [hnot]

end Limits

/-! ## Where a stream is cut -/

/-- The stream `s`, however it is segmented, is cut at the smallest limit and
ends by it. -/
structure CutAt (f : Faults) (ts : Trackers) (s : List UInt8) (es : List Event) : Prop where
  written : (forward f ts es).written = (limits f).prefixOf s
  ending : (forward f ts es).ending = (limits f).endingOf s.length

/-- What can go wrong does not: within the limits the lengths in what the
trackers are shown lead out of it, and no read that begins within a stall limit
passes a larger drop limit. -/
structure Plain (f : Faults) (ts : Trackers) (es : List Event) : Prop where
  returns : ∀ pre e post ts', es = pre ++ e :: post → after ts pre = some ts' →
    (limits f).passed (received pre + e.bytes.length) = none → ts'.LeadsOut e
  reads : ∀ drop stall pre r post ts', (limits f).drop = some drop →
    (limits f).stall = some stall → stall < drop → es = pre ++ .server r :: post →
    after ts pre = some ts' → received pre ≤ stall → received pre + r.bytes.length ≤ drop

/-- A read that passes both limits, the smaller one being the stall's. -/
theorem passed_both {l : Limits} {drop stall n m : Nat} (hdrop : l.drop = some drop)
    (hstall : l.stall = some stall) (hlt : stall < drop) (hn : n ≤ stall) (hm : drop < m) :
    l.passed n = none ∧ l.passed m = some (.dropped, drop) ∧ l.endingOf m = .stalled := by
  have hd : Limits.exceeded l.drop m = some drop := Limits.exceeded_eq_some_iff.mpr ⟨hdrop, hm⟩
  have hs : Limits.exceeded l.stall m = some stall :=
    Limits.exceeded_eq_some_iff.mpr ⟨hstall, by omega⟩
  refine ⟨?_, ?_, ?_⟩
  · rw [Limits.passed_eq_none_iff]
    rintro k (hk | hk)
    · rw [hdrop, Option.some.injEq] at hk
      omega
    · rw [hstall, Option.some.injEq] at hk
      omega
  · rw [Limits.passed, hd]
  · simp [Limits.endingOf, hd, hs, hlt]

theorem CutAt.plain {f : Faults} {ts : Trackers} (hts : ts.Unarmed) {es : List Event}
    (h : CutAt f ts (stream es) es) : Plain f ts es := by
  constructor
  · rintro pre e post ts' rfl hafter hl
    rw [← (hts.after hafter).see_ne_none_iff]
    intro hsee
    have hend := h.ending
    rw [forward_hung hafter hl hsee, Limits.endingOf] at hend
    grind
  · rintro drop stall pre r post ts' hdrop hstall hlt rfl hafter hpre
    by_contra hover
    have hend := h.ending
    obtain ⟨hl, hcut, -⟩ := passed_both hdrop hstall hlt hpre (Nat.lt_of_not_le hover)
    have hlong : drop < (stream (pre ++ .server r :: post)).length := by
      simp only [received] at hover
      simp only [stream_append, stream_cons, Event.bytes, List.length_append]
      omega
    obtain ⟨-, -, hstalled⟩ := passed_both hdrop hstall hlt hpre hlong
    rw [forward_cut hafter hl hcut, hstalled] at hend
    cases hend

/-- The read that is cut is cut at the smallest limit. -/
theorem Plain.least {f : Faults} {ts ts' : Trackers} {pre post : List Event} {r : Read}
    {ending : Ending} {limit : Nat} (h : Plain f ts (pre ++ .server r :: post))
    (hafter : after ts pre = some ts') (hl : (limits f).passed (received pre) = none)
    (hcut : (limits f).passed (received pre + r.bytes.length) = some (ending, limit)) :
    ∀ other, (limits f).Has other → limit ≤ other := by
  rw [Limits.passed_eq_none_iff] at hl
  unfold Limits.passed at hcut
  cases hd : Limits.exceeded (limits f).drop (received pre + r.bytes.length) with
  | some d =>
      simp only [hd, Option.some.injEq, Prod.mk.injEq] at hcut
      obtain ⟨-, rfl⟩ := hcut
      obtain ⟨hdrop, hlt⟩ := Limits.exceeded_eq_some_iff.mp hd
      rintro other (hother | hother)
      · rw [hdrop, Option.some.injEq] at hother
        omega
      · by_contra hsmall
        have hpre := hl other (.inr hother)
        have hle := h.reads d other pre r post ts' hdrop hother (by omega) rfl hafter hpre
        omega
  | none =>
      simp only [hd, Option.map_eq_some_iff, Prod.mk.injEq] at hcut
      obtain ⟨s, hs, -, rfl⟩ := hcut
      obtain ⟨hstall, hlt⟩ := Limits.exceeded_eq_some_iff.mp hs
      rintro other (hother | hother)
      · have hlate := Limits.exceeded_eq_none_iff.mp hd other hother
        omega
      · rw [hstall, Option.some.injEq] at hother
        omega

theorem Plain.cutAt {f : Faults} {ts : Trackers} (hts : ts.Unarmed) {es : List Event}
    (h : Plain f ts es) : CutAt f ts (stream es) es := by
  have hstops := toClient_stops (limits f) (Limits.passed_zero _) ts es
  suffices hfw : ∀ fw, Stops (limits f) 0 ts es fw →
      fw.written = (limits f).prefixOf (stream es) ∧
        fw.ending = (limits f).endingOf (stream es).length from
    ⟨(hfw _ hstops).1, (hfw _ hstops).2⟩
  intro fw hstops
  cases hstops with
  | closed ts' hafter hl =>
      rw [Nat.zero_add, received] at hl
      rw [rewritten_of_unarmed hts hafter, Limits.prefixOf_of_not_passed hl,
        Limits.endingOf_of_not_passed hl]
      exact ⟨rfl, rfl⟩
  | hung pre e post ts' hes hafter hl hsee =>
      rw [Nat.zero_add] at hl
      have hreturns := h.returns pre e post ts' hes hafter hl
      exact absurd hsee ((hts.after hafter).see_ne_none_iff e |>.mpr hreturns)
  | cut pre r post ts' ending limit hes hafter hl hcut =>
      subst hes
      rw [Nat.zero_add] at hl hcut ⊢
      have hleast := h.least hafter hl hcut
      obtain ⟨hset, hlt⟩ := Limits.passed_eq_some hcut
      have hge := Limits.passed_eq_none_iff.mp hl limit hset
      have hlong : received pre + r.bytes.length ≤ (stream (pre ++ .server r :: post)).length := by
        simp only [received, stream_append, stream_cons, Event.bytes, List.length_append]
        omega
      refine ⟨?_, (Limits.endingOf_of_passed hlong hcut hleast).symm⟩
      rw [Limits.prefixOf_of_least hset (by omega) hleast, rewritten_of_unarmed hts hafter,
        stream_append, stream_cons, Event.bytes, List.take_append, List.take_of_length_le hge,
        List.take_append_of_le_length (by rw [received] at hlt; omega)]
      rfl

/-- **Segmentation does not matter** exactly when neither segmentation hangs a
tracker or has a read that passes the drop's limit from within a smaller one. -/
theorem cutAt_iff {f : Faults} {ts : Trackers} (hts : ts.Unarmed) {s : List UInt8}
    {es₁ es₂ : List Event} (h₁ : stream es₁ = s) (h₂ : stream es₂ = s) :
    CutAt f ts s es₁ ∧ CutAt f ts s es₂ ↔ Plain f ts es₁ ∧ Plain f ts es₂ := by
  have hone : ∀ {es}, stream es = s → (CutAt f ts s es ↔ Plain f ts es) := by
    rintro es rfl
    exact ⟨CutAt.plain hts, Plain.cutAt hts⟩
  rw [hone h₁, hone h₂]

/-! ## Three bytes, in one read and in three -/

def oneRead : List Event := [.server ⟨[1, 2, 3], by decide⟩]

def threeReads : List Event :=
  [.server ⟨[1], by decide⟩, .server ⟨[2], by decide⟩, .server ⟨[3], by decide⟩]

theorem unarmed_none : Trackers.Unarmed {} := ⟨fun _ h => (nomatch h), fun _ h => nomatch h⟩

theorem after_none (es : List Event) : after {} es = some {} := by
  induction es with
  | nil => rfl
  | cons e es ih =>
      have hsee : Trackers.see {} e = some {} := by cases e <;> rfl
      rw [after, hsee]
      exact ih

/-- With one limit only, and no tracker to hang. -/
theorem plain_drop (es : List Event) : Plain { Faults.new with dropAfterBytes := 2 } {} es := by
  constructor
  · rintro pre e post ts' rfl hafter - t ht
    rw [after_none, Option.some.injEq] at hafter
    subst hafter
    cases ht
  · rintro drop stall pre r post ts' - hstall
    cases hstall

theorem cutAt_iff_oneLimit : CutAt { Faults.new with dropAfterBytes := 2 } {} [1, 2, 3] oneRead ∧
    CutAt { Faults.new with dropAfterBytes := 2 } {} [1, 2, 3] threeReads := by
  have hone : stream oneRead = [1, 2, 3] := rfl
  have hthree : stream threeReads = [1, 2, 3] := rfl
  exact (cutAt_iff unarmed_none hone hthree).mpr ⟨plain_drop oneRead, plain_drop threeReads⟩

/-- A drop behind two bytes and a stall behind one: the one read is dropped
behind two, the three reads stall behind one. -/
theorem not_cutAt_bothLimits :
    ¬ (CutAt { Faults.new with dropAfterBytes := 2, stallAfterBytes := 1 } {} [1, 2, 3] oneRead ∧
      CutAt { Faults.new with dropAfterBytes := 2, stallAfterBytes := 1 } {} [1, 2, 3]
        threeReads) := by
  rintro ⟨h, -⟩
  have hend := h.ending
  revert hend
  decide

end TestGear.Proxy
