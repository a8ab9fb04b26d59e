import TestGear.Faults
import TestGear.Hislip.Tracker
import TestGear.Vxi11.Tracker

/-!
# TestGear.Proxy

The fault-injecting proxy of `proxy.rs`, seen from its direction to the
client: reads from the server come in, the byte limits are tested on them as
they are received, and what passes is rewritten by the trackers, recorded and
written.  The other direction only shows the trackers what the client sends.

Latency and dribbling decide when a byte is written, not whether, and are not
modelled; the running count is a number that does not wrap, for 2^64 bytes
never pass.

* `toClient_append` — as long as no limit is passed, forwarding is rewriting;
* `toClient_stops` — everything that forwarding a connection can come to.
-/

namespace TestGear.Proxy

/-! ## The trackers a connection goes through -/

structure Trackers where
  vxi11 : Option Vxi11.Tracker := none
  hislip : Option Hislip.Tracker := none

namespace Trackers

/-- Note what the client sends; none if the header scan does not return. -/
def sent (ts : Trackers) (buf : List UInt8) : Option Trackers :=
  let vxi11 := ts.vxi11.map (·.observeCalls buf)
  match ts.hislip with
  | some h => (h.observe buf .client).map fun h => ⟨vxi11, some h⟩
  | none => some ⟨vxi11, none⟩

/-- The VXI-11 tracker's answer to a read. -/
def rewriteReplies (ts : Trackers) (chunk : List UInt8) :
    Option (List UInt8) × Option Vxi11.Tracker :=
  match ts.vxi11 with
  | some t => Prod.map id some (t.rewriteReplies chunk)
  | none => (none, none)

/-- The HiSLIP tracker's, which is asked only if the other has none. -/
def rewrite (ts : Trackers) (replied : Option (List UInt8)) (chunk : List UInt8) :
    Option (Option (List UInt8) × Option Hislip.Tracker) :=
  match replied, ts.hislip with
  | none, some h => (h.rewrite chunk).map (Prod.map id some)
  | r, h => some (r, h)

/-- A read on its way to the client: rewritten, and recorded as the client
receives it. -/
def pass (ts : Trackers) (chunk : List UInt8) : Option (List UInt8 × Trackers) :=
  let replied := ts.rewriteReplies chunk
  (ts.rewrite replied.1 chunk).bind fun r =>
    let body := r.1.getD chunk
    match r.2 with
    | some h => (h.observe body .server).map fun h => (body, ⟨replied.2, some h⟩)
    | none => some (body, ⟨replied.2, none⟩)

end Trackers

/-! ## Forwarding -/

/-- `vec![0u8; 65536]`, each direction's buffer. -/
def bufLen : Nat := 65536

/-- What one call of `read` gives; a read of nothing is the end of the stream. -/
structure Read where
  bytes : List UInt8
  nonempty : bytes ≠ []

/-- What happens on a connection, in the order in which it does. -/
inductive Event where
  | client (buf : List UInt8)
  | server (r : Read)

/-- How forwarding to the client stops: at the end of the stream, by an
injected drop or stall, or because a tracker does not return. -/
inductive Ending where
  | closed
  | dropped
  | stalled
  | hung
deriving DecidableEq, Repr

/-- What the client has been sent, and what there is when it stops. -/
structure Forwarding where
  written : List UInt8
  ending : Ending
  trackers : Trackers

/-- What was written before is written first. -/
def Forwarding.behind (fw : Forwarding) (body : List UInt8) : Forwarding :=
  { fw with written := body ++ fw.written }

/-- The byte limits that are set. -/
structure Limits where
  drop : Option Nat := none
  stall : Option Nat := none

namespace Limits

/-- `forwarded + chunk.len() > limit`: the limit, if it is set and passed. -/
def exceeded (limit : Option Nat) (n : Nat) : Option Nat := limit.filter (· < n)

/-- The limit that a count passes and what comes of it.  The drop is tested
first. -/
def passed (l : Limits) (n : Nat) : Option (Ending × Nat) :=
  match exceeded l.drop n with
  | some limit => some (.dropped, limit)
  | none => (exceeded l.stall n).map (Ending.stalled, ·)

/-- One of the limits is set to `limit`. -/
def Has (l : Limits) (limit : Nat) : Prop := l.drop = some limit ∨ l.stall = some limit

end Limits

/-- The loop of `to_client`, from a count of bytes forwarded so far.  Of the
read that passes a limit what it has room for is written as it came, and the
trackers are not asked. -/
def toClient (l : Limits) : (forwarded : Nat) → Trackers → List Event → Forwarding
  | _, ts, [] => ⟨[], .closed, ts⟩
  | n, ts, .client buf :: es =>
      match ts.sent buf with
      | none => ⟨[], .hung, ts⟩
      | some ts => toClient l n ts es
  | n, ts, .server r :: es =>
      match l.passed (n + r.bytes.length) with
      | some (ending, limit) => ⟨r.bytes.take (limit - n), ending, ts⟩
      | none =>
          match ts.pass r.bytes with
          | none => ⟨[], .hung, ts⟩
          | some (body, ts) => (toClient l (n + r.bytes.length) ts es).behind body

def limits (f : Faults) : Limits where
  drop := f.dropAfter.map UInt64.toNat
  stall := f.stallAfter.map UInt64.toNat

/-- A connection under constant knobs. -/
def forward (f : Faults) (ts : Trackers) (es : List Event) : Forwarding :=
  toClient (limits f) 0 ts es

/-- What the trackers make of the same reads, with no limit. -/
def rewritten (ts : Trackers) (es : List Event) : List UInt8 := (toClient {} 0 ts es).written

/-- One event goes by: the trackers behind it, if the call returns. -/
def Trackers.see (ts : Trackers) : Event → Option Trackers
  | .client buf => ts.sent buf
  | .server r => (ts.pass r.bytes).map Prod.snd

/-- The trackers after some events, if every call returns. -/
def after (ts : Trackers) : List Event → Option Trackers
  | [] => some ts
  | e :: es => (ts.see e).bind fun ts => after ts es

def Event.bytes : Event → List UInt8
  | .client _ => []
  | .server r => r.bytes

/-- What has been received from the server. -/
def stream (es : List Event) : List UInt8 := es.flatMap Event.bytes

/-- How much has been received from the server. -/
def received (es : List Event) : Nat := (stream es).length

/-! ## Counting -/

@[simp] theorem stream_nil : stream [] = [] := rfl

@[simp] theorem stream_cons (e : Event) (es : List Event) :
    stream (e :: es) = e.bytes ++ stream es := rfl

@[simp] theorem stream_append (xs ys : List Event) : stream (xs ++ ys) = stream xs ++ stream ys := by
  simp [stream]

@[simp] theorem received_nil : received [] = 0 := rfl

@[simp] theorem received_cons (e : Event) (es : List Event) :
    received (e :: es) = e.bytes.length + received es := by
  simp [received]

@[simp] theorem received_append (xs ys : List Event) :
    received (xs ++ ys) = received xs + received ys := by
  simp [received]

namespace Limits

theorem exceeded_eq_none_iff {limit : Option Nat} {n : Nat} :
    exceeded limit n = none ↔ ∀ m, limit = some m → n ≤ m := by
  cases limit <;> simp [exceeded]

theorem exceeded_eq_some_iff {limit : Option Nat} {n m : Nat} :
    exceeded limit n = some m ↔ limit = some m ∧ m < n := by
  simp [exceeded, Option.filter_eq_some_iff]

theorem passed_eq_none_iff {l : Limits} {n : Nat} :
    l.passed n = none ↔ ∀ m, l.Has m → n ≤ m := by
  have hboth : l.passed n = none ↔ exceeded l.drop n = none ∧ exceeded l.stall n = none := by
    rw [passed]
    cases exceeded l.drop n <;> simp
  simp only [hboth, exceeded_eq_none_iff, Has]
  grind

theorem passed_eq_some {l : Limits} {n m : Nat} {e : Ending} (h : l.passed n = some (e, m)) :
    l.Has m ∧ m < n := by
  unfold passed at h
  cases hd : exceeded l.drop n with
  | some d =>
      simp only [hd, Option.some.injEq, Prod.mk.injEq] at h
      obtain ⟨hset, hlt⟩ := exceeded_eq_some_iff.mp hd
      obtain ⟨-, rfl⟩ := h
      exact ⟨.inl hset, hlt⟩
  | none =>
      simp only [hd, Option.map_eq_some_iff, Prod.mk.injEq] at h
      obtain ⟨m, hs, -, rfl⟩ := h
      obtain ⟨hset, hlt⟩ := exceeded_eq_some_iff.mp hs
      exact ⟨.inr hset, hlt⟩

/-- A limit that is not passed by a count is not passed by a smaller one. -/
theorem passed_mono {l : Limits} {n m : Nat} (hle : n ≤ m) (h : l.passed m = none) :
    l.passed n = none := by
  rw [passed_eq_none_iff] at h ⊢
  exact fun k hk => Nat.le_trans hle (h k hk)

@[simp] theorem passed_none (n : Nat) : Limits.passed {} n = none := rfl

theorem passed_zero (l : Limits) : l.passed 0 = none :=
  passed_eq_none_iff.mpr fun _ _ => Nat.zero_le _

end Limits

/-! ## The loop -/

theorem behind_behind (fw : Forwarding) (a b : List UInt8) :
    (fw.behind a).behind b = fw.behind (b ++ a) := by
  simp [Forwarding.behind]

/-- Without limits the count plays no part. -/
theorem toClient_none (n m : Nat) (ts : Trackers) (es : List Event) :
    toClient {} n ts es = toClient {} m ts es := by
  induction es generalizing n m ts with
  | nil => rfl
  | cons e es ih =>
      cases e with
      | client buf =>
          simp only [toClient]
          cases ts.sent buf with
          | none => rfl
          | some ts => exact ih n m ts
      | server r =>
          simp only [toClient, Limits.passed_none]
          cases ts.pass r.bytes with
          | none => rfl
          | some p => exact congrArg (Forwarding.behind · p.1) (ih _ _ p.2)

@[simp] theorem rewritten_nil (ts : Trackers) : rewritten ts [] = [] := rfl

theorem rewritten_client {ts ts' : Trackers} {buf : List UInt8} (h : ts.sent buf = some ts')
    (es : List Event) : rewritten ts (.client buf :: es) = rewritten ts' es := by
  rw [rewritten, toClient, h]
  rfl

theorem rewritten_server {ts ts' : Trackers} {r : Read} {body : List UInt8}
    (h : ts.pass r.bytes = some (body, ts')) (es : List Event) :
    rewritten ts (.server r :: es) = body ++ rewritten ts' es := by
  simp only [rewritten, toClient, Limits.passed_none, h, Forwarding.behind]
  rw [toClient_none _ 0]

theorem rewritten_of_see_none {ts : Trackers} {e : Event} (h : ts.see e = none)
    (es : List Event) : rewritten ts (e :: es) = [] := by
  cases e with
  | client buf =>
      rw [Trackers.see] at h
      simp only [rewritten, toClient, h]
  | server r =>
      rw [Trackers.see, Option.map_eq_none_iff] at h
      simp only [rewritten, toClient, Limits.passed_none, h]

/-- **Forwarding is rewriting** as long as no limit is passed. -/
theorem toClient_append {l : Limits} {n : Nat} {ts ts' : Trackers} {pre : List Event}
    (h : after ts pre = some ts') (hl : l.passed (n + received pre) = none) (es : List Event) :
    toClient l n ts (pre ++ es) =
      (toClient l (n + received pre) ts' es).behind (rewritten ts pre) := by
  induction pre generalizing n ts with
  | nil =>
      rw [after, Option.some.injEq] at h
      subst h
      rfl
  | cons e pre ih =>
      rw [after, Option.bind_eq_some_iff] at h
      obtain ⟨ts₁, hsee, hrest⟩ := h
      cases e with
      | client buf =>
          rw [Trackers.see] at hsee
          simp only [received_cons, Event.bytes, List.length_nil, Nat.zero_add] at hl ⊢
          rw [List.cons_append, toClient, rewritten_client hsee]
          simp only [hsee]
          exact ih hrest hl
      | server r =>
          rw [Trackers.see, Option.map_eq_some_iff] at hsee
          obtain ⟨⟨body, ts₂⟩, hpass, rfl⟩ := hsee
          simp only [received_cons, Event.bytes, ← Nat.add_assoc] at hl ⊢
          have hhere := Limits.passed_mono (Nat.le_add_right _ (received pre)) hl
          rw [List.cons_append, toClient, rewritten_server hpass, hhere]
          simp only [hpass]
          rw [ih hrest hl, behind_behind]

theorem rewritten_append {ts ts' : Trackers} {pre : List Event} (h : after ts pre = some ts')
    (es : List Event) : rewritten ts (pre ++ es) = rewritten ts pre ++ rewritten ts' es := by
  rw [rewritten, toClient_append h (Limits.passed_none _), Forwarding.behind, toClient_none _ 0]
  rfl

theorem after_append {ts ts₁ ts₂ : Trackers} {xs ys : List Event} (h₁ : after ts xs = some ts₁)
    (h₂ : after ts₁ ys = some ts₂) : after ts (xs ++ ys) = some ts₂ := by
  induction xs generalizing ts with
  | nil =>
      rw [after, Option.some.injEq] at h₁
      rw [h₁]
      exact h₂
  | cons e xs ih =>
      rw [after, Option.bind_eq_some_iff] at h₁
      obtain ⟨ts', hsee, hrest⟩ := h₁
      rw [List.cons_append, after, hsee]
      exact ih hrest

/-- What forwarding `es` from a count `n` may come to: the stream ends, a
tracker does not return, or a read passes a limit.  Up to there no limit is
passed and every call returns. -/
inductive Stops (l : Limits) (n : Nat) (ts : Trackers) (es : List Event) : Forwarding → Prop
  | closed (ts' : Trackers) (hafter : after ts es = some ts')
      (hl : l.passed (n + received es) = none) : Stops l n ts es ⟨rewritten ts es, .closed, ts'⟩
  | hung (pre : List Event) (e : Event) (post : List Event) (ts' : Trackers)
      (hes : es = pre ++ e :: post) (hafter : after ts pre = some ts')
      (hl : l.passed (n + received pre + e.bytes.length) = none) (hsee : ts'.see e = none) :
      Stops l n ts es ⟨rewritten ts pre, .hung, ts'⟩
  | cut (pre : List Event) (r : Read) (post : List Event) (ts' : Trackers) (ending : Ending)
      (limit : Nat) (hes : es = pre ++ .server r :: post) (hafter : after ts pre = some ts')
      (hl : l.passed (n + received pre) = none)
      (hcut : l.passed (n + received pre + r.bytes.length) = some (ending, limit)) :
      Stops l n ts es
        ⟨rewritten ts pre ++ r.bytes.take (limit - (n + received pre)), ending, ts'⟩

/-- An event that goes by, put in front. -/
theorem Stops.cons {l : Limits} {n : Nat} {ts ts₁ : Trackers} {e : Event} {es : List Event}
    {fw : Forwarding} {body : List UInt8} (hsee : ts.see e = some ts₁)
    (hrw : ∀ es, rewritten ts (e :: es) = body ++ rewritten ts₁ es)
    (h : Stops l (n + e.bytes.length) ts₁ es fw) : Stops l n ts (e :: es) (fw.behind body) := by
  have hafter : ∀ {pre ts'}, after ts₁ pre = some ts' → after ts (e :: pre) = some ts' := by
    intro pre ts' hpre
    rw [after, hsee]
    exact hpre
  have hcount : ∀ pre, n + e.bytes.length + received pre = n + received (e :: pre) := by
    intro pre
    rw [received_cons, Nat.add_assoc]
  cases h with
  | closed ts' hes hl =>
      rw [hcount] at hl
      rw [Forwarding.behind, ← hrw]
      exact .closed ts' (hafter hes) hl
  | hung pre e' post ts' hes hpre hl hnone =>
      rw [hcount] at hl
      rw [Forwarding.behind, ← hrw]
      exact .hung (e :: pre) e' post ts' (by rw [hes]; rfl) (hafter hpre) hl hnone
  | cut pre r post ts' ending limit hes hpre hl hcut =>
      rw [hcount] at hl hcut ⊢
      rw [Forwarding.behind, ← List.append_assoc, ← hrw]
      exact .cut (e :: pre) r post ts' ending limit (by rw [hes]; rfl) (hafter hpre) hl hcut

/-- **Everything the loop can do.** -/
theorem toClient_stops (l : Limits) {n : Nat} (hn : l.passed n = none) (ts : Trackers)
    (es : List Event) : Stops l n ts es (toClient l n ts es) := by
  induction es generalizing n ts with
  | nil => exact .closed ts rfl hn
  | cons e es ih =>
      cases e with
      | client buf =>
          unfold toClient
          cases hsent : ts.sent buf with
          | none => exact .hung [] (.client buf) es ts rfl rfl hn hsent
          | some ts₁ =>
              have hsee : ts.see (.client buf) = some ts₁ := hsent
              have hrw : ∀ es, rewritten ts (.client buf :: es) = [] ++ rewritten ts₁ es :=
                rewritten_client hsent
              exact Stops.cons hsee hrw (ih hn ts₁)
      | server r =>
          unfold toClient
          cases hcut : l.passed (n + r.bytes.length) with
          | some p => exact .cut [] r es ts p.1 p.2 rfl rfl hn hcut
          | none =>
              cases hpass : ts.pass r.bytes with
              | none =>
                  have hsee : ts.see (.server r) = none := by rw [Trackers.see, hpass]; rfl
                  exact .hung [] (.server r) es ts rfl rfl hcut hsee
              | some p =>
                  have hsee : ts.see (.server r) = some p.2 := by rw [Trackers.see, hpass]; rfl
                  exact Stops.cons hsee (rewritten_server hpass) (ih hcut p.2)

/-! ## A connection -/

variable {f : Faults} {ts ts' : Trackers} {pre post : List Event}

/-- What has gone by within the limits has been rewritten and written. -/
theorem forward_append (hafter : after ts pre = some ts')
    (hl : (limits f).passed (received pre) = none) :
    forward f ts (pre ++ post) =
      (toClient (limits f) (received pre) ts' post).behind (rewritten ts pre) := by
  rw [forward, toClient_append hafter (by rwa [Nat.zero_add]), Nat.zero_add]

/-- A connection whose read `r` passes a limit. -/
theorem forward_cut {r : Read} {ending : Ending} {limit : Nat} (hafter : after ts pre = some ts')
    (hl : (limits f).passed (received pre) = none)
    (hcut : (limits f).passed (received pre + r.bytes.length) = some (ending, limit)) :
    forward f ts (pre ++ .server r :: post) =
      ⟨rewritten ts pre ++ r.bytes.take (limit - received pre), ending, ts'⟩ := by
  rw [forward_append hafter hl, toClient, hcut]
  rfl

/-- A connection on which a tracker does not return. -/
theorem forward_hung {e : Event} (hafter : after ts pre = some ts')
    (hl : (limits f).passed (received pre + e.bytes.length) = none) (hsee : ts'.see e = none) :
    forward f ts (pre ++ e :: post) = ⟨rewritten ts pre, .hung, ts'⟩ := by
  rw [forward_append hafter (Limits.passed_mono (Nat.le_add_right _ _) hl)]
  cases e with
  | client buf =>
      rw [Trackers.see] at hsee
      simp [toClient, hsee, Forwarding.behind]
  | server r =>
      rw [Trackers.see, Option.map_eq_none_iff] at hsee
      rw [Event.bytes] at hl
      simp [toClient, hl, hsee, Forwarding.behind]

end TestGear.Proxy
