import TestGear.Vxi11.Rewrite

/-!
# TestGear.Vxi11.Connections

One tracker serves every proxied VXI-11 connection.  A reply carries an xid
and no procedure number, so the tracker looks the xid up in a map that is
keyed by xid alone — while every client numbers its own xids.  The map holds
the latest call under an xid, whichever connection made it.

* `faults_hit_own_calls` — a fault hits only replies whose own call it names,
  in every run in which no reply arrives while another connection has last
  used its xid for another procedure that a fault is armed for;
* `fault_hits_foreign_call` — two clients that both start at xid 1.
-/

namespace TestGear.Vxi11

variable {κ : Type}

/-- One use of the shared tracker: `κ` names the connections, and chunks are
made of whole records. -/
inductive Event (κ : Type) where
  | set (faults : Vxi11Faults)
  | clear
  | call (conn : κ) (rs : List Record)
  | reply (conn : κ) (rs : List Record)

/-- The tracker after an event. -/
def Event.apply (t : Tracker) : Event κ → Tracker
  | set faults => t.set faults
  | clear => t.clear
  | call _ rs => t.observeCalls (recordBytes rs)
  | reply _ rs => (t.rewriteReplies (recordBytes rs)).2

def runEvents (t : Tracker) (events : List (Event κ)) : Tracker := events.foldl Event.apply t

/-! ## Who called what -/

/-- A call as its client made it. -/
structure Placed (κ : Type) where
  conn : κ
  xid : UInt32
  proc : UInt32

/-- The calls of a chunk of records. -/
def placedIn (conn : κ) (rs : List Record) : List (Placed κ) :=
  rs.filterMap fun r => (parseCall r.body).map fun (xid, proc) => ⟨conn, xid, proc⟩

/-- The calls an event brings. -/
def Event.placed : Event κ → List (Placed κ)
  | call conn rs => placedIn conn rs
  | _ => []

/-- The calls of a run, in the order the tracker saw them. -/
def history (events : List (Event κ)) : List (Placed κ) := events.flatMap Event.placed

/-- The procedure last called under an xid. -/
def lastProc (calls : List (Placed κ)) (xid : UInt32) : Option UInt32 :=
  (calls.filter fun c => c.xid == xid).getLast?.map Placed.proc

theorem lastProc_concat (calls : List (Placed κ)) (c : Placed κ) (xid : UInt32) :
    lastProc (calls ++ [c]) xid = if c.xid = xid then some c.proc else lastProc calls xid := by
  by_cases h : c.xid = xid <;> simp [lastProc, List.filter_append, h]

/-- The procedure connection `i` itself last called under an xid: the call that
a reply under this xid answers. -/
def ownProc [DecidableEq κ] (i : κ) (calls : List (Placed κ)) : Calls :=
  lastProc (calls.filter fun c => c.conn = i)

/-! ## What the map holds -/

/-- The map knows nothing but the latest calls. -/
def MapsLatest (t : Tracker) (calls : List (Placed κ)) : Prop :=
  ∀ xid proc, t.calls xid = some proc → lastProc calls xid = some proc

/-- `observe_calls` on a buffer of records. -/
theorem observeCalls_records (t : Tracker) (rs : List Record) :
    t.observeCalls (recordBytes rs) = rs.foldl (fun t r => t.observeCall r.body) t := by
  have hloop (buf : List UInt8) (pos : Nat) (t : Tracker) (hpos : pos ≤ buf.length)
      (hbuf : buf.drop pos = recordBytes rs) :
      (spans pos rs).foldl (fun t s => t.observeCall (slice buf s.2.1 s.2.2)) t =
        rs.foldl (fun t r => t.observeCall r.body) t := by
    induction rs generalizing pos t with
    | nil => rfl
    | cons r rs ih =>
        obtain ⟨hlen, -, hbody, htail⟩ := drop_record hpos hbuf
        rw [spans, List.foldl_cons, List.foldl_cons, ih _ _ (by omega) htail]
        simp only [hbody]
  cases rs with
  | nil => rfl
  | cons r rs =>
      rw [Tracker.observeCalls, wholeRecords_records (List.cons_ne_nil r rs)]
      exact hloop _ 0 t (Nat.zero_le _) List.drop_zero

theorem MapsLatest.observeCall {t : Tracker} {calls : List (Placed κ)} (h : MapsLatest t calls)
    (conn : κ) (r : Record) : MapsLatest (t.observeCall r.body) (calls ++ placedIn conn [r]) := by
  cases hp : parseCall r.body with
  | none => simpa [Tracker.observeCall, placedIn, hp] using h
  | some c =>
      obtain ⟨xid, proc⟩ := c
      intro x p hx
      have hplaced : placedIn conn [r] = [⟨conn, xid, proc⟩] := by simp [placedIn, hp]
      simp only [Tracker.observeCall, hp, Function.update_apply] at hx
      rw [hplaced, lastProc_concat]
      by_cases hxx : x = xid
      · rw [if_pos hxx] at hx
        rw [if_pos hxx.symm, hx]
      · rw [if_neg hxx] at hx
        rw [if_neg (Ne.symm hxx)]
        exact h x p hx

theorem MapsLatest.observeCalls {t : Tracker} {calls : List (Placed κ)} (h : MapsLatest t calls)
    (conn : κ) (rs : List Record) :
    MapsLatest (t.observeCalls (recordBytes rs)) (calls ++ placedIn conn rs) := by
  rw [observeCalls_records]
  induction rs generalizing t calls with
  | nil => simpa [placedIn] using h
  | cons r rs ih =>
      have hsplit : placedIn conn (r :: rs) = placedIn conn [r] ++ placedIn conn rs :=
        List.filterMap_append (l := [r])
      rw [List.foldl_cons, hsplit, ← List.append_assoc]
      exact ih (h.observeCall conn r)

/-- `rewrite_replies` touches nothing but the armed faults. -/
theorem rewriteReplies_frame (t : Tracker) (buf : List UInt8) :
    (t.rewriteReplies buf).2.calls = t.calls ∧ (t.rewriteReplies buf).2.seen = t.seen := by
  unfold Tracker.rewriteReplies
  split
  · exact ⟨rfl, rfl⟩
  · cases wholeRecords buf <;> exact ⟨rfl, rfl⟩

/-- **One event** keeps the map within the history. -/
theorem MapsLatest.step {t : Tracker} {calls : List (Placed κ)} (h : MapsLatest t calls)
    (e : Event κ) : MapsLatest (e.apply t) (calls ++ e.placed) := by
  cases e with
  | set faults =>
      show MapsLatest (t.set faults) (calls ++ [])
      rw [List.append_nil]
      exact h
  | clear => intro xid proc hx; cases hx
  | call conn rs => exact h.observeCalls conn rs
  | reply conn rs =>
      intro xid proc hx
      rw [Event.apply, (rewriteReplies_frame t _).1] at hx
      simpa [Event.placed] using h xid proc hx

/-- **A whole run** does. -/
theorem mapsLatest_run (events : List (Event κ)) :
    MapsLatest (runEvents Tracker.new events) (history events) := by
  have hrun (t : Tracker) (calls : List (Placed κ)) (h : MapsLatest t calls) :
      MapsLatest (runEvents t events) (calls ++ history events) := by
    induction events generalizing t calls with
    | nil => simpa [runEvents, history] using h
    | cons e es ih =>
        have hstep := ih (e.apply t) (calls ++ e.placed) (h.step e)
        simpa [runEvents, history, List.append_assoc] using hstep
  exact hrun Tracker.new [] fun _ _ h => by cases h

/-! ## Faults and the calls they name -/

variable [DecidableEq κ]

/-- At every reply chunk of the run, whatever is forwarded does to each record
only what the procedure its own connection called allows. -/
def FaultsHitOwnCalls (events : List (Event κ)) : Prop :=
  ∀ pre i rs post, events = pre ++ .reply i rs :: post →
    ∀ out, ((runEvents Tracker.new pre).rewriteReplies (recordBytes rs)).1 = some out →
      ∃ ds : List Delivery, ds.map Delivery.record = rs ∧ out = deliveryBytes ds ∧
        ∀ d ∈ ds, d.Faithful (ownProc i (history pre)) (runEvents Tracker.new pre).faults

/-- A fault is armed that may hit replies to this procedure. -/
def Vxi11Faults.Fits (f : Vxi11Faults) (proc : UInt32) : Prop :=
  f.staleReplyBeforeProc = some proc ∨ f.errorCode.isSome ∧ f.errorOnProc = some proc ∨
    f.maxRecvSize.isSome ∧ proc = createLink

/-- When a reply arrives, and a fault is armed for the procedure last called
under its xid, by whichever connection, then that is the one its own connection
last called under it. -/
def XidsApart (events : List (Event κ)) : Prop :=
  ∀ pre i rs post, events = pre ++ .reply i rs :: post → ∀ r ∈ rs, ∀ xid,
    readU32 r.body 0 = some xid → ∀ p, lastProc (history pre) xid = some p →
      (runEvents Tracker.new pre).faults.Fits p → ownProc i (history pre) xid = some p

/-- A delivery that is faithful to one map is faithful to any that knows as
much about its record, as far as a fault is armed for it. -/
theorem Delivery.Faithful.mono {calls calls' : Calls} {f : Vxi11Faults} {d : Delivery}
    (h : d.Faithful calls f)
    (hle : ∀ p, procOf calls d.record = some p → f.Fits p → procOf calls' d.record = some p) :
    d.Faithful calls' f where
  length := h.length
  stale hs := by
    obtain ⟨p, hp, hf⟩ := h.stale hs
    exact ⟨p, hle p hp (.inl hf), hf⟩
  words i hi := by
    rcases h.words i hi with ⟨hlo, hhi, hcode, p, hp, hf⟩ | ⟨hlo, hhi, hsize, hp⟩
    · exact .inl ⟨hlo, hhi, hcode, p, hle p hp (.inr (.inl ⟨hcode, hf⟩)), hf⟩
    · exact .inr ⟨hlo, hhi, hsize, hle _ hp (.inr (.inr ⟨hsize, rfl⟩))⟩
  restored := h.restored

/-- **Faults hit only the calls they name**, in every run in which no reply
arrives while another connection has last used its xid for another procedure
that a fault is armed for. -/
theorem faults_hit_own_calls (events : List (Event κ)) (h : XidsApart events) :
    FaultsHitOwnCalls events := by
  intro pre i rs post hsplit out hout
  obtain ⟨ds, hrec, hbytes, hfaithful, -⟩ :=
    (rewriteReplies_keeps_framing (runEvents Tracker.new pre) (recordBytes rs)).2 rs rfl out hout
  refine ⟨ds, hrec, hbytes, fun d hd => (hfaithful d hd).mono fun p hp hfits => ?_⟩
  have hmem : d.record ∈ rs := hrec ▸ List.mem_map_of_mem hd
  obtain ⟨xid, hxid, hcall⟩ := Option.bind_eq_some_iff.mp hp
  rw [procOf, hxid, Option.bind_some]
  exact h pre i rs post hsplit d.record hmem xid hxid p (mapsLatest_run pre xid p hcall) hfits

/-! ## Two clients -/

/-- The xids of a chunk of records. -/
def xidsOf (rs : List Record) : List UInt32 := rs.filterMap fun r => readU32 r.body 0

/-- Connection `i` plays by the rules: no call under an xid that is in flight,
and no reply under an xid that was never called. -/
def disciplinedFrom (i : κ) : (called inFlight : List UInt32) → List (Event κ) → Bool
  | _, _, [] => true
  | called, inFlight, .call conn rs :: es =>
      if conn = i then
        let xids := (placedIn conn rs).map Placed.xid
        decide xids.Nodup && xids.all (· ∉ inFlight) &&
          disciplinedFrom i (called ++ xids) (inFlight ++ xids) es
      else disciplinedFrom i called inFlight es
  | called, inFlight, .reply conn rs :: es =>
      if conn = i then
        (xidsOf rs).all (· ∈ called) &&
          disciplinedFrom i called (inFlight.filter (· ∉ xidsOf rs)) es
      else disciplinedFrom i called inFlight es
  | called, inFlight, _ :: es => disciplinedFrom i called inFlight es

/-- Error 4 on the next device_write. -/
def errorOnWrite : Vxi11Faults where
  errorOnProc := some deviceWrite
  errorCode := some 4

/-- Two clients under different xids: the error lands where it is meant to. -/
theorem faults_hit_own_calls_apart :
    FaultsHitOwnCalls [.set errorOnWrite, .call false [callRecord 1 deviceRead],
      .call true [callRecord 2 deviceWrite], .reply true [replyRecord 2]] := by
  refine faults_hit_own_calls _ fun pre i rs post hsplit r hr xid hxid p hlast _ => ?_
  -- the reply is the fourth event
  rcases pre with _ | ⟨e₁, _ | ⟨e₂, _ | ⟨e₃, _ | ⟨e₄, pre⟩⟩⟩⟩
  · simp at hsplit
  · simp at hsplit
  · simp at hsplit
  · simp only [List.cons_append, List.nil_append, List.cons.injEq, Event.reply.injEq,
      List.nil_eq] at hsplit
    obtain ⟨rfl, rfl, rfl, ⟨rfl, rfl⟩, -⟩ := hsplit
    obtain rfl := List.mem_singleton.mp hr
    have hx : readU32 (replyRecord 2).body 0 = some 2 := by decide
    rw [hx, Option.some.injEq] at hxid
    subst hxid
    rw [← hlast]
    decide
  · simp at hsplit

/-- Both clients number from 1.  The device_read reply of the first carries the
error armed for device_write, which only the second has called. -/
theorem fault_hits_foreign_call :
    (∀ i : Bool, disciplinedFrom i [] [] [.set errorOnWrite, .call false [callRecord 1 deviceRead],
      .call true [callRecord 1 deviceWrite], .reply false [replyRecord 1]] = true) ∧
    ¬ FaultsHitOwnCalls [.set errorOnWrite, .call false [callRecord 1 deviceRead],
      .call true [callRecord 1 deviceWrite], .reply false [replyRecord 1]] := by
  refine ⟨by decide, fun h => ?_⟩
  have hout : ((runEvents Tracker.new [.set errorOnWrite, .call false [callRecord 1 deviceRead],
      .call true [callRecord 1 deviceWrite]]).rewriteReplies (recordBytes [replyRecord 1])).1 =
      some (be32 0x8000001C ++ splice (replyRecord 1).body 24 (be32 4)) := by decide
  obtain ⟨ds, hrec, hbytes, hfaithful⟩ := h [.set errorOnWrite,
    .call false [callRecord 1 deviceRead], .call true [callRecord 1 deviceWrite]] false
    [replyRecord 1] [] rfl _ hout
  obtain ⟨d, rfl, hd⟩ := List.map_eq_singleton_iff.mp hrec
  have hf := hfaithful d List.mem_cons_self
  have hown : procOf (ownProc false (history [.set errorOnWrite,
      .call false [callRecord 1 deviceRead], .call true [callRecord 1 deviceWrite]]))
      (replyRecord 1) = some deviceRead := by decide
  -- nothing was put in front of the record, so its last word is the error's
  have hstale : d.stale = false := by
    cases hs : d.stale with
    | false => rfl
    | true =>
        have hlen := congrArg List.length hbytes
        simp [deliveryBytes, Delivery.bytes, hs, length_staleRecord, hf.length, hd, replyRecord,
          splice] at hlen
  have hbody : d.body = splice (replyRecord 1).body 24 (be32 4) := by
    have hmark : d.record.mark = 0x8000001C := by rw [hd]; rfl
    simpa [deliveryBytes, Delivery.bytes, hstale, hmark] using hbytes.symm
  have hword : d.body[27]? ≠ d.record.body[27]? := by rw [hbody, hd]; decide
  rcases hf.words 27 hword with ⟨-, -, -, p, hp, htarget⟩ | ⟨hlo, -⟩
  · rw [hd, hown] at hp
    obtain rfl := Option.some.inj hp
    exact absurd htarget (by decide)
  · omega

end TestGear.Vxi11
