import TestGear.Hislip.Observe
import TestGear.Hislip.Walk

/-!
# TestGear.Hislip.Connections

One tracker serves every proxied HiSLIP connection, and each session has two
of them.  The count of payload bytes still owed is kept per direction, not
per connection, so what one connection leaves half-received is taken off the
front of the next connection's chunk.

A run is a list of `Event`s: the calls the connections make, in the order
they reach the tracker, and the control channel arming faults in between.
`alone i` keeps connection `i`'s calls only.

* `connections_independent` — every call returns and no connection sees
  another, in every run in which a chunk reaches the tracker only while every
  other connection owes nothing in that direction, and holds no header whose
  length wraps;
* `connections_interfere` — a header waiting for its payload on one
  connection hides a whole message of another.
-/

namespace TestGear.Hislip

variable {κ : Type}

/-- One call on the shared tracker: `κ` names the connections. -/
inductive Event (κ : Type) where
  | arm (faults : HislipFaults)
  | observe (conn : κ) (side : Side) (buf : List UInt8)
  | rewrite (conn : κ) (buf : List UInt8)

namespace Event

/-- The connection a call is made for. -/
def conn? : Event κ → Option κ
  | arm _ => none
  | observe conn _ _ => some conn
  | rewrite conn _ => some conn

/-- The direction whose pending count a call reads. -/
def side? : Event κ → Option Side
  | arm _ => none
  | observe _ side _ => some side
  | rewrite _ _ => some .server

/-- The chunk a call is given. -/
def buf : Event κ → List UInt8
  | arm _ => []
  | observe _ _ buf => buf
  | rewrite _ buf => buf

/-- The tracker after a call. -/
def apply (t : Tracker) : Event κ → Option Tracker
  | arm faults => some (t.set faults)
  | observe _ side buf => t.observe buf side
  | rewrite _ buf => (t.rewrite buf).map Prod.snd

end Event

def runEvents (t : Tracker) (events : List (Event κ)) : Option Tracker :=
  events.foldlM Event.apply t

@[simp] theorem runEvents_nil (t : Tracker) : runEvents t ([] : List (Event κ)) = some t := rfl

@[simp] theorem runEvents_cons (t : Tracker) (e : Event κ) (es : List (Event κ)) :
    runEvents t (e :: es) = (e.apply t).bind fun t' => runEvents t' es := rfl

variable [DecidableEq κ]

/-- The calls of connection `i`, as if it alone used the tracker. -/
def alone (i : κ) (events : List (Event κ)) : List (Event κ) :=
  events.filter fun e => e.conn? = some i

/-- What the shared tracker records in the calls of connection `i`. -/
def recordedFrom (i : κ) : Tracker → List (Event κ) → List Seen
  | _, [] => []
  | t, e :: es =>
      match e.apply t with
      | none => []
      | some t' =>
          (if e.conn? = some i then t'.seen.drop t.seen.length else []) ++ recordedFrom i t' es

/-- The headers `rewrite` locates in a server chunk. -/
def Tracker.located (t : Tracker) (buf : List UInt8) : Option (List (Nat × Header)) :=
  let start := min t.pending.server buf.length
  (headers (buf.drop start)).map fun found => found.map fun (rel, header) => (start + rel, header)

/-- Connection `i` is served as if it alone used the tracker: every call
returns and the same headers are recorded; and each of its `rewrite` calls, for
the faults armed at that moment, locates the same headers and makes the same
replacement. -/
structure Independent (i : κ) (events : List (Event κ)) : Prop where
  recorded : ∃ t s, runEvents Tracker.new events = some t ∧
    runEvents Tracker.new (alone i events) = some s ∧ recordedFrom i Tracker.new events = s.seen
  located : ∀ pre buf post, events = pre ++ .rewrite i buf :: post →
    ∃ t s found r, runEvents Tracker.new pre = some t ∧
      runEvents Tracker.new (alone i pre) = some s ∧
      t.located buf = some found ∧ s.located buf = some found ∧
      (t.rewrite buf).map Prod.fst = some r ∧
      ((s.set t.faults).rewrite buf).map Prod.fst = some r

/-! ## What a call depends on -/

/-- What one `observe` call records and leaves owed, from the count it finds. -/
def observed (pending : Nat) (buf : List UInt8) : Option (List Header × Nat) :=
  scan (buf.drop (takePending pending buf.length).1)

theorem observe_eq (t : Tracker) (buf : List UInt8) (side : Side) :
    t.observe buf side = (observed (t.pending.get side) buf).map fun r =>
      { t with
        seen := t.seen ++ r.1.map fun header => ⟨side, header⟩
        pending := t.pending.set r.2 side } := by
  simp only [Tracker.observe, observed, Pending.set_set]

/-- `rewrite` touches nothing but the armed faults. -/
theorem rewrite_frame {t t' : Tracker} {buf : List UInt8} {r : Option (List UInt8)}
    (h : t.rewrite buf = some (r, t')) : t'.pending = t.pending ∧ t'.seen = t.seen := by
  simp only [Tracker.rewrite, Option.map_eq_some_iff] at h
  obtain ⟨x, -, hx⟩ := h
  obtain ⟨-, rfl⟩ := Prod.mk.inj hx
  exact ⟨rfl, rfl⟩

/-- A tracker with nothing armed rewrites nothing. -/
theorem rewrite_unarmed {t : Tracker} (h : t.faults = {}) (buf : List UInt8) :
    t.rewrite buf = some (none, t) := by
  have hrw : rewriteFaults t.pending.server {} buf = some (none, {}) := rfl
  obtain ⟨faults, seen, pending⟩ := t
  subst h
  simp only [Tracker.rewrite, hrw, Option.map_some]

/-! ## Trackers of one connection beside the shared one -/

/-- The tracker each connection would have, had it been the only one. -/
abbrev Solo (κ : Type) := κ → Tracker

/-- What ties the shared count to the counts of the connections alone: it is
the count of the connection observed last, and every other connection owes
nothing. -/
structure Tied (t : Tracker) (solo : Solo κ) : Prop where
  unarmed : ∀ j, (solo j).faults = {}
  count : ∀ side, (t.pending.get side = 0 ∧ ∀ j, (solo j).pending.get side = 0) ∨
    ∃ l, t.pending.get side = (solo l).pending.get side ∧
      ∀ j, j ≠ l → (solo j).pending.get side = 0

/-- While the others owe nothing, the shared count is the connection's own. -/
theorem Tied.pending_eq {t : Tracker} {solo : Solo κ} (h : Tied t solo) {i : κ} {side : Side}
    (hq : ∀ j, j ≠ i → (solo j).pending.get side = 0) :
    t.pending.get side = (solo i).pending.get side := by
  rcases h.count side with ⟨hz, hall⟩ | ⟨l, hl, hothers⟩
  · rw [hz, hall]
  · by_cases hli : l = i
    · rw [hl, hli]
    · rw [hl, hq l hli, hothers i (Ne.symm hli)]

/-- What has to hold before a call for connection `i`, told from the trackers
the connections would have alone: every other one owes nothing in the direction
of the call, and behind what `i` itself owes no header in the chunk announces a
length that wraps. -/
structure Ready (solo : Solo κ) (i : κ) (side : Side) (buf : List UInt8) : Prop where
  others_quiet : ∀ j, j ≠ i → (solo j).pending.get side = 0
  short : buf.length < 2 ^ 63
  harmless : Harmless (min ((solo i).pending.get side) buf.length)
    (buf.drop (min ((solo i).pending.get side) buf.length))

omit [DecidableEq κ] in
/-- A call that is ready returns, whatever is armed. -/
theorem Ready.apply_isSome {t : Tracker} {solo : Solo κ} {e : Event κ} {i : κ} {side : Side}
    (h : Ready solo i side e.buf) (hs : e.side? = some side)
    (hp : t.pending.get side = (solo i).pending.get side) : (e.apply t).isSome = true := by
  have hends := walksEnd_of_harmless h.short h.harmless
  cases e with
  | arm faults => rfl
  | observe conn d buf =>
      obtain rfl : d = side := Option.some.inj hs
      exact hends.observe t d hp
  | rewrite conn buf =>
      obtain rfl : Side.server = side := Option.some.inj hs
      rw [Event.apply, Option.isSome_map]
      exact hends.rewrite t hp

/-- Every call of the run is ready, when it is made, for the trackers the
connections would have alone by then. -/
def EachReadyFrom (solo : Solo κ) (events : List (Event κ)) : Prop :=
  ∀ pre e post, events = pre ++ e :: post → ∀ i side, e.conn? = some i → e.side? = some side →
    ∀ solo' : Solo κ, (∀ j, runEvents (solo j) (alone j pre) = some (solo' j)) →
      Ready solo' i side e.buf

/-- Every call of a run on a new tracker is ready. -/
def EachReady (events : List (Event κ)) : Prop := EachReadyFrom (fun _ => Tracker.new) events

theorem EachReadyFrom.head {solo : Solo κ} {e : Event κ} {es : List (Event κ)}
    (h : EachReadyFrom solo (e :: es)) {i : κ} {side : Side} (hi : e.conn? = some i)
    (hs : e.side? = some side) : Ready solo i side e.buf :=
  h [] e es rfl i side hi hs solo fun _ => rfl

theorem EachReadyFrom.of_append {solo : Solo κ} {pre post : List (Event κ)}
    (h : EachReadyFrom solo (pre ++ post)) : EachReadyFrom solo pre := by
  intro pre' e post' hsplit
  exact h pre' e (post' ++ post) (by rw [hsplit]; simp)

theorem alone_cons_self {e : Event κ} {i : κ} (h : e.conn? = some i) (es : List (Event κ)) :
    alone i (e :: es) = e :: alone i es := by
  simp [alone, h]

theorem alone_cons_of_ne {e : Event κ} {i : κ} (h : e.conn? ≠ some i) (es : List (Event κ)) :
    alone i (e :: es) = alone i es := by
  simp [alone, h]

theorem EachReadyFrom.skip {solo : Solo κ} {e : Event κ} {es : List (Event κ)}
    (h : EachReadyFrom solo (e :: es)) (he : e.conn? = none) : EachReadyFrom solo es := by
  intro pre e' post hsplit i side hi hs solo' hr
  refine h (e :: pre) e' post (by rw [hsplit]; rfl) i side hi hs solo' fun j => ?_
  rw [alone_cons_of_ne (by simp [he])]
  exact hr j

theorem EachReadyFrom.step {solo : Solo κ} {e : Event κ} {es : List (Event κ)} {c : κ}
    {s' : Tracker} (h : EachReadyFrom solo (e :: es)) (hc : e.conn? = some c)
    (happ : e.apply (solo c) = some s') : EachReadyFrom (Function.update solo c s') es := by
  intro pre e' post hsplit i side hi hs solo' hr
  refine h (e :: pre) e' post (by rw [hsplit]; rfl) i side hi hs solo' fun j => ?_
  have hj := hr j
  by_cases hjc : j = c
  · subst hjc
    rw [alone_cons_self hc, runEvents_cons, happ]
    simpa using hj
  · rw [alone_cons_of_ne (by simp [hc, Ne.symm hjc])]
    simpa [Function.update_of_ne hjc] using hj

omit [DecidableEq κ] in
/-- A call for a connection has a direction. -/
theorem Event.exists_side {e : Event κ} {i : κ} (h : e.conn? = some i) :
    ∃ side, e.side? = some side := by
  cases e with
  | arm faults => cases h
  | observe conn side buf => exact ⟨side, rfl⟩
  | rewrite conn buf => exact ⟨.server, rfl⟩

/-- One call on the shared tracker against the same call on the connection's
own: it records the same headers, and the two stay tied. -/
theorem Tied.step {t t' : Tracker} {solo : Solo κ} {e : Event κ} {i : κ} (h : Tied t solo)
    (hi : e.conn? = some i)
    (hq : ∀ side, e.side? = some side → ∀ j, j ≠ i → (solo j).pending.get side = 0)
    (hstep : e.apply t = some t') :
    ∃ s' new, e.apply (solo i) = some s' ∧ Tied t' (Function.update solo i s') ∧
      t'.seen = t.seen ++ new ∧ s'.seen = (solo i).seen ++ new := by
  cases e with
  | arm faults => simp [Event.conn?] at hi
  | rewrite conn buf =>
      obtain rfl : conn = i := by simpa [Event.conn?] using hi
      simp only [Event.apply, Option.map_eq_some_iff] at hstep ⊢
      obtain ⟨⟨r, t₁⟩, hr, rfl⟩ := hstep
      obtain ⟨hpend, hseen⟩ := rewrite_frame hr
      refine ⟨solo conn, [], ⟨_, rewrite_unarmed (h.unarmed conn) buf, rfl⟩, ?_, by simp [hseen],
        by simp⟩
      rw [Function.update_eq_self]
      exact ⟨h.unarmed, fun side => by simpa [hpend] using h.count side⟩
  | observe conn side buf =>
      obtain rfl : conn = i := by simpa [Event.conn?] using hi
      have hsame := h.pending_eq (hq side rfl)
      simp only [Event.apply, observe_eq, Option.map_eq_some_iff] at hstep ⊢
      obtain ⟨⟨found, leftover⟩, hobs, rfl⟩ := hstep
      rw [hsame] at hobs
      refine ⟨_, found.map fun header => ⟨side, header⟩, ⟨_, hobs, rfl⟩, ⟨fun j => ?_, fun d => ?_⟩,
        rfl, rfl⟩
      · by_cases hj : j = conn
        · subst hj; simpa using h.unarmed j
        · simpa [Function.update_of_ne hj] using h.unarmed j
      · by_cases hd : d = side
        · -- this direction now has the caller's count, and the others owe nothing
          subst hd
          refine .inr ⟨conn, by simp, fun j hj => ?_⟩
          rw [Function.update_of_ne hj]
          exact hq d rfl j hj
        · -- the other direction's counts are untouched
          have hother (p : Pending) (n : Nat) : (p.set n side).get d = p.get d := by
            cases side <;> cases d <;> first | rfl | exact absurd rfl hd
          have hupd (j : κ) : (Function.update solo conn
              { solo conn with
                seen := (solo conn).seen ++ found.map fun header => ⟨side, header⟩
                pending := (solo conn).pending.set leftover side } j).pending.get d =
              (solo j).pending.get d := by
            by_cases hj : j = conn
            · subst hj; simp [hother]
            · simp [Function.update_of_ne hj]
          simpa only [hother, hupd] using h.count d

/-- **A run beside its connections**: a run of ready calls returns, and whatever
the shared tracker does for a connection, that connection's own tracker does
too. -/
theorem run_tied {events : List (Event κ)} {t : Tracker} {solo : Solo κ} (h : Tied t solo)
    (hready : EachReadyFrom solo events) :
    ∃ t' solo', runEvents t events = some t' ∧ Tied t' solo' ∧
      ∀ i, runEvents (solo i) (alone i events) = some (solo' i) ∧
        (solo' i).seen = (solo i).seen ++ recordedFrom i t events := by
  induction events generalizing t solo with
  | nil => exact ⟨t, solo, rfl, h, fun i => by simp [alone, recordedFrom]⟩
  | cons e es ih =>
      cases hc : e.conn? with
      | none =>
          -- arming faults changes no count and records nothing
          obtain ⟨faults, rfl⟩ : ∃ faults, e = .arm faults := by
            cases e <;> simp_all [Event.conn?]
          have hstep : Event.apply t (.arm faults : Event κ) = some (t.set faults) := rfl
          obtain ⟨t', solo', hrun, htied, hsolo⟩ :=
            ih (t := t.set faults) ⟨h.unarmed, h.count⟩ (hready.skip hc)
          refine ⟨t', solo', by rw [runEvents_cons, hstep]; exact hrun, htied, fun i => ?_⟩
          rw [alone_cons_of_ne (by simp [hc])]
          refine ⟨(hsolo i).1, ?_⟩
          rw [(hsolo i).2, recordedFrom, hstep]
          simp [Event.conn?]
      | some c =>
          obtain ⟨side, hs⟩ := Event.exists_side hc
          have hcall := hready.head hc hs
          obtain ⟨t₁, hstep⟩ := Option.isSome_iff_exists.mp
            (hcall.apply_isSome hs (h.pending_eq hcall.others_quiet))
          obtain ⟨s', new, happ, htied, hnew, hsnew⟩ := h.step hc (fun d hd => by
            obtain rfl : side = d := Option.some.inj (hs.symm.trans hd)
            exact hcall.others_quiet) hstep
          obtain ⟨t', solo', hrun, htied', hsolo⟩ := ih htied (hready.step hc happ)
          refine ⟨t', solo', by rw [runEvents_cons, hstep]; exact hrun, htied', fun i => ?_⟩
          obtain ⟨hrun', hseen⟩ := hsolo i
          by_cases hi : i = c
          · subst hi
            rw [Function.update_self] at hrun' hseen
            refine ⟨by rw [alone_cons_self hc, runEvents_cons, happ]; exact hrun', ?_⟩
            rw [hseen, recordedFrom, hstep, hsnew]
            simp [hc, hnew]
          · rw [Function.update_of_ne hi] at hrun' hseen
            refine ⟨by rw [alone_cons_of_ne (by simp [hc, Ne.symm hi])]; exact hrun', ?_⟩
            rw [hseen, recordedFrom, hstep]
            simp [hc, Ne.symm hi]

/-! ## Independence -/

omit [DecidableEq κ] in
theorem tied_new : Tied Tracker.new (fun _ : κ => Tracker.new) :=
  ⟨fun _ => rfl, fun side => .inl ⟨by cases side <;> rfl, fun _ => by cases side <;> rfl⟩⟩

/-- **Connections do not interfere**, in every run in which a chunk is observed
or rewritten only while every other connection owes nothing in its direction,
and announces no length that wraps. -/
theorem connections_independent (events : List (Event κ)) (hready : EachReady events) (i : κ) :
    Independent i events where
  recorded := by
    obtain ⟨t, solo', hrun, -, hsolo⟩ := run_tied tied_new hready
    exact ⟨t, solo' i, hrun, (hsolo i).1, by rw [(hsolo i).2]; rfl⟩
  located pre buf post hsplit := by
    have hall : EachReadyFrom (fun _ : κ => Tracker.new) (pre ++ .rewrite i buf :: post) :=
      hsplit ▸ hready
    obtain ⟨t, solo', hrun, htied, hsolo⟩ := run_tied tied_new hall.of_append
    have hcall : Ready solo' i .server buf :=
      hready pre _ post hsplit i .server rfl rfl solo' fun j => (hsolo j).1
    have hpend : t.pending.get .server = (solo' i).pending.get .server :=
      htied.pending_eq hcall.others_quiet
    simp only [Pending.get] at hpend
    have hends := walksEnd_of_harmless hcall.short hcall.harmless
    obtain ⟨found, hfound, -⟩ := hends.headers_returns
    obtain ⟨⟨r, t₁⟩, hr⟩ := Option.isSome_iff_exists.mp (hends.rewrite t hpend)
    have hlocated : (solo' i).located buf =
        some (found.map fun (rel, header) => (min (solo' i).pending.server buf.length + rel, header)) := by
      rw [Tracker.located]
      exact congrArg _ hfound
    have hr₁ : (t.rewrite buf).map Prod.fst = some r := by rw [hr]; rfl
    refine ⟨t, solo' i, _, r, hrun, (hsolo i).1, ?_, hlocated, hr₁, ?_⟩
    · rw [← hlocated, Tracker.located, Tracker.located, hpend]
    · rw [← hr₁]
      simp only [Tracker.rewrite, Tracker.set, hpend, Option.map_map]
      rfl

/-- A message with four payload bytes, and one with none. -/
def waiting : Message := ⟨msgDataEnd, 0, 0xFFFFFF00, [1, 2, 3, 4], by decide⟩

def whole : Message := ⟨msgDataEnd, 0, 0xFFFFFF04, [], Message.short_nil⟩

/-- A whole message with nothing owed before it is ready while no other
connection owes anything. -/
theorem ready_message {solo : Solo Bool} {i : Bool} (h : ∀ j, (solo j).pending.server = 0)
    (m : Message) (hlen : m.size < 2 ^ 63) : Ready solo i .server m.bytes where
  others_quiet j _ := h j
  short := by rwa [Message.length_bytes]
  harmless := by
    have hchain : Chain [m.piece] := ⟨fun h => absurd rfl h, trivial⟩
    have hbytes : m.bytes = pieceBytes [m.piece] := by simp
    show Harmless (min (solo i).pending.server _) (m.bytes.drop (min (solo i).pending.server _))
    rw [h i, Nat.zero_min, List.drop_zero, hbytes]
    exact harmless_chain hchain (by rw [← hbytes, Message.length_bytes]; omega)

/-- Two connections whose chunks are whole messages never wait for each
other. -/
theorem connections_independent_whole :
    EachReady [Event.observe false .server waiting.bytes, .observe true .server whole.bytes] ∧
      Independent true
        [Event.observe false .server waiting.bytes, .observe true .server whole.bytes] := by
  have hready : EachReady
      [Event.observe false .server waiting.bytes, .observe true .server whole.bytes] := by
    intro pre e post hsplit i side hi hs solo' hrun
    rcases pre with _ | ⟨e₁, _ | ⟨e₂, pre⟩⟩
    · obtain ⟨rfl, -⟩ : e = Event.observe false .server waiting.bytes ∧
          post = [.observe true .server whole.bytes] := by
        simpa [eq_comm] using hsplit
      obtain rfl : Side.server = side := by simpa [Event.side?] using hs
      refine ready_message (fun j => ?_) waiting (by decide)
      have hnew : Tracker.new = solo' j := by simpa [alone] using hrun j
      rw [← hnew]
      rfl
    · obtain ⟨rfl, rfl, -⟩ : e₁ = Event.observe false .server waiting.bytes ∧
          e = Event.observe true .server whole.bytes ∧ post = [] := by
        simpa [eq_comm] using hsplit
      obtain rfl : Side.server = side := by simpa [Event.side?] using hs
      refine ready_message (fun j => ?_) whole (by decide)
      have hown : ∀ j, (runEvents Tracker.new (alone j
          [Event.observe false .server waiting.bytes])).map (fun s => s.pending.server) =
          some 0 := by decide
      simpa [hrun j] using hown j
    · simp at hsplit
  exact ⟨hready, connections_independent _ hready true⟩

/-- A header of one connection, still waiting for its payload, while a whole
message of another connection arrives: its first bytes are taken for the
payload that is owed, and its header is lost. -/
theorem connections_interfere :
    Segmentation [waiting] [waiting.header.bytes, waiting.payload] ∧
      Segmentation [whole] [whole.bytes] ∧
      ¬ Independent true [Event.observe false .server waiting.header.bytes,
        .observe true .server whole.bytes, .observe false .server waiting.payload] := by
  refine ⟨⟨by decide, by decide, by decide⟩, ⟨by decide, by decide, by decide⟩, fun h => ?_⟩
  obtain ⟨t, s, -, hs, hrec⟩ := h.recorded
  have hown : (runEvents Tracker.new (alone true
      [Event.observe false .server waiting.header.bytes, .observe true .server whole.bytes,
        .observe false .server waiting.payload])).map Tracker.seen =
      some [⟨.server, whole.header⟩] := by decide
  have hshared : recordedFrom true Tracker.new [Event.observe false .server waiting.header.bytes,
      .observe true .server whole.bytes, .observe false .server waiting.payload] = [] := by decide
  rw [hs, Option.map_some, ← hrec, hshared] at hown
  exact absurd hown (by decide)

end TestGear.Hislip
