import TestGear.Pipe
import TestGear.Proxy.Segmentation
import TestGear.Runs

/-!
# TestGear.Proxy.HalfClose

A proxied connection with no fault armed, as its parties see it: the client,
the upstream server, and the two directions of `pump` between them, taking
steps in any order.  A direction reads a buffer, writes it out in as many
pieces as the socket takes, and reads again; at the end of its stream it ends
the other side, and `select!` then ends the connection, whatever the other
direction is doing.

* `Conn.follows_exec` — whatever order the steps come in, what is written to
  the client is what the loop of `to_client` makes of the reads;
* `always_delivered_iff` — a connection is never closed on bytes of the
  upstream, exactly in the runs in which the direction to the server takes the
  client's end when there are none, and there are none to come.
-/

namespace TestGear.Proxy

/-- A connection: its four streams, what each direction has read and not yet
written, and whether `pump` has returned. -/
structure Conn where
  clientRx : Pipe UInt8 := {}
  clientTx : Pipe UInt8 := {}
  serverRx : Pipe UInt8 := {}
  serverTx : Pipe UInt8 := {}
  requests : List UInt8 := []
  replies : List UInt8 := []
  trackers : Trackers := {}
  closed : Bool := false

namespace Conn

/-! ## The steps -/

/-- A party sends something on its side. -/
def put (p : Pipe UInt8) (bytes : List UInt8) : Option (Pipe UInt8) :=
  if bytes = [] then none else p.send bytes

/-- `select!` returns, and the sockets are dropped. -/
def close (c : Conn) : Conn :=
  { c with clientTx := c.clientTx.finish, serverTx := c.serverTx.finish, closed := true }

def toServerReads (c : Conn) (n : Nat) : Option Conn :=
  if c.closed || c.requests ≠ [] then none
  else do
    let (buf, clientRx) ← c.clientRx.read (min n bufLen)
    let trackers ← c.trackers.sent buf
    some { c with clientRx, trackers, requests := buf }

/-- `write_all`, as far as the socket takes it. -/
def toServerWrites (c : Conn) (n : Nat) : Option Conn :=
  if c.closed then none
  else do
    let serverTx ← put c.serverTx (c.requests.take n)
    some { c with serverTx, requests := c.requests.drop n }

/-- The client has ended its side: the half-close is passed on. -/
def toServerEnds (c : Conn) : Option Conn :=
  if c.closed || c.requests ≠ [] || !c.clientRx.atEnd then none else some c.close

def toClientReads (c : Conn) (n : Nat) : Option Conn :=
  if c.closed || c.replies ≠ [] then none
  else do
    let (chunk, serverRx) ← c.serverRx.read (min n bufLen)
    let (body, trackers) ← c.trackers.pass chunk
    some { c with serverRx, trackers, replies := body }

def toClientWrites (c : Conn) (n : Nat) : Option Conn :=
  if c.closed then none
  else do
    let clientTx ← put c.clientTx (c.replies.take n)
    some { c with clientTx, replies := c.replies.drop n }

def toClientEnds (c : Conn) : Option Conn :=
  if c.closed || c.replies ≠ [] || !c.serverRx.atEnd then none else some c.close

/-- A step of one of the parties. -/
inductive Move where
  | clientSends (bytes : List UInt8)
  | clientEnds
  | clientReads (n : Nat)
  | upstreamSends (bytes : List UInt8)
  | upstreamEnds
  | upstreamReads (n : Nat)
  | toServerReads (n : Nat)
  | toServerWrites (n : Nat)
  | toServerEnds
  | toClientReads (n : Nat)
  | toClientWrites (n : Nat)
  | toClientEnds

/-- The connection after a step; none if it is not one that can be taken. -/
def move (c : Conn) : Move → Option Conn
  | .clientSends bytes => (put c.clientRx bytes).map fun p => { c with clientRx := p }
  | .clientEnds => some { c with clientRx := c.clientRx.finish }
  | .clientReads n => (c.clientTx.read n).map fun r => { c with clientTx := r.2 }
  | .upstreamSends bytes => (put c.serverRx bytes).map fun p => { c with serverRx := p }
  | .upstreamEnds => some { c with serverRx := c.serverRx.finish }
  | .upstreamReads n => (c.serverTx.read n).map fun r => { c with serverTx := r.2 }
  | .toServerReads n => c.toServerReads n
  | .toServerWrites n => c.toServerWrites n
  | .toServerEnds => c.toServerEnds
  | .toClientReads n => c.toClientReads n
  | .toClientWrites n => c.toClientWrites n
  | .toClientEnds => c.toClientEnds

def step (c : Conn) (m : Move) : Option (Conn × Unit) := (c.move m).map (·, ())

/-! ## A step -/

/-- A step seen from the trackers: they are shown `es`, what has been written
or is being written grows by what they make of it, and `es` is what has been
read of the upstream. -/
structure Shows (c d : Conn) (es : List Event) : Prop where
  trackers : after c.trackers es = some d.trackers
  written : d.clientTx.sent ++ d.replies = c.clientTx.sent ++ c.replies ++ rewritten c.trackers es
  read : ∀ taken, taken ++ c.serverRx.queue = c.serverRx.sent →
    taken ++ stream es ++ d.serverRx.queue = d.serverRx.sent

/-- A step seen from the end: most leave what was sent, what was written and
the connection alone; the upstream sends more; the direction to the client
works on an open connection; and either direction ends it. -/
inductive Effect (c d : Conn) : Move → Prop
  | aside {m : Move} (hm : m ≠ .toServerEnds ∧ ∀ bytes, m ≠ .upstreamSends bytes)
      (htx : d.clientTx.sent = c.clientTx.sent) (hsent : d.serverRx.sent = c.serverRx.sent)
      (hclosed : d.closed = c.closed) : Effect c d m
  | sends {bytes : List UInt8} (hne : bytes ≠ []) (htx : d.clientTx.sent = c.clientTx.sent)
      (hsent : d.serverRx.sent = c.serverRx.sent ++ bytes) (hclosed : d.closed = c.closed) :
      Effect c d (.upstreamSends bytes)
  | passes {m : Move} (hm : m ≠ .toServerEnds ∧ ∀ bytes, m ≠ .upstreamSends bytes)
      (hopen : d.closed = false) : Effect c d m
  | serverEnds (hd : d = c.close) : Effect c d .toServerEnds
  | clientEnds (hreplies : c.replies = []) (hqueue : c.serverRx.queue = []) (hd : d = c.close) :
      Effect c d .toClientEnds

/-- A step that the trackers are not shown. -/
theorem shows_nil {c d : Conn} (hts : d.trackers = c.trackers)
    (hwritten : d.clientTx.sent ++ d.replies = c.clientTx.sent ++ c.replies)
    (hread : ∀ taken, taken ++ c.serverRx.queue = c.serverRx.sent →
      taken ++ d.serverRx.queue = d.serverRx.sent) : Shows c d [] := by
  refine ⟨by rw [hts]; rfl, by rw [hwritten, rewritten_nil, List.append_nil], ?_⟩
  intro taken htaken
  rw [stream_nil, List.append_nil]
  exact hread taken htaken

theorem put_eq_some {p q : Pipe UInt8} {bytes : List UInt8} (h : put p bytes = some q) :
    bytes ≠ [] ∧ p.send bytes = some q := by
  unfold put at h
  split at h
  · cases h
  · next hne => exact ⟨hne, h⟩

theorem step_toServerReads {c d : Conn} {n : Nat} (h : c.toServerReads n = some d) :
    ∃ es, Shows c d es ∧ Effect c d (.toServerReads n) := by
  unfold toServerReads at h
  split at h
  · cases h
  · simp only [Option.bind_eq_bind, Option.bind_eq_some_iff, Option.some.injEq] at h
    obtain ⟨⟨buf, rx⟩, -, ts, hsent, rfl⟩ := h
    have hafter : after c.trackers [.client buf] = some ts := by
      rw [after, Trackers.see, hsent]
      rfl
    refine ⟨[.client buf], ⟨hafter, ?_, ?_⟩, .aside (by simp) rfl rfl rfl⟩
    · rw [rewritten_client hsent, rewritten_nil, List.append_nil]
    · intro taken htaken
      simpa [Event.bytes] using htaken

theorem step_toServerWrites {c d : Conn} {n : Nat} (h : c.toServerWrites n = some d) :
    ∃ es, Shows c d es ∧ Effect c d (.toServerWrites n) := by
  unfold toServerWrites at h
  split at h
  · cases h
  · simp only [Option.bind_eq_bind, Option.bind_eq_some_iff, Option.some.injEq] at h
    obtain ⟨tx, -, rfl⟩ := h
    exact ⟨[], shows_nil rfl rfl fun _ h => h, .aside (by simp) rfl rfl rfl⟩

theorem step_toServerEnds {c d : Conn} (h : c.toServerEnds = some d) :
    ∃ es, Shows c d es ∧ Effect c d .toServerEnds := by
  unfold toServerEnds at h
  split at h
  · cases h
  · cases h
    exact ⟨[], shows_nil rfl rfl fun _ h => h, .serverEnds rfl⟩

theorem step_toClientReads {c d : Conn} {n : Nat} (h : c.toClientReads n = some d) :
    ∃ es, Shows c d es ∧ Effect c d (.toClientReads n) := by
  unfold toClientReads at h
  split at h
  · cases h
  · next hguard =>
      simp only [Bool.or_eq_true, decide_eq_true_eq, not_or, Bool.not_eq_true, not_not] at hguard
      obtain ⟨hopen, hreplies⟩ := hguard
      simp only [Option.bind_eq_bind, Option.bind_eq_some_iff, Option.some.injEq] at h
      obtain ⟨⟨chunk, rx⟩, hread, ⟨body, ts⟩, hpass, rfl⟩ := h
      obtain ⟨r, rfl⟩ : ∃ r : Read, r.bytes = chunk := ⟨⟨chunk, Pipe.ne_nil_of_read hread⟩, rfl⟩
      have hafter : after c.trackers [.server r] = some ts := by
        rw [after, Trackers.see, hpass]
        rfl
      refine ⟨[.server r], ⟨hafter, ?_, ?_⟩, .passes (by simp) hopen⟩
      · rw [rewritten_server hpass, rewritten_nil, hreplies, List.append_nil, List.append_nil]
      · intro taken htaken
        rw [Pipe.sent_read hread, ← htaken, ← Pipe.append_queue_read hread]
        simp [Event.bytes]

theorem step_toClientWrites {c d : Conn} {n : Nat} (h : c.toClientWrites n = some d) :
    ∃ es, Shows c d es ∧ Effect c d (.toClientWrites n) := by
  unfold toClientWrites at h
  split at h
  · cases h
  · next hopen =>
      simp only [Option.bind_eq_bind, Option.bind_eq_some_iff, Option.some.injEq] at h
      obtain ⟨tx, hput, rfl⟩ := h
      obtain ⟨-, hsend⟩ := put_eq_some hput
      refine ⟨[], shows_nil rfl ?_ fun _ h => h, .passes (by simp) (by simpa using hopen)⟩
      simp only [Pipe.sent_send hsend, List.append_assoc, List.take_append_drop]

theorem step_toClientEnds {c d : Conn} (h : c.toClientEnds = some d) :
    ∃ es, Shows c d es ∧ Effect c d .toClientEnds := by
  unfold toClientEnds at h
  split at h
  · cases h
  · next hguard =>
      simp only [Bool.or_eq_true, decide_eq_true_eq, Bool.not_eq_true', not_or, not_not,
        Bool.not_eq_false] at hguard
      cases h
      exact ⟨[], shows_nil rfl rfl fun _ h => h,
        .clientEnds hguard.1.2 (Pipe.queue_of_atEnd hguard.2) rfl⟩

/-- **Everything a step can do.** -/
theorem move_cases {c d : Conn} {m : Move} (h : c.move m = some d) :
    ∃ es, Shows c d es ∧ Effect c d m := by
  cases m with
  | clientSends bytes =>
      obtain ⟨p, -, rfl⟩ := Option.map_eq_some_iff.mp h
      exact ⟨[], shows_nil rfl rfl fun _ h => h, .aside (by simp) rfl rfl rfl⟩
  | clientEnds =>
      cases h
      exact ⟨[], shows_nil rfl rfl fun _ h => h, .aside (by simp) rfl rfl rfl⟩
  | clientReads n =>
      obtain ⟨⟨bytes, p⟩, hread, rfl⟩ := Option.map_eq_some_iff.mp h
      have htx := Pipe.sent_read hread
      exact ⟨[], shows_nil rfl (congrArg (· ++ c.replies) htx) fun _ h => h,
        .aside (by simp) htx rfl rfl⟩
  | upstreamSends bytes =>
      obtain ⟨p, hput, rfl⟩ := Option.map_eq_some_iff.mp h
      obtain ⟨hne, hsend⟩ := put_eq_some hput
      refine ⟨[], shows_nil rfl rfl ?_, .sends hne rfl (Pipe.sent_send hsend) rfl⟩
      intro taken htaken
      rw [Pipe.queue_send hsend, Pipe.sent_send hsend, ← List.append_assoc, htaken]
  | upstreamEnds =>
      cases h
      exact ⟨[], shows_nil rfl rfl fun _ h => h, .aside (by simp) rfl rfl rfl⟩
  | upstreamReads n =>
      obtain ⟨p, -, rfl⟩ := Option.map_eq_some_iff.mp h
      exact ⟨[], shows_nil rfl rfl fun _ h => h, .aside (by simp) rfl rfl rfl⟩
  | toServerReads n => exact step_toServerReads h
  | toServerWrites n => exact step_toServerWrites h
  | toServerEnds => exact step_toServerEnds h
  | toClientReads n => exact step_toClientReads h
  | toClientWrites n => exact step_toClientWrites h
  | toClientEnds => exact step_toClientEnds h

/-! ## A run -/

/-- The connection has followed the loops of `pump` over some events: what has
been written to the client or is being written is what the trackers made of
them, and what of the upstream is not among them waits to be read. -/
def Follows (ts : Trackers) (c : Conn) : Prop :=
  ∃ es, after ts es = some c.trackers ∧ c.clientTx.sent ++ c.replies = rewritten ts es ∧
    stream es ++ c.serverRx.queue = c.serverRx.sent

theorem follows_start (ts : Trackers) : Follows ts { trackers := ts } := ⟨[], rfl, rfl, rfl⟩

theorem Follows.move {ts : Trackers} {c d : Conn} {m : Move} (hc : Follows ts c)
    (h : c.move m = some d) : Follows ts d := by
  obtain ⟨es, hafter, hwritten, hread⟩ := hc
  obtain ⟨es', hshows, -⟩ := move_cases h
  refine ⟨es ++ es', after_append hafter hshows.trackers, ?_, ?_⟩
  · rw [hshows.written, hwritten, rewritten_append hafter]
  · rw [stream_append]
    exact hshows.read (stream es) hread

/-- With nothing armed, what the upstream has sent is what the client has been
sent, what is being written, and what waits to be read. -/
theorem Follows.sent_eq {ts : Trackers} {c : Conn} (hts : ts.Unarmed) (hc : Follows ts c) :
    c.serverRx.sent = c.clientTx.sent ++ c.replies ++ c.serverRx.queue := by
  obtain ⟨es, hafter, hwritten, hread⟩ := hc
  rw [hwritten, rewritten_of_unarmed hts hafter, hread]

/-! ## Closing -/

/-- If the connection is closed, every byte the upstream has sent has been
written to the client. -/
def Delivered (c : Conn) : Prop := c.closed = true → c.clientTx.sent = c.serverRx.sent

/-- The client's end is taken only when no bytes of the upstream are left to
be read or written, and the upstream sends no more once the connection is
closed. -/
structure Orderly (c : Conn) (m : Move) : Prop where
  ends : m = .toServerEnds → (c.step m).isSome → c.replies = [] ∧ c.serverRx.queue = []
  sends : ∀ bytes, m = .upstreamSends bytes → (c.step m).isSome → c.closed = false

/-- One step. -/
theorem delivered_step_iff {c d : Conn} {m : Move}
    (hsent : c.serverRx.sent = c.clientTx.sent ++ c.replies ++ c.serverRx.queue)
    (hdel : c.Delivered) (h : c.move m = some d) : d.Delivered ↔ c.Orderly m := by
  have hsome : (c.step m).isSome := by rw [step, h]; rfl
  obtain ⟨-, -, heffect⟩ := move_cases h
  cases heffect with
  | aside hm htx hrx hclosed =>
      refine iff_of_true ?_ ⟨fun heq => absurd heq hm.1, fun b heq => absurd heq (hm.2 b)⟩
      rw [Delivered, hclosed, htx, hrx]
      exact hdel
  | sends hne htx hrx hclosed =>
      constructor
      · intro hd
        refine ⟨fun heq => (nomatch heq), fun _ _ _ => ?_⟩
        by_contra hcl
        rw [Bool.not_eq_false] at hcl
        have hlong := hd (hclosed.trans hcl)
        rw [htx, hdel hcl, hrx, List.self_eq_append_right] at hlong
        exact hne hlong
      · intro hord hd
        rw [hclosed, hord.sends _ rfl hsome] at hd
        cases hd
  | passes hm hopen =>
      refine iff_of_true ?_ ⟨fun heq => absurd heq hm.1, fun b heq => absurd heq (hm.2 b)⟩
      intro hd
      rw [hopen] at hd
      cases hd
  | serverEnds hd =>
      have hiff : d.Delivered ↔ c.replies = [] ∧ c.serverRx.queue = [] := by
        rw [hd, Delivered]
        simp only [close, Pipe.sent_finish, forall_const]
        rw [hsent, List.append_assoc, List.self_eq_append_right, List.append_eq_nil_iff]
      rw [hiff]
      exact ⟨fun h => ⟨fun _ _ => h, fun b heq => (nomatch heq)⟩, fun hord => hord.ends rfl hsome⟩
  | clientEnds hreplies hqueue hd =>
      refine iff_of_true ?_ ⟨fun heq => (nomatch heq), fun b heq => nomatch heq⟩
      intro _
      rw [hd]
      simp [close, hsent, hreplies, hqueue]

theorem move_of_step {c d : Conn} {m : Move} {o : Unit} (h : c.step m = some (d, o)) :
    c.move m = some d := by
  obtain ⟨d', hd, heq⟩ := Option.map_eq_some_iff.mp h
  cases heq
  exact hd

/-- **Every run follows the loops**, whatever is armed. -/
theorem follows_exec {ts : Trackers} {c : Conn} {ms : List Move}
    (h : Runs.exec step { trackers := ts } ms = some c) : Follows ts c :=
  Runs.exec_invariant (fun _ _ _ _ hc hstep => hc.move (move_of_step hstep)) (follows_start ts) h

/-- **The final reply is delivered**, in every state of a run, exactly in the
runs whose every step is orderly. -/
theorem always_delivered_iff {ts : Trackers} (hts : ts.Unarmed) (ms : List Move) :
    Runs.Always step Delivered { trackers := ts } ms ↔
      Runs.Throughout step Orderly { trackers := ts } ms := by
  have hboth : Runs.Always step (fun c => Follows ts c ∧ c.Delivered) { trackers := ts } ms ↔
      Runs.Throughout step Orderly { trackers := ts } ms := by
    refine Runs.always_iff_throughout ?_ ?_ ⟨follows_start ts, fun h => nomatch h⟩ ms
    · rintro c m d o ⟨hc, hdel⟩ h
      rw [← delivered_step_iff (hc.sent_eq hts) hdel (move_of_step h)]
      exact and_iff_right (hc.move (move_of_step h))
    · intro c m hnone
      constructor <;> simp [hnone]
  rw [← hboth]
  constructor
  · intro h pre c hpre hc
    exact ⟨follows_exec hc, h pre c hpre hc⟩
  · intro h pre c hpre hc
    exact (h pre c hpre hc).2

/-! ## A request, its reply, and the client's end -/

/-- The direction to the server takes the client's end when the reply has been
written. -/
def replyFirst : List Move :=
  [.clientSends [1], .clientEnds, .toServerReads 1, .toServerWrites 1, .upstreamReads 1,
    .upstreamSends [2], .toClientReads 1, .toClientWrites 1, .toServerEnds, .upstreamEnds]

theorem always_delivered_iff_replyFirst : Runs.Always step Delivered {} replyFirst := by
  refine (always_delivered_iff unarmed_none replyFirst).mpr ?_
  have hother : ∀ (c : Conn) m, m ≠ .toServerEnds → (∀ bytes, m ≠ .upstreamSends bytes) →
      c.Orderly m := fun c m hends hsends =>
    ⟨fun heq => absurd heq hends, fun bytes heq => absurd heq (hsends bytes)⟩
  iterate 5 refine Runs.throughout_cons rfl (hother _ _ (by simp) (by simp)) ?_
  refine Runs.throughout_cons rfl ⟨fun heq => (nomatch heq), fun _ _ _ => rfl⟩ ?_
  iterate 2 refine Runs.throughout_cons rfl (hother _ _ (by simp) (by simp)) ?_
  refine Runs.throughout_cons rfl ⟨fun _ _ => ⟨rfl, rfl⟩, fun _ heq => (nomatch heq)⟩ ?_
  exact Runs.throughout_cons rfl (hother _ _ (by simp) (by simp)) Runs.throughout_nil

/-- It takes it while the reply is on its way. -/
def endFirst : List Move :=
  [.clientSends [1], .clientEnds, .toServerReads 1, .toServerWrites 1, .upstreamReads 1,
    .upstreamSends [2], .toServerEnds, .upstreamEnds]

theorem not_always_delivered_endFirst : ¬ Runs.Always step Delivered {} endFirst := by
  intro h
  have hlast := h (endFirst.take 7) _ (List.take_prefix 7 _) rfl rfl
  revert hlast
  decide

end Conn

end TestGear.Proxy
