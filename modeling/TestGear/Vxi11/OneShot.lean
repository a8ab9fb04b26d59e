import TestGear.Vxi11.Rewrite

/-!
# TestGear.Vxi11.OneShot

Do the one-shot faults fire once?  As in the HiSLIP tracker, a call decides
from the copy of the fault set it took when it began, so within one chunk a
fault hits every reply it fits, and only across chunks is it disarmed.

What the knobs promise is `expected`: the error word is replaced in the first
reply to its procedure that is long enough to hold it (in every one, with
`errorOnce` off), the stale record stands before the first reply to its
procedure, and the maxRecvSize word is replaced in every create_link reply.

* `one_shot_replies` — that is what the client receives, in every run whose
  chunks hold at most one reply for each one-shot fault still armed;
* `one_shot_error_twice` — two replies in one chunk both carry the error.
-/

namespace TestGear.Vxi11

/-! ## What the knobs promise -/

/-- A reply and the procedure it answers. -/
abbrev Answer := Option UInt32 × Record

def Answer.errorHits (f : Vxi11Faults) (a : Answer) : Bool := Vxi11.errorHits f a.1 a.2.body

def Answer.staleHits (f : Vxi11Faults) (a : Answer) : Bool := Vxi11.staleHits f a.1

/-- A reply as it is to be forwarded behind the replies `earlier`, counted from
the moment of arming. -/
def expected (f : Vxi11Faults) (earlier : List Answer) (a : Answer) : Delivery where
  record := a.2
  stale := a.staleHits f && !earlier.any (Answer.staleHits f)
  body :=
    let body := if a.errorHits f && !(f.errorOnce.getD true && earlier.any (Answer.errorHits f))
      then splice a.2.body results (be32 (f.errorCode.getD 0)) else a.2.body
    if sizeHits f a.1 a.2.body then splice body (results + 12) (be32 (f.maxRecvSize.getD 0)) else body

/-- The replies of a chunk, forwarded behind the replies `earlier`. -/
def expectedAll (f : Vxi11Faults) : (earlier answers : List Answer) → List Delivery
  | _, [] => []
  | earlier, a :: as => expected f earlier a :: expectedAll f (earlier ++ [a]) as

/-- The replies of a chunk, each with the procedure the map has for it. -/
def answers (calls : Calls) (rs : List Record) : List Answer := rs.map fun r => (procOf calls r, r)

/-- What is still armed behind the replies `earlier`. -/
def armedAfter (f : Vxi11Faults) (earlier : List Answer) : Vxi11Faults :=
  { f with
    errorOnProc :=
      if f.errorOnce.getD true && earlier.any (Answer.errorHits f) then none else f.errorOnProc
    staleReplyBeforeProc :=
      if earlier.any (Answer.staleHits f) then none else f.staleReplyBeforeProc }

@[simp] theorem armedAfter_nil (f : Vxi11Faults) : armedAfter f [] = f := by
  simp [armedAfter]

theorem errorHits_armedAfter (f : Vxi11Faults) (xs : List Answer) (a : Answer) :
    a.errorHits (armedAfter f xs) =
      (a.errorHits f && !(f.errorOnce.getD true && xs.any (Answer.errorHits f))) := by
  cases h : f.errorOnce.getD true && xs.any (Answer.errorHits f) <;>
    simp [Answer.errorHits, errorHits, armedAfter, h]

theorem staleHits_armedAfter (f : Vxi11Faults) (xs : List Answer) (a : Answer) :
    a.staleHits (armedAfter f xs) = (a.staleHits f && !xs.any (Answer.staleHits f)) := by
  cases h : xs.any (Answer.staleHits f) <;>
    simp [Answer.staleHits, staleHits, armedAfter, h]

theorem sizeHits_armedAfter (f : Vxi11Faults) (xs : List Answer) (proc : Option UInt32)
    (body : List UInt8) : sizeHits (armedAfter f xs) proc body = sizeHits f proc body := rfl

/-- Arming anew what is left behind `xs` is going on behind `xs`. -/
theorem expected_armedAfter (f : Vxi11Faults) (xs earlier : List Answer) (a : Answer) :
    expected (armedAfter f xs) earlier a = expected f (xs ++ earlier) a := by
  have herr : (a.errorHits (armedAfter f xs) && !((armedAfter f xs).errorOnce.getD true &&
      earlier.any (Answer.errorHits (armedAfter f xs)))) =
      (a.errorHits f && !(f.errorOnce.getD true && (xs ++ earlier).any (Answer.errorHits f))) := by
    have honce : (armedAfter f xs).errorOnce = f.errorOnce := rfl
    have hfun : Answer.errorHits (armedAfter f xs) = fun a => a.errorHits f &&
        !(f.errorOnce.getD true && xs.any (Answer.errorHits f)) :=
      funext fun a => errorHits_armedAfter f xs a
    rw [hfun, honce, List.any_append]
    cases f.errorOnce.getD true <;> cases xs.any (Answer.errorHits f) <;> simp
  have hstale : (a.staleHits (armedAfter f xs) &&
      !earlier.any (Answer.staleHits (armedAfter f xs))) =
      (a.staleHits f && !(xs ++ earlier).any (Answer.staleHits f)) := by
    have hfun : Answer.staleHits (armedAfter f xs) = fun a => a.staleHits f &&
        !xs.any (Answer.staleHits f) := funext fun a => staleHits_armedAfter f xs a
    rw [hfun, List.any_append]
    cases xs.any (Answer.staleHits f) <;> simp
  simp only [expected, herr, hstale, sizeHits_armedAfter]
  rfl

theorem expectedAll_armedAfter (f : Vxi11Faults) (xs earlier as : List Answer) :
    expectedAll (armedAfter f xs) earlier as = expectedAll f (xs ++ earlier) as := by
  induction as generalizing earlier with
  | nil => rfl
  | cons a as ih => rw [expectedAll, expectedAll, expected_armedAfter, ih, List.append_assoc]

/-! ## What a call does -/

/-- The first reply a call finds is forwarded as promised. -/
theorem delivered_eq (calls : Calls) (f : Vxi11Faults) (r : Record) :
    delivered calls f r = expected f [] (procOf calls r, r) := by
  simp only [delivered, rewrittenBody, expected, Answer.errorHits, Answer.staleHits, List.any_nil,
    Bool.and_false, Bool.not_false, Bool.and_true]

theorem disarm_armedAfter (calls : Calls) (f : Vxi11Faults) (xs : List Answer) (r : Record) :
    disarm calls f (armedAfter f xs) r = armedAfter f (xs ++ [(procOf calls r, r)]) := by
  simp only [disarm, armedAfter, List.any_append, List.any_cons, List.any_nil, Bool.or_false,
    Answer.errorHits, Answer.staleHits, Vxi11Faults.mk.injEq, true_and]
  constructor
  · cases errorHits f (procOf calls r) r.body <;> cases f.errorOnce.getD true <;>
      cases xs.any (Answer.errorHits f) <;> rfl
  · cases staleHits f (procOf calls r) <;> cases xs.any (Answer.staleHits f) <;> rfl

/-- A call leaves armed what no reply of its chunk has disarmed. -/
theorem foldl_disarm (calls : Calls) (f : Vxi11Faults) (rs : List Record) :
    rs.foldl (disarm calls f) f = armedAfter f (answers calls rs) := by
  have hfold (xs : List Answer) :
      rs.foldl (disarm calls f) (armedAfter f xs) = armedAfter f (xs ++ answers calls rs) := by
    induction rs generalizing xs with
    | nil => simp [answers]
    | cons r rs ih =>
        rw [List.foldl_cons, disarm_armedAfter, ih, List.append_assoc]
        rfl
  simpa using hfold []

/-- For each one-shot fault that is armed, at most one of these replies fits
it. -/
structure AtMostOne (f : Vxi11Faults) (as : List Answer) : Prop where
  error : f.errorOnce.getD true = true → as.countP (Answer.errorHits f) ≤ 1
  stale : as.countP (Answer.staleHits f) ≤ 1

theorem AtMostOne.tail {f : Vxi11Faults} {a : Answer} {as : List Answer}
    (h : AtMostOne f (a :: as)) : AtMostOne (armedAfter f [a]) as := by
  constructor
  · intro honce
    have hle := h.error honce
    have hmono : as.countP (Answer.errorHits (armedAfter f [a])) ≤ as.countP (Answer.errorHits f) :=
      List.countP_mono_left fun x _ hx => by
        rw [errorHits_armedAfter, Bool.and_eq_true] at hx
        exact hx.1
    rw [List.countP_cons] at hle
    omega
  · have hle := h.stale
    have hmono : as.countP (Answer.staleHits (armedAfter f [a])) ≤ as.countP (Answer.staleHits f) :=
      List.countP_mono_left fun x _ hx => by
        rw [staleHits_armedAfter, Bool.and_eq_true] at hx
        exact hx.1
    rw [List.countP_cons] at hle
    omega

/-- A predicate that holds of at most one element, and of the first, holds of
no later one. -/
theorem eq_false_of_countP_le_one {p : α → Bool} {a x : α} {as : List α}
    (h : (a :: as).countP p ≤ 1) (ha : p a = true) (hx : x ∈ as) : p x = false := by
  by_contra hc
  have hpos : 0 < as.countP p := List.countP_pos_iff.mpr ⟨x, hx, by simpa using hc⟩
  rw [List.countP_cons, if_pos ha] at h
  omega

/-- Behind the one reply a fault fits, being armed makes no difference. -/
theorem AtMostOne.expected_eq {f : Vxi11Faults} {a x : Answer} {as : List Answer}
    (h : AtMostOne f (a :: as)) (hx : x ∈ as) :
    expected f [] x = expected (armedAfter f [a]) [] x := by
  have herr : x.errorHits f =
      (x.errorHits f && !(f.errorOnce.getD true && [a].any (Answer.errorHits f))) := by
    cases honce : f.errorOnce.getD true with
    | false => simp
    | true =>
        cases ha : a.errorHits f with
        | false => simp [ha]
        | true => simp [eq_false_of_countP_le_one (h.error honce) ha hx]
  have hstale : x.staleHits f = (x.staleHits f && !(List.any [a] (Answer.staleHits f))) := by
    cases ha : a.staleHits f with
    | false => simp [ha]
    | true => simp [eq_false_of_countP_le_one h.stale ha hx]
  rw [expected_armedAfter]
  simp only [expected, List.any_nil, Bool.and_false, Bool.not_false, Bool.and_true,
    List.append_nil, ← herr, ← hstale]

/-- **Within a chunk** that holds at most one reply for each one-shot fault, the
faults land as promised. -/
theorem map_delivered_eq {calls : Calls} {f : Vxi11Faults} {rs : List Record}
    (h : AtMostOne f (answers calls rs)) :
    rs.map (delivered calls f) = expectedAll f [] (answers calls rs) := by
  induction rs generalizing f with
  | nil => rfl
  | cons r rs ih =>
      have hrest : rs.map (delivered calls f) =
          rs.map (delivered calls (armedAfter f [(procOf calls r, r)])) := by
        refine List.map_congr_left fun x hx => ?_
        rw [delivered_eq, delivered_eq]
        exact h.expected_eq (List.mem_map_of_mem hx)
      have htail : AtMostOne (armedAfter f [(procOf calls r, r)]) (answers calls rs) := h.tail
      rw [List.map_cons, hrest, ih htail, delivered_eq, expectedAll_armedAfter]
      rfl

/-! ## A run of chunks -/

/-- A chunk on its way through the proxy: to the server, or to the client and
made of whole records, or to the client and not. -/
inductive Chunk where
  | call (buf : List UInt8)
  | reply (rs : List Record)
  | torn (buf : List UInt8) (h : ∀ rs, buf ≠ recordBytes rs)

/-- A server chunk, and what the client receives for it. -/
def Tracker.forward (t : Tracker) (buf : List UInt8) : List UInt8 × Tracker :=
  ((t.rewriteReplies buf).1.getD buf, (t.rewriteReplies buf).2)

/-- One chunk: what the client receives, and the tracker after it. -/
def Tracker.pass (t : Tracker) : Chunk → List UInt8 × Tracker
  | .call buf => ([], t.observeCalls buf)
  | .reply rs => t.forward (recordBytes rs)
  | .torn buf _ => t.forward buf

/-- All the client receives in a run. -/
def Tracker.passAll (t : Tracker) : List Chunk → List UInt8
  | [] => []
  | c :: cs => (t.pass c).1 ++ (t.pass c).2.passAll cs

/-- All the client is to receive in a run under the faults `f`, behind the
replies `earlier`.  Only the map of the tracker is used. -/
def expectedStream (f : Vxi11Faults) : List Answer → Tracker → List Chunk → List UInt8
  | _, _, [] => []
  | earlier, t, .call buf :: cs => expectedStream f earlier (t.observeCalls buf) cs
  | earlier, t, .reply rs :: cs =>
      deliveryBytes (expectedAll f earlier (answers t.calls rs)) ++
        expectedStream f (earlier ++ answers t.calls rs) t cs
  | earlier, t, .torn buf _ :: cs => buf ++ expectedStream f earlier t cs

/-- Every one-shot fault of `f`, installed in the tracker, lands on the first
reply it fits and on no other. -/
def OneShot (t : Tracker) (f : Vxi11Faults) (chunks : List Chunk) : Prop :=
  (t.set f).passAll chunks = expectedStream f [] t chunks

/-- The chunk holds at most one reply for each one-shot fault still armed. -/
def OneTarget (t : Tracker) : Chunk → Prop
  | .reply rs => AtMostOne t.faults (answers t.calls rs)
  | _ => True

/-- Every chunk of a run meets `OneTarget`, in the state it finds. -/
def EveryChunk : Tracker → List Chunk → Prop
  | _, [] => True
  | t, c :: cs => OneTarget t c ∧ EveryChunk (t.pass c).2 cs

/-- **One chunk of replies**: the faults land as promised, and what has fired is
disarmed. -/
theorem forward_records (t : Tracker) (rs : List Record)
    (h : AtMostOne t.faults (answers t.calls rs)) :
    t.forward (recordBytes rs) =
      (deliveryBytes (expectedAll t.faults [] (answers t.calls rs)),
        { t with faults := armedAfter t.faults (answers t.calls rs) }) := by
  rcases rs with _ | ⟨r, rs⟩
  · simp [Tracker.forward, rewriteReplies_of_not_records t (by decide : wholeRecords [] = none),
      answers, expectedAll, deliveryBytes]
  · rw [Tracker.forward, rewriteReplies_records t (List.cons_ne_nil r rs), foldl_disarm,
      ← map_delivered_eq h]
    cases hany : (r :: rs).any (touches t.calls t.faults) with
    | true => rfl
    | false =>
        rw [deliveryBytes_of_not_touches hany]
        rfl

theorem forward_torn (t : Tracker) {buf : List UInt8} (h : ∀ rs, buf ≠ recordBytes rs) :
    t.forward buf = (buf, t) := by
  have hnone : wholeRecords buf = none := by
    rw [Option.eq_none_iff_forall_not_mem]
    intro found hfound
    obtain ⟨rs, -, hbuf, -⟩ := wholeRecords_eq_some_iff.mp hfound
    exact h rs hbuf
  simp [Tracker.forward, rewriteReplies_of_not_records t hnone]

/-- Observing calls and being armed have nothing to do with each other. -/
theorem observeCalls_set (t : Tracker) (f : Vxi11Faults) (buf : List UInt8) :
    (t.set f).observeCalls buf = (t.observeCalls buf).set f := by
  have hone (t : Tracker) (record : List UInt8) :
      (t.set f).observeCall record = (t.observeCall record).set f := by
    simp only [Tracker.observeCall]
    cases parseCall record <;> rfl
  simp only [Tracker.observeCalls]
  cases wholeRecords buf with
  | none => rfl
  | some found =>
      induction found generalizing t with
      | nil => rfl
      | cons s found ih =>
          simp only [List.foldl_cons, hone]
          exact ih (t.observeCall (slice buf s.2.1 s.2.2))

/-- Arming anew what is left behind `xs` is going on behind `xs`, for a whole
run. -/
theorem expectedStream_armedAfter (f : Vxi11Faults) (xs earlier : List Answer) (t : Tracker)
    (chunks : List Chunk) :
    expectedStream (armedAfter f xs) earlier t chunks =
      expectedStream f (xs ++ earlier) t chunks := by
  induction chunks generalizing earlier t with
  | nil => rfl
  | cons c cs ih =>
      cases c with
      | call buf => exact ih earlier _
      | reply rs =>
          rw [expectedStream, expectedStream, expectedAll_armedAfter, ih, List.append_assoc]
      | torn buf h => rw [expectedStream, expectedStream, ih]

/-- **One-shot faults fire at most once**, each on the first reply it fits after
arming, in every run whose chunks hold at most one reply for each one-shot
fault still armed. -/
theorem one_shot_replies (t : Tracker) (f : Vxi11Faults) (chunks : List Chunk)
    (h : EveryChunk (t.set f) chunks) : OneShot t f chunks := by
  unfold OneShot
  induction chunks generalizing t f with
  | nil => rfl
  | cons c cs ih =>
      obtain ⟨hone, hrest⟩ := h
      unfold Tracker.passAll
      cases c with
      | call buf =>
          have hpass : (t.set f).pass (.call buf) = ([], (t.observeCalls buf).set f) := by
            rw [Tracker.pass, observeCalls_set]
          rw [hpass] at hrest ⊢
          exact ih (t.observeCalls buf) f hrest
      | reply rs =>
          have hpass : (t.set f).pass (.reply rs) =
              (deliveryBytes (expectedAll f [] (answers t.calls rs)),
                t.set (armedAfter f (answers t.calls rs))) := forward_records (t.set f) rs hone
          rw [hpass] at hrest ⊢
          rw [ih t _ hrest, expectedStream, expectedStream_armedAfter, List.append_nil,
            List.nil_append]
      | torn buf htorn =>
          have hpass : (t.set f).pass (.torn buf htorn) = (buf, t.set f) :=
            forward_torn (t.set f) htorn
          rw [hpass] at hrest ⊢
          rw [ih t f hrest, expectedStream]

/-- Error 4 on the next device_read. -/
def errorOnRead : Vxi11Faults where
  errorOnProc := some deviceRead
  errorCode := some 4

/-- Two device_read calls, under xids 1 and 2. -/
def twoReads : Chunk := .call (recordBytes [callRecord 1 deviceRead, callRecord 2 deviceRead])

/-- Their replies in two chunks: the first carries the error, the second does
not. -/
theorem one_shot_replies_apart :
    OneShot Tracker.new errorOnRead [twoReads, .reply [replyRecord 1], .reply [replyRecord 2]] :=
  one_shot_replies Tracker.new errorOnRead _ ⟨trivial, ⟨fun _ => by decide, by decide⟩,
    ⟨fun _ => by decide, by decide⟩, trivial⟩

/-- The same two replies in one chunk: both carry it. -/
theorem one_shot_error_twice :
    ¬ OneShot Tracker.new errorOnRead [twoReads, .reply [replyRecord 1, replyRecord 2]] := by
  unfold OneShot
  decide

end TestGear.Vxi11
