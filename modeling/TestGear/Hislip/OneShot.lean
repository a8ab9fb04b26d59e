import TestGear.Hislip.Inject
import TestGear.Hislip.Observe

/-!
# TestGear.Hislip.OneShot

Do the one-shot faults fire once?  `rewrite` decides from a copy of the fault
set taken when the call began, and disarms the shared set only, so within one
chunk a fault hits every header it fits.  Across chunks the shared set rules,
and there a fault that has fired stays disarmed.

What the knobs promise is `faultedStream`: the first DataEND is skewed, the
first Data is skewed, the first message has its prologue broken, and nothing
else is touched.

* `one_shot_faults` — that is what the client receives, in every run whose
  chunks hold at most one header for each fault still armed;
* `one_shot_fires_twice` — two DataENDs in one chunk are both skewed.
-/

namespace TestGear.Hislip

def isDataEnd (h : Header) : Bool := h.messageType == msgDataEnd

def isData (h : Header) : Bool := h.messageType == msgData

/-! ## What the knobs promise -/

/-- A header as it is to be sent behind the headers `earlier`: each fault
lands on the first header it fits, counted from the moment of arming. -/
def faultedHeader (f : HislipFaults) (earlier : List Header) (h : Header) : List UInt8 :=
  h.sent (f.breakPrologue.getD false && earlier.isEmpty)
    (if isDataEnd h && !earlier.any isDataEnd then f.skewDataEndId.getD 0
     else if isData h && !earlier.any isData then f.skewDataId.getD 0
     else 0)

/-- The messages `ms`, sent behind the headers `earlier`. -/
def faultedStream (f : HislipFaults) : List Header → List Message → List UInt8
  | _, [] => []
  | earlier, m :: ms =>
      faultedHeader f earlier m.header ++ m.payload ++ faultedStream f (earlier ++ [m.header]) ms

/-- What is still armed behind the headers `earlier`. -/
def armedAfter (f : HislipFaults) (earlier : List Header) : HislipFaults :=
  { f with
    skewDataEndId := if earlier.any isDataEnd then none else f.skewDataEndId
    skewDataId := if earlier.any isData then none else f.skewDataId
    breakPrologue :=
      if f.breakPrologue.getD false && !earlier.isEmpty then some false else f.breakPrologue }

@[simp] theorem armedAfter_nil (f : HislipFaults) : armedAfter f [] = f := by
  simp [armedAfter]

theorem not_isData_of_isDataEnd {h : Header} (he : isDataEnd h = true) : isData h = false := by
  simp only [isDataEnd, isData, beq_iff_eq, beq_eq_false_iff_ne] at he ⊢
  rw [he]
  decide

/-- Arming anew what is left behind `xs` is going on behind `xs`. -/
theorem faultedHeader_armedAfter (f : HislipFaults) (xs earlier : List Header) (h : Header) :
    faultedHeader (armedAfter f xs) earlier h = faultedHeader f (xs ++ earlier) h := by
  have hbreak : ((armedAfter f xs).breakPrologue.getD false && earlier.isEmpty) =
      (f.breakPrologue.getD false && (xs ++ earlier).isEmpty) := by
    cases hb : f.breakPrologue.getD false <;> cases xs <;> simp [armedAfter, hb]
  unfold faultedHeader
  rw [hbreak]
  congr 1
  simp only [armedAfter, List.any_append]
  cases he : isDataEnd h with
  | true =>
      rw [not_isData_of_isDataEnd he]
      cases xs.any isDataEnd <;> simp
  | false => cases xs.any isData <;> simp

theorem faultedStream_armedAfter (f : HislipFaults) (xs earlier : List Header)
    (ms : List Message) :
    faultedStream (armedAfter f xs) earlier ms = faultedStream f (xs ++ earlier) ms := by
  induction ms generalizing earlier with
  | nil => rfl
  | cons m ms ih =>
      rw [faultedStream, faultedStream, faultedHeader_armedAfter, ih, List.append_assoc xs]

theorem faultedStream_append (f : HislipFaults) (earlier : List Header) (xs ys : List Message) :
    faultedStream f earlier (xs ++ ys) =
      faultedStream f earlier xs ++ faultedStream f (earlier ++ xs.map Message.header) ys := by
  induction xs generalizing earlier with
  | nil => simp [faultedStream]
  | cons m xs ih => simp [faultedStream, ih]

/-- The split knob has no part in how a header is sent. -/
theorem faultedStream_split (f : HislipFaults) (cut : Option Nat) (earlier : List Header)
    (ms : List Message) :
    faultedStream { f with splitDataEndAt := cut } earlier ms = faultedStream f earlier ms := by
  induction ms generalizing earlier with
  | nil => rfl
  | cons m ms ih => rw [faultedStream, faultedStream, ih]; rfl

/-! ## What a call does -/

/-- The first header a call finds is sent as promised. -/
theorem patched_eq (f : HislipFaults) (h : Header) : patched f h = faultedHeader f [] h := by
  have hskew : skewOf f h = (if isDataEnd h then f.skewDataEndId.getD 0
      else if isData h then f.skewDataId.getD 0 else 0) := by
    simp only [skewOf, isDataEnd, isData, beq_iff_eq]
  simp [patched, faultedHeader, hskew]

/-- A knob behind one more header of the kind `p` it fits. -/
theorem disarm_knob (knob : Option α) (p : Header → Bool) (earlier : List Header) (h : Header) :
    (if knob.isSome && p h then none else if earlier.any p then none else knob) =
      if (earlier ++ [h]).any p then none else knob := by
  rw [List.any_append, List.any_cons, List.any_nil, Bool.or_false]
  cases knob <;> cases p h <;> cases earlier.any p <;> rfl

theorem disarm_armedAfter (f : HislipFaults) (earlier : List Header) (h : Header) :
    disarm f (armedAfter f earlier) h = armedAfter f (earlier ++ [h]) := by
  have hend := disarm_knob f.skewDataEndId isDataEnd earlier h
  have hdata := disarm_knob f.skewDataId isData earlier h
  have hbreak : (if f.breakPrologue.getD false then some false
      else if f.breakPrologue.getD false && !earlier.isEmpty then some false
      else f.breakPrologue) =
      if f.breakPrologue.getD false && !(earlier ++ [h]).isEmpty then some false
      else f.breakPrologue := by
    cases f.breakPrologue.getD false <;> simp
  simp only [disarm, armedAfter, HislipFaults.mk.injEq, and_true]
  exact ⟨hend, hdata, hbreak⟩

/-- A call leaves armed what no header of its chunk has disarmed. -/
theorem disarmed_eq (f : HislipFaults) (ps : List Piece) :
    disarmed f ps = armedAfter f (ps.map Piece.header) := by
  have hfold (hs earlier : List Header) :
      hs.foldl (disarm f) (armedAfter f earlier) = armedAfter f (earlier ++ hs) := by
    induction hs generalizing earlier with
    | nil => simp
    | cons h hs ih => rw [List.foldl_cons, disarm_armedAfter, ih, List.append_assoc]; rfl
  simpa [disarmed] using hfold (ps.map Piece.header) []

/-- A chain, sent behind the headers `earlier`. -/
def faultedPieces (f : HislipFaults) : List Header → List Piece → List UInt8
  | _, [] => []
  | earlier, p :: ps =>
      faultedHeader f earlier p.header ++ p.body ++ faultedPieces f (earlier ++ [p.header]) ps

theorem faultedPieces_armedAfter (f : HislipFaults) (xs earlier : List Header) (ps : List Piece) :
    faultedPieces (armedAfter f xs) earlier ps = faultedPieces f (xs ++ earlier) ps := by
  induction ps generalizing earlier with
  | nil => rfl
  | cons p ps ih =>
      rw [faultedPieces, faultedPieces, faultedHeader_armedAfter, ih, List.append_assoc xs]

theorem Arrived.faultedStream_eq (h : Arrived ms ps carry) (f : HislipFaults)
    (earlier : List Header) : faultedStream f earlier ms = faultedPieces f earlier ps ++ carry := by
  induction h generalizing earlier with
  | nil => rfl
  | last m p carry hh hb => simp [faultedStream, faultedPieces, hh, hb]
  | cons m h ih => simp [faultedStream, faultedPieces, ih, Message.piece]

/-- For each fault that is armed, at most one of these headers fits it. -/
structure AtMostOne (f : HislipFaults) (hs : List Header) : Prop where
  dataEnd : f.skewDataEndId.isSome → hs.countP isDataEnd ≤ 1
  data : f.skewDataId.isSome → hs.countP isData ≤ 1
  prologue : f.breakPrologue.getD false = true → hs.length ≤ 1

theorem AtMostOne.tail {f : HislipFaults} {h : Header} {hs : List Header}
    (hone : AtMostOne f (h :: hs)) : AtMostOne (armedAfter f [h]) hs := by
  refine ⟨fun ha => ?_, fun ha => ?_, fun ha => ?_⟩
  · have hle := hone.dataEnd (by cases he : isDataEnd h <;> simp_all [armedAfter])
    rw [List.countP_cons] at hle
    omega
  · have hle := hone.data (by cases hd : isData h <;> simp_all [armedAfter])
    rw [List.countP_cons] at hle
    omega
  · cases hb : f.breakPrologue.getD false <;> simp [armedAfter, hb] at ha

/-- Behind the one header a fault fits, being armed makes no difference. -/
theorem AtMostOne.patched_eq {f : HislipFaults} {h : Header} {hs : List Header}
    (hone : AtMostOne f (h :: hs)) {x : Header} (hx : x ∈ hs) :
    patched f x = patched (armedAfter f [h]) x := by
  have hbreak : f.breakPrologue.getD false = false := by
    by_contra hb
    have hlen := hone.prologue (by simpa using hb)
    have hnil : hs = [] := List.eq_nil_of_length_eq_zero (by simpa using hlen)
    simp [hnil] at hx
  have hend (he : isDataEnd x = true) : isDataEnd h = false ∨ f.skewDataEndId = none := by
    by_contra hc
    simp only [not_or, Bool.not_eq_false, ← Option.isSome_iff_ne_none, ← ne_eq] at hc
    have hle := hone.dataEnd hc.2
    have hpos : 0 < hs.countP isDataEnd := List.countP_pos_iff.mpr ⟨x, hx, he⟩
    rw [List.countP_cons, if_pos hc.1] at hle
    omega
  have hdata (hd : isData x = true) : isData h = false ∨ f.skewDataId = none := by
    by_contra hc
    simp only [not_or, Bool.not_eq_false, ← Option.isSome_iff_ne_none, ← ne_eq] at hc
    have hle := hone.data hc.2
    have hpos : 0 < hs.countP isData := List.countP_pos_iff.mpr ⟨x, hx, hd⟩
    rw [List.countP_cons, if_pos hc.1] at hle
    omega
  rw [Hislip.patched_eq, Hislip.patched_eq, faultedHeader_armedAfter]
  simp only [faultedHeader, hbreak, Bool.false_and, List.append_nil, List.any_nil, List.any_cons,
    Bool.or_false, Bool.not_false, Bool.and_true]
  congr 1
  cases he : isDataEnd x with
  | true =>
      rcases hend he with hh | hh <;> simp [hh, not_isData_of_isDataEnd he]
  | false =>
      cases hd : isData x with
      | true => rcases hdata hd with hh | hh <;> simp [hh]
      | false => simp

/-- **Within a chunk** that holds at most one header for each armed fault, the
faults land as promised. -/
theorem patchedBytes_eq {f : HislipFaults} {ps : List Piece}
    (h : AtMostOne f (ps.map Piece.header)) : patchedBytes f ps = faultedPieces f [] ps := by
  induction ps generalizing f with
  | nil => rfl
  | cons p ps ih =>
      have hrest : patchedBytes f ps = patchedBytes (armedAfter f [p.header]) ps := by
        refine List.flatMap_congr fun q hq => ?_
        rw [h.patched_eq (List.mem_map_of_mem hq)]
      rw [patchedBytes_cons, hrest, ih h.tail, faultedPieces_armedAfter, patched_eq]
      rfl

/-! ## What the tracker records of it -/

/-- A piece with its Message Parameter skewed. -/
def Piece.skewed (f : HislipFaults) (p : Piece) : Piece :=
  { p with header := { p.header with messageParameter := p.header.messageParameter + skewOf f p.header } }

theorem patchedBytes_of_unbroken {f : HislipFaults} (h : f.breakPrologue.getD false = false)
    (ps : List Piece) : patchedBytes f ps = pieceBytes (ps.map (Piece.skewed f)) := by
  induction ps with
  | nil => rfl
  | cons p ps ih =>
      rw [patchedBytes_cons, List.map_cons, pieceBytes_cons, ih, patched, h]
      rfl

theorem chain_skewed {ps : List Piece} (h : Chain ps) (f : HislipFaults) :
    Chain (ps.map (Piece.skewed f)) := by
  induction ps with
  | nil => trivial
  | cons p ps ih => exact ⟨fun hne => h.1 (by simpa using hne), ih h.2⟩

theorem owed_skewed (ps : List Piece) (f : HislipFaults) :
    owed (ps.map (Piece.skewed f)) = owed ps := by
  induction ps with
  | nil => rfl
  | cons p ps ih => rw [List.map_cons, owed, owed, ih]; rfl

theorem length_patchedBytes (f : HislipFaults) (ps : List Piece) :
    (patchedBytes f ps).length = (pieceBytes ps).length := by
  induction ps with
  | nil => rfl
  | cons p ps ih =>
      rw [patchedBytes_cons, pieceBytes_cons, List.length_append, List.length_append,
        List.length_append, ih, patched, Header.length_sent, Piece.length_bytes]

/-- A chunk whose first prologue is broken shows `scan` nothing at all. -/
theorem scan_broken (h : Header) (skew : UInt32) (body : List UInt8) :
    scan (h.sent true skew ++ body) = some ([], 0) := by
  have hx : hasPrologue (h.sent true skew ++ body) 0 = false := by rfl
  refine scanFrom_of_not_stands (fun hs => ?_) _
  rw [hs.2] at hx
  cases hx

/-- Observing a rewritten chunk leaves the count at what the chunk owes, if
only a message that is all there has its prologue broken. -/
theorem observe_patched {t : Tracker} {f : HislipFaults} {carry : List UInt8} {ps : List Piece}
    (hp : t.pending.server = carry.length) (hc : Chain ps)
    (hlen : (pieceBytes ps).length < 2 ^ 63)
    (hbreak : f.breakPrologue.getD false = true → ps.length ≤ 1 ∧ owed ps = 0) :
    ∃ t', t.observe (carry ++ patchedBytes f ps) .server = some t' ∧ t'.faults = t.faults ∧
      t'.pending.server = owed ps := by
  cases hb : f.breakPrologue.getD false with
  | false =>
      have hlen' : (pieceBytes (ps.map (Piece.skewed f))).length < 2 ^ 63 := by
        rw [← patchedBytes_of_unbroken hb, length_patchedBytes]
        exact hlen
      rw [patchedBytes_of_unbroken hb]
      exact ⟨_, observe_chain hp (chain_skewed hc f) hlen', rfl, owed_skewed ps f⟩
  | true =>
      obtain ⟨hone, howed⟩ := hbreak hb
      match ps, hone with
      | [], _ => exact ⟨_, @observe_chain t .server carry [] hp trivial (by simp), rfl, rfl⟩
      | [p], _ =>
          have hscan : scan (patchedBytes f [p]) = some ([], 0) := by
            rw [patchedBytes_cons, patched, hb, List.append_assoc]
            exact scan_broken p.header (skewOf f p.header) _
          have htake : takePending (t.pending.get .server) (carry ++ patchedBytes f [p]).length =
              (carry.length, 0) := by
            simp [takePending, Pending.get, hp]
          simp only [Tracker.observe, htake, drop_append_of_length rfl, hscan, Option.map_some]
          exact ⟨_, rfl, rfl, howed.symm⟩

/-! ## One chunk through the proxy -/

/-- A server chunk on its way to the client: rewritten, and recorded as the
client receives it. -/
def Tracker.deliver (t : Tracker) (chunk : List UInt8) : Option (List UInt8 × Tracker) :=
  (t.rewrite chunk).bind fun (rewritten, t) =>
    (t.observe (rewritten.getD chunk) .server).map fun t => (rewritten.getD chunk, t)

/-- The bytes the client receives for a run of server chunks. -/
def Tracker.deliverAll (t : Tracker) : List (List UInt8) → Option (List UInt8 × Tracker)
  | [] => some ([], t)
  | c :: cs =>
      (t.deliver c).bind fun (sent, t) =>
        (t.deliverAll cs).map fun (out, t) => (sent ++ out, t)

/-- A chunk with its split made, if the split is armed and finds a message to
act on. -/
def Tracker.afterSplit (t : Tracker) (chunk : List UInt8) : Option (List UInt8) :=
  match t.faults.splitDataEndAt with
  | none => some chunk
  | some cut =>
      (splitFirstDataEnd chunk (min t.pending.server chunk.length) cut).map (·.getD chunk)

/-- The chunk, split if need be, holds at most one header for each fault still
armed; and a message whose prologue is to be broken is all in the chunk. -/
def OneEligible (t : Tracker) (chunk : List UInt8) : Prop :=
  ∀ sent hs leftover, t.afterSplit chunk = some sent →
    scan (sent.drop (min t.pending.server chunk.length)) = some (hs, leftover) →
    AtMostOne t.faults hs ∧ (t.faults.breakPrologue.getD false = true → leftover = 0)

/-- Every chunk of a run meets `ok`, in the state it finds. -/
def EveryChunk (ok : Tracker → List UInt8 → Prop) : Tracker → List (List UInt8) → Prop
  | _, [] => True
  | t, c :: cs => ok t c ∧ ∀ sent t', t.deliver c = some (sent, t') → EveryChunk ok t' cs

/-- The messages as they are sent: at most one of them split, as the split
knob says. -/
def SplitOf (f : HislipFaults) (ms ms' : List Message) : Prop :=
  ms' = ms ∨ ∃ cut, f.splitDataEndAt = some cut ∧ cut ≠ 0 ∧ SplitOne cut ms ms'

theorem splitStep_arrived {f : HislipFaults} (h : Arrived begun ps carry) :
    ∃ begun', Arrived begun' (splitStep f ps).1 carry ∧
      ((begun' = begun ∧ (splitStep f ps).2 = f) ∨
        ((∃ cut, f.splitDataEndAt = some cut ∧ cut ≠ 0 ∧ SplitOne cut begun begun') ∧
          (splitStep f ps).2 = { f with splitDataEndAt := none })) := by
  cases hsplit : f.splitDataEndAt.bind fun cut => if cut = 0 then none else splitPieces cut ps with
  | none =>
      simp only [splitStep, hsplit]
      exact ⟨begun, h, .inl ⟨rfl, trivial⟩⟩
  | some qs =>
      simp only [splitStep, hsplit]
      obtain ⟨cut, hs, hcut⟩ := Option.bind_eq_some_iff.mp hsplit
      have hne : cut ≠ 0 := by
        intro h0
        simp [h0] at hcut
      rw [if_neg hne] at hcut
      obtain ⟨begun', hone, harr⟩ := splitPieces_arrived h hcut
      exact ⟨begun', harr, .inr ⟨⟨cut, hs, hne, hone⟩, trivial⟩⟩

theorem afterSplit_chain {t : Tracker} {ps : List Piece} {carry : List UInt8}
    (hp : t.pending.server = carry.length) (hc : Chain ps)
    (hlen : (carry ++ pieceBytes ps).length < 2 ^ 63) :
    t.afterSplit (carry ++ pieceBytes ps) = some (carry ++ pieceBytes (splitStep t.faults ps).1) := by
  have hstart : min t.pending.server (carry ++ pieceBytes ps).length = carry.length := by simp [hp]
  rw [Tracker.afterSplit, hstart]
  cases hs : t.faults.splitDataEndAt with
  | none => simp [splitStep, hs]
  | some cut =>
      simp only [splitFirstDataEnd_chain cut hc hlen, Option.map_some, splitStep, hs,
        Option.bind_some]
      cases (if cut = 0 then none else splitPieces cut ps) <;> rfl

/-- **One chunk**: the faults land as promised, and the state left behind is
that of a tracker armed with what has not fired. -/
theorem deliver_chunk {t : Tracker} {carry : List UInt8} (hp : t.pending.server = carry.length)
    (harr : Arrived begun ps carry') (hlen : (carry ++ pieceBytes ps).length < 2 ^ 62)
    (hone : OneEligible t (carry ++ pieceBytes ps)) :
    ∃ begun' sent t', t.deliver (carry ++ pieceBytes ps) = some (sent, t') ∧
      sent ++ carry' = carry ++ faultedStream t.faults [] begun' ∧
      t'.pending.server = carry'.length ∧
      ((begun' = begun ∧ t'.faults = armedAfter t.faults (begun'.map Message.header)) ∨
        ((∃ cut, t.faults.splitDataEndAt = some cut ∧ cut ≠ 0 ∧ SplitOne cut begun begun') ∧
          t'.faults =
            armedAfter { t.faults with splitDataEndAt := none } (begun'.map Message.header))) := by
  obtain ⟨begun', harr', hcase⟩ := @splitStep_arrived _ _ _ t.faults harr
  have hlen63 : (carry ++ pieceBytes ps).length < 2 ^ 63 := by omega
  have hsplit := afterSplit_chain hp harr.chain hlen63
  have hrw := @rewriteFaults_chain t.faults ps carry harr.chain
  generalize (splitStep t.faults ps).1 = qs at *
  generalize (splitStep t.faults ps).2 = g at *
  have hlen' : (carry ++ pieceBytes qs).length < 2 ^ 63 := by
    have hsum := congrArg List.length harr.append_carry
    have hsum' := congrArg List.length harr'.append_carry
    have hwire : (wire begun').length ≤ (wire begun).length + headerLen := by
      rcases hcase with ⟨rfl, -⟩ | ⟨⟨cut, -, -, hsplit⟩, -⟩
      · omega
      · rw [hsplit.length_wire]
    simp only [List.length_append, headerLen] at *
    omega
  have hqs : (pieceBytes qs).length < 2 ^ 63 := by
    rw [List.length_append] at hlen'; omega
  have hstart : min t.pending.server (carry ++ pieceBytes ps).length = carry.length := by simp [hp]
  obtain ⟨hone', hbreak⟩ := hone _ (qs.map Piece.header) (owed qs) hsplit
    (by rw [hstart, drop_append_of_length rfl, scan_chain harr'.chain hqs])
  -- the split knob has no part in what follows
  have hg : g = { t.faults with splitDataEndAt := g.splitDataEndAt } := by
    rcases hcase with ⟨-, rfl⟩ | ⟨-, rfl⟩ <;> rfl
  have hpatch : patchedBytes g qs = patchedBytes t.faults qs := by rw [hg]; rfl
  obtain ⟨r, hr, hout⟩ := hrw hlen63
  obtain ⟨t', hobs, hfaults, hp'⟩ := @observe_patched { t with faults := disarmed g qs } t.faults
    carry qs hp harr'.chain hqs fun hb => ⟨by simpa using hone'.prologue hb, hbreak hb⟩
  refine ⟨begun', carry ++ patchedBytes t.faults qs, t', ?_, ?_, ?_, ?_⟩
  · rw [Tracker.deliver, Tracker.rewrite, hp, hr]
    simp only [Option.map_some, Option.bind_some, hout, hpatch, hobs]
  · rw [harr'.faultedStream_eq, ← patchedBytes_eq hone', List.append_assoc]
  · rw [hp', harr'.owed_eq]
  · rw [hfaults, disarmed_eq, harr'.map_header]
    rcases hcase with ⟨hb, rfl⟩ | ⟨hs, rfl⟩
    · exact .inl ⟨hb, rfl⟩
    · exact .inr ⟨hs, rfl⟩

/-! ## A run of chunks -/

/-- Whatever of the stream `carry ++ wire ms` the chunks hold (`rest` is still
to come), the client receives it with each one-shot fault on the first header
it fits and on no other. -/
def OneShot (t : Tracker) (carry : List UInt8) (ms : List Message) (chunks : List (List UInt8))
    (rest : List UInt8) : Prop :=
  ∃ begun later, ms = begun ++ later ∧
    begun.map Message.header = headersBefore ms (chunks.flatten.length - carry.length) ∧
    ∃ begun' out t', SplitOf t.faults begun begun' ∧ t.deliverAll chunks = some (out, t') ∧
      out ++ rest = carry ++ faultedStream t.faults [] begun' ++ wire later

theorem SplitOne.append_right (h : SplitOne cut ms ms') (later : List Message) :
    SplitOne cut (ms ++ later) (ms' ++ later) := by
  induction h with
  | here m ms ht hcut => exact .here m (ms ++ later) ht hcut
  | there m h ih => exact .there m ih

theorem SplitOne.append_left (h : SplitOne cut ms ms') (begun : List Message) :
    SplitOne cut (begun ++ ms) (begun ++ ms') := by
  induction begun with
  | nil => exact h
  | cons m begun ih => exact .there m ih

/-- **A run**, from any state in which the pending count is right. -/
theorem oneShot_of_everyChunk {t : Tracker} {carry rest : List UInt8} {ms : List Message}
    {chunks : List (List UInt8)} (hp : t.pending.server = carry.length)
    (hcuts : Cuts carry ms chunks rest) (hlen : ∀ c ∈ chunks, c.length < 2 ^ 62)
    (hone : EveryChunk OneEligible t chunks) : OneShot t carry ms chunks rest := by
  induction chunks generalizing t carry ms with
  | nil =>
      refine ⟨[], ms, rfl, by simp, [], [], t, .inl rfl, rfl, ?_⟩
      simpa [faultedStream] using hcuts.bytes
  | cons c cs ih =>
      obtain ⟨begun, later, ps, carry', rfl, harr, rfl, hcuts'⟩ := hcuts.uncons
      obtain ⟨begun₁, sent, t₁, hdel, hsent, hp₁, hcase⟩ :=
        deliver_chunk hp harr (hlen _ List.mem_cons_self) hone.1
      obtain ⟨begun₂, later₂, rfl, hbefore, begun₂', out, t', hsplit, hall, hout⟩ :=
        ih hp₁ hcuts' (fun c hc => hlen c (List.mem_cons_of_mem _ hc)) (hone.2 sent t₁ hdel)
      have hstream : faultedStream t₁.faults [] begun₂' =
          faultedStream t.faults (begun₁.map Message.header) begun₂' := by
        rcases hcase with ⟨-, hf⟩ | ⟨-, hf⟩
        · rw [hf, faultedStream_armedAfter, List.append_nil]
        · rw [hf, faultedStream_armedAfter, List.append_nil, faultedStream_split]
      refine ⟨begun ++ begun₂, later₂, by simp, ?_, begun₁ ++ begun₂', sent ++ out, t', ?_, ?_, ?_⟩
      · have hoff : (((carry ++ pieceBytes ps) :: cs).flatten).length - carry.length =
            (pieceBytes ps).length + cs.flatten.length := by
          simp only [List.flatten_cons, List.length_append]
          omega
        rw [hoff, headersBefore_arrived harr, List.map_append, hbefore]
      · -- at most one of the two parts of the stream is split
        rcases hcase with ⟨rfl, hf⟩ | ⟨⟨cut, hs, hne, hone'⟩, hf⟩
        · rcases hsplit with rfl | ⟨cut, hs, hne, hone'⟩
          · exact .inl rfl
          · rw [hf] at hs
            exact .inr ⟨cut, hs, hne, hone'.append_left _⟩
        · rcases hsplit with rfl | ⟨cut', hs', -, -⟩
          · exact .inr ⟨cut, hs, hne, hone'.append_right _⟩
          · rw [hf] at hs'
            cases hs'
      · simp only [Tracker.deliverAll, hdel, Option.bind_some, hall, Option.map_some]
      · rw [List.append_assoc, hout, hstream, faultedStream_append, List.nil_append,
          ← List.append_assoc, ← List.append_assoc, hsent]
        simp only [List.append_assoc]

/-- **One-shot faults fire at most once**, each on the first header it fits
after arming, in every run whose chunks hold at most one header for each fault
still armed. -/
theorem one_shot_faults (t : Tracker) (f : HislipFaults) (carry : List UInt8) (ms : List Message)
    (chunks : List (List UInt8)) (rest : List UInt8) (hp : t.pending.server = carry.length)
    (hcuts : Cuts carry ms chunks rest) (hlen : ∀ c ∈ chunks, c.length < 2 ^ 62)
    (hone : EveryChunk OneEligible (t.set f) chunks) :
    OneShot (t.set f) carry ms chunks rest :=
  oneShot_of_everyChunk hp hcuts hlen hone

/-- A reply of three bytes, to be split behind the first. -/
def reply : Message := ⟨msgDataEnd, 0, 0xFFFFFF00, [1, 2, 3], Message.short_three⟩

/-- Both skews and the split. -/
def skewsAndSplit : HislipFaults where
  skewDataEndId := some 5
  skewDataId := some 7
  splitDataEndAt := some 1

/-- One DataEND to act on: the Data it is split into is skewed by one knob, the
DataEND by the other. -/
theorem one_shot_faults_split :
    OneShot (Tracker.new.set skewsAndSplit) [] [reply] [reply.bytes] [] := by
  refine one_shot_faults Tracker.new _ [] [reply] [reply.bytes] [] rfl
    ⟨by decide, by decide, fun _ _ _ => Nat.zero_le _, by decide⟩ (by decide)
    ⟨fun sent hs leftover hsent hscan => ?_, fun _ _ _ => trivial⟩
  have hafter : (Tracker.new.set skewsAndSplit).afterSplit reply.bytes =
      some (message msgData 0 0xFFFFFF00 [1] ++ message msgDataEnd 0 0xFFFFFF00 [2, 3]) := by decide
  rw [hafter, Option.some.injEq] at hsent
  subst hsent
  have hfound : scan (message msgData 0 0xFFFFFF00 [1] ++ message msgDataEnd 0 0xFFFFFF00 [2, 3]) =
      some ([⟨msgData, 0, 0xFFFFFF00, 1⟩, ⟨msgDataEnd, 0, 0xFFFFFF00, 2⟩], 0) := by decide
  obtain ⟨rfl, rfl⟩ := Prod.mk.inj (Option.some.inj (hfound.symm.trans hscan))
  exact ⟨⟨by decide, by decide, by decide⟩, by decide⟩

/-- Two empty DataENDs that arrive in one chunk. -/
def twoEnds : List Message :=
  [⟨msgDataEnd, 0, 0xFFFFFF00, [], Message.short_nil⟩, ⟨msgDataEnd, 0, 0xFFFFFF02, [], Message.short_nil⟩]

/-- Both are skewed: the copy the call decides from stays armed. -/
theorem one_shot_fires_twice :
    Cuts [] twoEnds [wire twoEnds] [] ∧
      ¬ OneShot (Tracker.new.set { skewDataEndId := some 1 }) [] twoEnds [wire twoEnds] [] := by
  refine ⟨⟨by decide, by decide, fun _ _ _ => Nat.zero_le _, by decide⟩, ?_⟩
  rintro ⟨begun, later, hms, hbefore, begun', out, t', hsplit, hrun, hout⟩
  have hlater : later = [] := by
    have hcount := congrArg List.length hbefore
    have htwo := congrArg List.length hms
    have hheads : (headersBefore twoEnds
        ([wire twoEnds].flatten.length - ([] : List UInt8).length)).length = 2 := by decide
    rw [hheads, List.length_map] at hcount
    rw [List.length_append, hcount] at htwo
    exact List.eq_nil_of_length_eq_zero (by simpa [twoEnds] using htwo.symm)
  rw [hlater, List.append_nil] at hms
  obtain rfl : begun' = twoEnds := by
    rcases hsplit with h | ⟨cut, hs, -, -⟩
    · rw [h, hms]
    · cases hs
  have hsent : ((Tracker.new.set { skewDataEndId := some 1 }).deliverAll [wire twoEnds]).map
      Prod.fst = some (message msgDataEnd 0 0xFFFFFF01 [] ++ message msgDataEnd 0 0xFFFFFF03 []) := by
    decide
  rw [hrun, Option.map_some, Option.some.injEq] at hsent
  subst hsent
  rw [hlater] at hout
  exact absurd hout (by decide)

end TestGear.Hislip
