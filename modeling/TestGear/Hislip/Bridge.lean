import TestGear.Control.Operations

/-!
# TestGear.Hislip.Bridge

The bridge from a HiSLIP session to an instrument, `hislip/instrument.rs`, over
the virtual bus.  HiSLIP has no read request, so whoever runs a command also
decides whether to read an answer: `query_hint` guesses from the text, and
`execute` writes the command, polls, and drains the instrument with one read of
at most `maxRead` bytes.

`execute_query` says what that one read hands over.
-/

namespace TestGear.Hislip

open Instrument

/-- IEEE-488 status byte bit 6: the device is requesting service. -/
def stbRqs : UInt8 := 0x40

/-- Upper bound on a single bulk read. -/
def maxRead : Nat := 65536

/-- The scan of `query_hint`, inside a string literal or outside. -/
def queryHintFrom (quote : Option UInt8) : List UInt8 → Bool
  | [] => false
  | b :: bs =>
      match quote with
      | some q => queryHintFrom (if b = q then none else some q) bs
      | none =>
          if b = 0x22 ∨ b = 0x27 then queryHintFrom (some b) bs
          else if b = 0x3F then true
          else queryHintFrom none bs

/-- Whether a command looks like a query: a `?` outside string literals. -/
def queryHint (cmd : List UInt8) : Bool := queryHintFrom none cmd

/-- What running one command produced. -/
structure Execution where
  /-- The instrument's reply, or `none` for a command that was not read back. -/
  data : Option (List UInt8)
  /-- Status byte of a service request raised while the command was running. -/
  serviceRequest : Option UInt8
deriving DecidableEq, Repr

/-- `Held::read`: the limit is clamped. -/
def heldRead (vi : VirtualInstrument) (pad : UInt8) (maxLen : Nat) : Outcome (List UInt8 × Bool) :=
  vi.read pad (min maxLen maxRead)

/-- The read of `execute`, and what it makes of a service request.  `notified`
says whether one was broadcast since the subscription. -/
def drain (vi : VirtualInstrument) (pad : UInt8) (notified : Bool) (serviceRequest : Option UInt8) :
    VirtualInstrument × Except Text Execution :=
  let r := heldRead vi pad maxRead
  match r.result with
  | .error e => (r.bus, .error e)
  | .ok (data, eoi) =>
      -- nothing back and no END is not an empty answer
      if data.isEmpty && !eoi then
        (r.bus, .error "instrument returned no data (is the query supported?)".toList)
      else if serviceRequest.isNone && !data.isEmpty && (notified || r.notified) &&
          !r.bus.srqAsserted then
        -- the read took the very output that raised it
        (r.bus, .ok ⟨some data, some (stbRqs ||| stbMav)⟩)
      else
        (r.bus, .ok ⟨some data, serviceRequest⟩)

/-- The poll in front of the read: the status byte, if the device asks for
service. -/
def pollBeforeRead (vi : VirtualInstrument) (pad : UInt8) : VirtualInstrument × Option UInt8 :=
  if vi.srqAsserted then
    let poll := vi.serialPoll pad
    match poll.result with
    | .ok stb => (poll.bus, if stb &&& stbRqs ≠ 0 then some stb else none)
    | .error _ => (poll.bus, none)
  else
    (vi, none)

/-- Run one command, and along the way notice any service request the
instrument raises because of it. -/
def execute (vi : VirtualInstrument) (pad : UInt8) (cmd : List UInt8) (expectResponse : Bool) :
    VirtualInstrument × Except Text Execution :=
  let written := vi.write pad cmd true
  match written.result with
  | .error e => (written.bus, .error e)
  | .ok () =>
      if expectResponse then
        let polled := pollBeforeRead written.bus pad
        drain polled.1 pad written.notified polled.2
      else
        -- the hint says no response: ask the instrument instead
        let poll := written.bus.serialPoll pad
        match poll.result with
        | .error _ => (poll.bus, .ok ⟨none, none⟩)
        | .ok stb =>
            let serviceRequest := if stb &&& stbRqs ≠ 0 then some stb else none
            if stb &&& stbMav = 0 then (poll.bus, .ok ⟨none, serviceRequest⟩)
            else drain poll.bus pad written.notified serviceRequest

/-! ## A query -/

/-- The device at `pad` has this output queue, and reads stop here. -/
def Queues (vi : VirtualInstrument) (pad : UInt8) (eos : UInt8 × Bool) (queue : List UInt8) : Prop :=
  vi.eos = eos ∧ ∃ dev, vi.devices pad = some dev ∧ dev.output = queue

variable {vi : VirtualInstrument} {pad : UInt8} {eos : UInt8 × Bool} {queue : List UInt8}

/-- A poll leaves the queue alone. -/
theorem Queues.serialPoll (h : Queues vi pad eos queue) :
    Queues (vi.serialPoll pad).bus pad eos queue := by
  obtain ⟨heos, dev, hd, hq⟩ := h
  simp only [VirtualInstrument.serialPoll]
  cases vi.faults.forced with
  | some forced => exact ⟨heos, dev, hd, hq⟩
  | none =>
      rw [hd]
      exact ⟨heos, { dev with lastMss := dev.mss }, Function.update_self .., hq⟩

theorem Queues.pollBeforeRead (h : Queues vi pad eos queue) :
    Queues (Hislip.pollBeforeRead vi pad).1 pad eos queue := by
  simp only [Hislip.pollBeforeRead]
  split
  · split
    · exact h.serialPoll
    · exact h.serialPoll
  · exact h

/-- What a message with EOI leaves queued. -/
theorem queues_write {dev : Device} (hf : vi.faults.failNextWrite = false)
    (hd : vi.devices pad = some dev) (cmd : List UInt8) :
    Queues (vi.write pad cmd true).bus pad vi.eos (dev.receive cmd true).output := by
  refine ⟨?_, dev.receive cmd true, ?_, rfl⟩
  · rw [VirtualInstrument.write_complete hf hd rfl, VirtualInstrument.thenUpdateSrq,
      VirtualInstrument.updateSrq_setDevice]
    rfl
  · rw [(VirtualInstrument.write_present hf hd cmd true).2.1]
    exact Function.update_self ..

/-- What came of one read: the data, or, if there was none, the error. -/
inductive Drained (data : List UInt8) (eoi : Bool) : Except Text Execution → Prop where
  | data (h : data ≠ [] ∨ eoi = true) (serviceRequest : Option UInt8) :
      Drained data eoi (.ok ⟨some data, serviceRequest⟩)
  | silent (hdata : data = []) (heoi : eoi = false) (e : Text) : Drained data eoi (.error e)

/-- **Draining** is one read. -/
theorem drain_law (h : Queues vi pad eos queue) (notified : Bool) (serviceRequest : Option UInt8) :
    ∃ data left eoi, VirtualInstrument.ReadLaw eos maxRead queue data left eoi ∧
      Drained data eoi (drain vi pad notified serviceRequest).2 ∧
      Queues (drain vi pad notified serviceRequest).1 pad eos left := by
  obtain ⟨rfl, dev, hd, rfl⟩ := h
  obtain ⟨data, eoi, left, mss, hresult, hdev, hlaw⟩ := VirtualInstrument.read_present hd maxRead
  have hqueues : Queues (vi.read pad maxRead).bus pad vi.eos left := by
    refine ⟨?_, _, hdev, rfl⟩
    simp only [VirtualInstrument.read, hd]
    split
    · rfl
    · rw [VirtualInstrument.thenUpdateSrq, VirtualInstrument.updateSrq_setDevice]
      rfl
  have hclamp : heldRead vi pad maxRead = vi.read pad maxRead := by rw [heldRead, Nat.min_self]
  refine ⟨data, left, eoi, hlaw, ?_, ?_⟩
  · simp only [drain, hclamp, hresult]
    by_cases hsilent : data.isEmpty && !eoi
    · rw [if_pos hsilent]
      simp only [Bool.and_eq_true, List.isEmpty_iff, Bool.not_eq_true'] at hsilent
      exact .silent hsilent.1 hsilent.2 _
    · rw [if_neg hsilent]
      have hsome : data ≠ [] ∨ eoi = true := by
        cases data <;> cases eoi <;> simp_all
      split
      · exact .data hsome _
      · exact .data hsome _
  · simp only [drain, hclamp, hresult]
    split
    · exact hqueues
    · split
      · exact hqueues
      · exact hqueues

/-- **A query** is answered with one read of what the message leaves queued. -/
theorem execute_query {dev : Device} (hf : vi.faults.failNextWrite = false)
    (hd : vi.devices pad = some dev) (cmd : List UInt8) :
    ∃ data left eoi, VirtualInstrument.ReadLaw vi.eos maxRead (dev.receive cmd true).output data left eoi ∧
      Drained data eoi (execute vi pad cmd true).2 ∧
      Queues (execute vi pad cmd true).1 pad vi.eos left := by
  have hexecute : execute vi pad cmd true =
      drain (pollBeforeRead (vi.write pad cmd true).bus pad).1 pad (vi.write pad cmd true).notified
        (pollBeforeRead (vi.write pad cmd true).bus pad).2 := by
    simp only [execute, (VirtualInstrument.write_present hf hd cmd true).1, if_true]
  rw [hexecute]
  exact drain_law (queues_write hf hd cmd).pollBeforeRead _ _

end TestGear.Hislip
