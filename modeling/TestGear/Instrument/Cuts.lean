import TestGear.Instrument.Bus

/-!
# TestGear.Instrument.Cuts

Does a program message depend on how it is cut into writes?  A write that
holds a newline completes the message, and with it everything received so
far — also the bytes of the same write behind the newline.  So the cut
decides where one message ends and the next begins, and a unit that a cut
falls into becomes two.

* `cuts_agree_iff` — all cuts of a byte string agree exactly if no cut behind
  a newline has something to execute on either side of it within one unit;
* `cuts_disagree` — two commands on two lines, sent at once or line by line.
-/

namespace TestGear.Instrument

/-! ## Units across a cut -/

/-- What a byte string executes as one message. -/
def unitsOf (bytes : List UInt8) : List Text := units ((fromUtf8Lossy bytes).splitOnP (· = ';'))

/-- Does the text end in a unit that is not blank? -/
def tailOpen (t : Text) : Bool := !blank ((t.splitOnP (· = ';')).getLastD [])

/-- Does the text begin with a unit that is not blank? -/
def headOpen (t : Text) : Bool := !blank ((t.splitOnP (· = ';')).headD [])

theorem tailOpen_of_split {t last : Text} {init : List Text}
    (h : t.splitOnP (· = ';') = init ++ [last]) : tailOpen t = !blank last := by
  simp [tailOpen, h]

theorem headOpen_of_split {t head : Text} {tail : List Text}
    (h : t.splitOnP (· = ';') = head :: tail) : headOpen t = !blank head := by
  simp [headOpen, h]

/-- A cut that does not fall into a unit. -/
theorem units_append_of_closed {t u : Text} (h : ¬ (tailOpen t = true ∧ headOpen u = true)) :
    units ((t ++ u).splitOnP (· = ';')) =
      units (t.splitOnP (· = ';')) ++ units (u.splitOnP (· = ';')) := by
  obtain ⟨init, last, head, tail, ht, hu, htu⟩ := splitOnP_append (· = ';') t u
  rw [tailOpen_of_split ht, headOpen_of_split hu, Bool.not_eq_true', Bool.not_eq_true',
    not_and_or, Bool.not_eq_false, Bool.not_eq_false] at h
  rw [htu, ht, hu, units_append, units_append, units_cons (last ++ head), units_cons head]
  rcases h with hb | hb
  · rw [units_blank_left hb, units_singleton last, if_pos hb]
    simp
  · rw [units_blank_right hb, units_singleton head, if_pos hb]
    simp

/-- A cut that falls into a unit makes one more of it, whatever stands for the
unit as a whole. -/
theorem length_units_lt {t u w last head x : Text} {init tail : List Text}
    (ht : t.splitOnP (· = ';') = init ++ [last]) (hu : u.splitOnP (· = ';') = head :: tail)
    (hw : w.splitOnP (· = ';') = init ++ x :: tail) (hto : tailOpen t = true)
    (huo : headOpen u = true) :
    (units (w.splitOnP (· = ';'))).length <
      (units (t.splitOnP (· = ';'))).length + (units (u.splitOnP (· = ';'))).length := by
  rw [tailOpen_of_split ht, Bool.not_eq_true'] at hto
  rw [headOpen_of_split hu, Bool.not_eq_true'] at huo
  have hx : (units [x]).length ≤ 1 := by
    rw [units_singleton]
    split <;> simp
  rw [ht, hu, hw, units_append, units_append, units_cons x, units_cons head, units_singleton last,
    units_singleton head]
  simp only [hto, huo, List.length_append, Bool.false_eq_true, if_false, List.length_cons,
    List.length_nil]
  omega

theorem splitOnP_concat {t : Text} {c : Char} (hc : c ≠ ';') :
    ∃ init last, t.splitOnP (· = ';') = init ++ [last] ∧
      (t ++ [c]).splitOnP (· = ';') = init ++ [last ++ [c]] := by
  obtain ⟨init, last, head, tail, ht, hone, hboth⟩ := splitOnP_append (· = ';') t [c]
  have hsingle : [c].splitOnP (· = ';') = [[c]] :=
    List.splitOnP_eq_singleton fun x hx => by simpa [List.mem_singleton.mp hx] using hc
  obtain ⟨rfl, rfl⟩ := List.cons.inj (hsingle.symm.trans hone)
  exact ⟨init, last, ht, hboth⟩

theorem tailOpen_concat {t : Text} {c : Char} (hc : c ≠ ';') (hw : isWhitespace c = false) :
    tailOpen (t ++ [c]) = true := by
  obtain ⟨init, last, -, hsplit⟩ := splitOnP_concat hc
  rw [tailOpen_of_split hsplit]
  simp [blank, hw]

/-- What is open at the end of a part is open at the end of the whole. -/
theorem tailOpen_append {u : Text} (h : tailOpen u = true) (t : Text) : tailOpen (t ++ u) = true := by
  obtain ⟨init, last, head, tail, -, hu, htu⟩ := splitOnP_append (· = ';') t u
  rcases List.eq_nil_or_concat tail with rfl | ⟨mid, final, rfl⟩
  · rw [tailOpen_of_split (by simpa using hu : u.splitOnP (· = ';') = [] ++ [head]),
      Bool.not_eq_true'] at h
    rw [tailOpen_of_split htu]
    simp only [blank, List.all_append] at h ⊢
    simp [h]
  · have hu' : u.splitOnP (· = ';') = (head :: mid) ++ [final] := by simpa using hu
    have htu' : (t ++ u).splitOnP (· = ';') = (init ++ (last ++ head) :: mid) ++ [final] := by
      simpa using htu
    rw [tailOpen_of_split hu'] at h
    rw [tailOpen_of_split htu', h]

theorem replacement_ne : replacement ≠ ';' := by decide

theorem replacement_not_blank : isWhitespace replacement = false := by decide

/-- Bytes that end inside a character end in an open unit. -/
theorem tailOpen_of_within {a : List UInt8} (h : (Decoder.start.run a).1 ≠ .start) :
    tailOpen (fromUtf8Lossy a) = true := by
  obtain ⟨out, c, k, rest, -, ha, -, -⟩ :=
    fromUtf8Lossy_cut h [] (by decide : 0 < ';'.toNat ∧ ';'.toNat < 0x80)
  rw [ha]
  exact tailOpen_concat replacement_ne replacement_not_blank

/-- Bytes that begin inside a character begin with an open unit. -/
theorem headOpen_of_isContinuation {b : UInt8} (h : isContinuation b = true) (bs : List UInt8) :
    headOpen (fromUtf8Lossy (b :: bs)) = true := by
  have hlossy : fromUtf8Lossy (b :: bs) = [replacement] ++ fromUtf8Lossy bs := by
    rw [fromUtf8Lossy, Decoder.decode_cons, Decoder.feed, Decoder.first_of_isContinuation h]
    rfl
  obtain ⟨init, last, head, tail, ht, -, htu⟩ :=
    splitOnP_append (· = ';') [replacement] (fromUtf8Lossy bs)
  have hsingle : [replacement].splitOnP (· = ';') = [] ++ [[replacement]] := by decide
  obtain ⟨rfl, hlast⟩ := List.append_inj' (hsingle.symm.trans ht) rfl
  obtain rfl := List.singleton_inj.mp hlast
  rw [hlossy, headOpen_of_split htu]
  simp [blank, replacement_not_blank]

/-- A cut that does not fall into a unit does not fall into a character. -/
theorem fromUtf8Lossy_append_of_closed {a b x y : List UInt8} (hb : b = x ++ y)
    (h : ¬ (tailOpen (fromUtf8Lossy a) = true ∧ headOpen (fromUtf8Lossy b) = true)) :
    fromUtf8Lossy (a ++ x) = fromUtf8Lossy a ++ fromUtf8Lossy x := by
  by_cases hstart : (Decoder.start.run a).1 = .start
  · exact fromUtf8Lossy_append_of_start hstart x
  · refine fromUtf8Lossy_append_of_not_isContinuation (fun c cs hcs => ?_) a
    by_contra hc
    refine h ⟨tailOpen_of_within hstart, ?_⟩
    rw [hb, hcs, List.cons_append]
    exact headOpen_of_isContinuation (by simpa using hc) (cs ++ y)

/-! ## The condition -/

/-- No cut behind a newline has something to execute on either side of it
within one unit. -/
def Settled (s : List UInt8) : Prop :=
  ∀ a b, s = a ++ b → 0x0A ∈ a →
    ¬ (tailOpen (fromUtf8Lossy a) = true ∧ headOpen (fromUtf8Lossy b) = true)

theorem Settled.unitsOf_append {a b : List UInt8} (h : Settled (a ++ b)) (ha : 0x0A ∈ a) :
    unitsOf (a ++ b) = unitsOf a ++ unitsOf b := by
  have hclosed := h a b rfl ha
  rw [unitsOf, fromUtf8Lossy_append_of_closed (List.append_nil b).symm hclosed,
    units_append_of_closed hclosed]
  rfl

/-- What follows a settled cut is settled. -/
theorem Settled.right {a b : List UInt8} (h : Settled (a ++ b)) (ha : 0x0A ∈ a) : Settled b := by
  rintro x y rfl - ⟨htail, hhead⟩
  have hlossy := fromUtf8Lossy_append_of_closed rfl (h a (x ++ y) rfl ha)
  refine h (a ++ x) y (by simp) (by simp [ha]) ⟨?_, hhead⟩
  rw [hlossy]
  exact tailOpen_append htail _

/-- A cut that is not settled makes more units. -/
theorem length_unitsOf_lt {a b : List UInt8} (ha : tailOpen (fromUtf8Lossy a) = true)
    (hb : headOpen (fromUtf8Lossy b) = true) :
    (unitsOf (a ++ b)).length < (unitsOf a).length + (unitsOf b).length := by
  by_cases hstart : (Decoder.start.run a).1 = .start
  · obtain ⟨init, last, head, tail, hsa, hsb, hsab⟩ :=
      splitOnP_append (· = ';') (fromUtf8Lossy a) (fromUtf8Lossy b)
    rw [← fromUtf8Lossy_append_of_start hstart] at hsab
    exact length_units_lt hsa hsb hsab ha hb
  · obtain ⟨out, c, k, rest, hc, hla, hlb, hlab⟩ :=
      fromUtf8Lossy_cut hstart b (by decide : 0 < ';'.toNat ∧ ';'.toNat < 0x80)
    -- the character read as a whole and its replacement stand in the same part
    obtain ⟨init, last, hout, hwhole⟩ := splitOnP_concat (t := out) hc
    obtain ⟨init', last', hout', hcut⟩ := splitOnP_concat (t := out) replacement_ne
    obtain ⟨rfl, -⟩ := List.append_inj' (hout.symm.trans hout') rfl
    obtain ⟨init₂, last₂, head, tail, hic, hrest, hboth⟩ := splitOnP_append (· = ';') (out ++ [c]) rest
    obtain ⟨rfl, -⟩ := List.append_inj' (hwhole.symm.trans hic) rfl
    obtain ⟨init₃, last₃, head₃, tail₃, hik, hrest₃, hb₃⟩ :=
      splitOnP_append (· = ';') (List.replicate k replacement) rest
    have hk : (List.replicate k replacement).splitOnP (· = ';') =
        [] ++ [List.replicate k replacement] :=
      List.splitOnP_eq_singleton fun x hx => by
        rw [List.eq_of_mem_replicate hx]
        decide
    obtain ⟨rfl, -⟩ := List.append_inj' (hk.symm.trans hik) rfl
    obtain ⟨rfl, rfl⟩ := List.cons.inj (hrest.symm.trans hrest₃)
    have hw : (fromUtf8Lossy (a ++ b)).splitOnP (· = ';') = init ++ (last₂ ++ head) :: tail := by
      rw [hlab, ← hboth]
      simp
    rw [← hla] at hcut
    rw [← hlb] at hb₃
    exact length_units_lt hcut hb₃ hw ha hb

/-! ## The device after some units -/

/-- The device after the units `us`, its MSS noted. -/
def Device.after (dev : Device) (us : List Text) : Device :=
  (us.foldl Device.executeUnit { dev with input := [] }).noteMss

theorem after_after (dev : Device) (us vs : List Text) :
    (dev.after us).after vs = dev.after (us ++ vs) := by
  have hinput : (us.foldl Device.executeUnit { dev with input := [] }).input = [] :=
    foldl_executeUnit_input us rfl
  generalize hd : us.foldl Device.executeUnit { dev with input := [] } = mid at hinput
  have hsame : { mid.noteMss with input := [] } = mid.noteMss := by
    rw [Device.noteMss, Device.note, hinput]
  have hrun : vs.foldl Device.executeUnit mid.noteMss =
      (vs.foldl Device.executeUnit mid).note mid.mss := foldl_executeUnit_note vs mid mid.mss
  rw [Device.after, Device.after, hd, hsame, hrun, Device.after, List.foldl_append, hd]
  rfl

theorem complete_noteMss (dev : Device) (message : List UInt8) :
    (dev.complete message).noteMss = dev.after (unitsOf message) := by
  rw [Device.complete, foldl_execute, units_messageUnits]
  rfl

/-! ## A run of writes -/

/-- `chunks` are the byte string `s`, cut into consecutive non-empty writes. -/
def IsCut (s : List UInt8) (chunks : List (List UInt8)) : Prop :=
  chunks.flatten = s ∧ ∀ c ∈ chunks, c ≠ []

theorem IsCut.eq_nil {chunks : List (List UInt8)} (h : IsCut [] chunks) : chunks = [] := by
  cases chunks with
  | nil => rfl
  | cons c cs =>
      have hc : c = [] := (List.append_eq_nil_iff.mp h.1).1
      exact absurd hc (h.2 c List.mem_cons_self)

theorem IsCut.ne_nil {s : List UInt8} {chunks : List (List UInt8)} (h : IsCut s chunks)
    (hs : s ≠ []) : chunks ≠ [] := by
  rintro rfl
  exact hs h.1.symm

/-- The writes of a cut, with EOI on the last one only. -/
def VirtualInstrument.writeAll (vi : VirtualInstrument) (pad : UInt8) :
    List (List UInt8) → VirtualInstrument
  | [] => vi
  | [c] => (vi.write pad c true).bus
  | c :: c' :: cs => (vi.write pad c false).bus.writeAll pad (c' :: cs)

/-- The same, as the addressed device sees it. -/
def Device.receiveAll (dev : Device) : List (List UInt8) → Device
  | [] => dev
  | [c] => dev.receive c true
  | c :: c' :: cs => (dev.receive c false).receiveAll (c' :: cs)

theorem writeAll_device {vi : VirtualInstrument} {pad : UInt8} {dev : Device}
    (hf : vi.faults.failNextWrite = false) (hd : vi.devices pad = some dev)
    (chunks : List (List UInt8)) :
    (vi.writeAll pad chunks).devices pad = some (dev.receiveAll chunks) := by
  induction chunks generalizing vi dev with
  | nil => exact hd
  | cons c cs ih =>
      have hstep (eoi : Bool) : (vi.write pad c eoi).bus.devices pad = some (dev.receive c eoi) ∧
          (vi.write pad c eoi).bus.faults.failNextWrite = false := by
        obtain ⟨-, hdev, hfaults⟩ := VirtualInstrument.write_present hf hd c eoi
        exact ⟨by rw [hdev, Function.update_self], by rw [hfaults, hf]⟩
      cases cs with
      | nil => exact (hstep true).1
      | cons c' cs => exact ih (hstep false).2 (hstep false).1

/-- **A run of writes** of a settled string does what one write of it does. -/
theorem receiveAll_of_settled {chunks : List (List UInt8)} (hne : chunks ≠ []) {dev : Device}
    (h : Settled (dev.input ++ chunks.flatten)) :
    dev.receiveAll chunks = dev.after (unitsOf (dev.input ++ chunks.flatten)) := by
  induction chunks generalizing dev with
  | nil => exact absurd rfl hne
  | cons c cs ih =>
      cases cs with
      | nil =>
          rw [Device.receiveAll, Device.receive, Bool.true_or, if_pos rfl, complete_noteMss]
          simp
      | cons c' cs =>
          rw [Device.receiveAll]
          rw [List.flatten_cons, ← List.append_assoc] at h ⊢
          by_cases hnl : 0x0A ∈ c
          · -- this write completes a message, and the rest starts afresh
            have hrecv : dev.receive c false = dev.after (unitsOf (dev.input ++ c)) := by
              rw [Device.receive, Bool.false_or, if_pos (by simpa using hnl), complete_noteMss]
            have hmem : 0x0A ∈ dev.input ++ c := List.mem_append_right _ hnl
            have hinput : (dev.after (unitsOf (dev.input ++ c))).input = [] :=
              foldl_executeUnit_input _ rfl
            have hrest := @ih (List.cons_ne_nil c' cs) (dev.after (unitsOf (dev.input ++ c)))
              (by rw [hinput]; exact h.right hmem)
            rw [hrecv, hrest, hinput, List.nil_append, after_after, ← h.unitsOf_append hmem]
          · have hrecv : dev.receive c false = { dev with input := dev.input ++ c } := by
              rw [Device.receive, Bool.false_or, if_neg (by simpa using hnl)]
            rw [hrecv, ih (List.cons_ne_nil c' cs) h]
            rfl

/-! ## All cuts -/

/-- The state of a device that a program message is about. -/
structure SameState (d e : Device) : Prop where
  input : d.input = e.input
  output : d.output = e.output
  errors : d.errors = e.errors
  sre : d.sre = e.sre
  ese : d.ese = e.ese
  esr : d.esr = e.esr
  userStb : d.userStb = e.userStb
  triggers : d.triggers = e.triggers

/-- Any two ways of cutting `s` into writes leave the device in the same state,
from every state with an empty input buffer and no write failure armed. -/
def CutsAgree (s : List UInt8) : Prop :=
  ∀ (vi : VirtualInstrument) (pad : UInt8) (dev : Device), vi.faults.failNextWrite = false →
    vi.devices pad = some dev → dev.input = [] → ∀ cs cs', IsCut s cs → IsCut s cs' →
      ∃ d e, (vi.writeAll pad cs).devices pad = some d ∧
        (vi.writeAll pad cs').devices pad = some e ∧ SameState d e

/-- A device that answers every header of `us` with an empty line. -/
def lineDevice (us : List Text) : Device where
  responses := us.map fun u => (toAsciiUppercase (Device.headAndArg u).1, [])

theorem lookup_map_const {xs : List α} (f : α → Text) {x : α} (h : x ∈ xs) :
    (xs.map fun y => (f y, ([] : Text))).lookup (f x) = some [] := by
  induction xs with
  | nil => simp at h
  | cons y ys ih =>
      rw [List.map_cons, List.lookup_cons]
      cases hxy : f x == f y with
      | true => rfl
      | false =>
          rcases List.mem_cons.mp h with rfl | hmem
          · simp at hxy
          · exact ih hmem

/-- Such a device counts the units it executes. -/
theorem length_output_foldl {us vs : List Text} (h : ∀ v ∈ vs, v ∈ us) {dev : Device}
    (hdev : dev.responses = (lineDevice us).responses) :
    (vs.foldl Device.executeUnit dev).output.length = dev.output.length + vs.length := by
  induction vs generalizing dev with
  | nil => rfl
  | cons v vs ih =>
      have hlook : dev.responses.lookup (toAsciiUppercase (Device.headAndArg v).1) = some [] := by
        rw [hdev]
        exact lookup_map_const (fun u => toAsciiUppercase (Device.headAndArg u).1)
          (h v List.mem_cons_self)
      have hone : dev.executeUnit v = dev.reply [] := by
        simp only [Device.executeUnit, hlook]
      have hrest := @ih (fun u hu => h u (List.mem_cons_of_mem v hu)) (dev.reply []) hdev
      have hline : (dev.reply []).output.length = dev.output.length + 1 := by
        simp [Device.reply, asBytes]
      rw [List.foldl_cons, hone, hrest, hline, List.length_cons]
      omega

theorem length_output_after {us vs : List Text} (h : ∀ v ∈ vs, v ∈ us) :
    ((lineDevice us).after vs).output.length = vs.length := by
  have hlen : (vs.foldl Device.executeUnit { lineDevice us with input := [] }).output.length =
      (lineDevice us).output.length + vs.length := length_output_foldl h rfl
  simpa [Device.after, Device.noteMss, Device.note, lineDevice] using hlen

/-- **Cuts agree** exactly on the strings that no cut behind a newline takes a
unit of apart. -/
theorem cuts_agree_iff (s : List UInt8) : CutsAgree s ↔ Settled s := by
  constructor
  · -- cut where a unit is taken apart, before a device that counts units
    rintro hagree a b rfl ha ⟨htail, hhead⟩
    have hb : b ≠ [] := by
      rintro rfl
      exact absurd hhead (by decide)
    have hne : a ++ b ≠ [] := List.append_ne_nil_of_right_ne_nil _ hb
    have hane : a ≠ [] := List.ne_nil_of_mem ha
    let us := unitsOf a ++ unitsOf b ++ unitsOf (a ++ b)
    let vi : VirtualInstrument := { devices := fun _ => some (lineDevice us) }
    obtain ⟨d, e, hd, he, hsame⟩ := hagree vi 0 (lineDevice us) rfl rfl rfl [a ++ b] [a, b]
      ⟨by simp, by simpa using hne⟩ ⟨by simp, by simp [hane, hb]⟩
    rw [writeAll_device rfl rfl, Option.some.injEq] at hd he
    have hwhole : d = (lineDevice us).after (unitsOf (a ++ b)) := by
      rw [← hd, Device.receiveAll, Device.receive, Bool.true_or, if_pos rfl, complete_noteMss]
      rfl
    have hparts : e = (lineDevice us).after (unitsOf a ++ unitsOf b) := by
      have hfirst : (lineDevice us).receive a false = (lineDevice us).after (unitsOf a) := by
        rw [Device.receive, Bool.false_or, if_pos (by simpa using ha), complete_noteMss]
        rfl
      have hinput : ((lineDevice us).after (unitsOf a)).input = [] := foldl_executeUnit_input _ rfl
      rw [← he, Device.receiveAll, hfirst, Device.receiveAll, Device.receive, Bool.true_or,
        if_pos rfl, complete_noteMss, hinput, List.nil_append, after_after]
    have hcount := congrArg List.length hsame.output
    rw [hwhole, hparts, length_output_after fun v hv => List.mem_append_right _ hv,
      length_output_after fun v hv => List.mem_append_left _ hv, List.length_append] at hcount
    have hlt := length_unitsOf_lt htail hhead
    omega
  · intro hset vi pad dev hf hd hinput cs cs' hcs hcs'
    have hrun (chunks : List (List UInt8)) (hcut : IsCut s chunks) (hne : chunks ≠ []) :
        dev.receiveAll chunks = dev.after (unitsOf s) := by
      have h := @receiveAll_of_settled chunks hne dev
      rw [hinput, hcut.1] at h
      exact h hset
    have heq : dev.receiveAll cs = dev.receiveAll cs' := by
      by_cases hs : s = []
      · subst hs
        rw [hcs.eq_nil, hcs'.eq_nil]
      · rw [hrun cs hcs (hcs.ne_nil hs), hrun cs' hcs' (hcs'.ne_nil hs)]
    refine ⟨_, _, writeAll_device hf hd cs, writeAll_device hf hd cs', ?_⟩
    rw [heq]
    exact ⟨rfl, rfl, rfl, rfl, rfl, rfl, rfl, rfl⟩

/-- Two commands on two lines.  Sent at once they are one command with an
argument; sent line by line the second is answered. -/
theorem cuts_disagree : ¬ CutsAgree (asBytes "*WAI\n*IDN?".toList) := by
  intro h
  obtain ⟨d, e, hd, he, hsame⟩ := h (VirtualInstrument.new [0]) 0 {} rfl rfl rfl
    [asBytes "*WAI\n*IDN?".toList] [asBytes "*WAI\n".toList, asBytes "*IDN?".toList]
    ⟨by decide, by decide⟩ ⟨by decide, by decide⟩
  have hwhole : ((VirtualInstrument.new [0]).writeAll 0
      [asBytes "*WAI\n*IDN?".toList]).devices 0 = some {} := by decide
  have hlines : ((VirtualInstrument.new [0]).writeAll 0 [asBytes "*WAI\n".toList,
      asBytes "*IDN?".toList]).devices 0 = some { output := asBytes defaultIdn ++ [0x0A] } := by
    decide
  rw [hwhole, Option.some.injEq] at hd
  rw [hlines, Option.some.injEq] at he
  subst hd he
  exact absurd hsame.output (by decide)

end TestGear.Instrument
