import TestGear.Hislip.OneShot

/-!
# TestGear.Hislip.Meaning

What a server chunk means before and after `rewrite`.  The chunk is the
payload still owed, a chain of messages, and perhaps the first bytes of
another header.

* `rewrite_keeps_meaning` — a client that reads what is forwarded finds the
  same messages, but for one DataEND that comes in two and Message Parameters
  that were skewed, and the same data in them;
* `rewrite_keeps_meaning_split`, a chunk that is split and skewed at once.
-/

namespace TestGear.Hislip

/-! ## The messages of a chunk -/

/-- The messages a chunk has once it has been rewritten. -/
def meant (f : HislipFaults) (ps : List Piece) : List Piece := (splitStep f ps).1.map (Piece.skewed f)

/-- A Data or DataEND message. -/
def Header.isData (h : Header) : Bool := h.messageType == msgData || h.messageType == msgDataEnd

/-- The data a chunk delivers. -/
def payloads (ps : List Piece) : List UInt8 :=
  ps.flatMap fun p => if p.header.isData then p.body else []

@[simp] theorem payloads_cons (p : Piece) (ps : List Piece) :
    payloads (p :: ps) = (if p.header.isData then p.body else []) ++ payloads ps := rfl

theorem payloads_skewed (f : HislipFaults) (ps : List Piece) :
    payloads (ps.map (Piece.skewed f)) = payloads ps := by
  rw [payloads, List.flatMap_map]
  rfl

/-- The two parts of a DataEND carry what it carried. -/
theorem payloads_splitPieces {cut : Nat} {ps qs : List Piece} (h : splitPieces cut ps = some qs) :
    payloads qs = payloads ps := by
  induction ps generalizing qs with
  | nil => cases h
  | cons p ps ih =>
      unfold splitPieces at h
      split at h
      · obtain ⟨qs', hqs', rfl⟩ := Option.map_eq_some_iff.mp h
        rw [payloads_cons, payloads_cons, ih hqs']
      · next hcond =>
          obtain ⟨htype, -⟩ := not_or.mp hcond
          split at h
          · cases h
          · obtain rfl := Option.some.inj h
            have hend : p.header.isData = true := by simp [Header.isData, not_not.mp htype]
            have hdata : (p.part msgData (p.body.take cut) (by simp)).header.isData = true := rfl
            have hrest : (p.part msgDataEnd (p.body.drop cut) (by simp)).header.isData = true := rfl
            rw [payloads_cons, payloads_cons, payloads_cons, hdata, hrest, hend, if_pos rfl, if_pos rfl,
              if_pos rfl, ← List.append_assoc]
            exact congrArg (· ++ payloads ps) (List.take_append_drop cut p.body)

/-- What a split does not touch: chain, payload owed, data, and all faults but
its own. -/
theorem splitStep_keeps (f : HislipFaults) {ps : List Piece} (hc : Chain ps) :
    Chain (splitStep f ps).1 ∧ owed (splitStep f ps).1 = owed ps ∧
      payloads (splitStep f ps).1 = payloads ps ∧
      (splitStep f ps).2 = { f with splitDataEndAt := (splitStep f ps).2.splitDataEndAt } := by
  cases hsplit : f.splitDataEndAt.bind fun cut => if cut = 0 then none else splitPieces cut ps with
  | none =>
      simp only [splitStep, hsplit]
      exact ⟨hc, trivial, trivial, trivial⟩
  | some qs =>
      simp only [splitStep, hsplit]
      obtain ⟨cut, -, hcut⟩ := Option.bind_eq_some_iff.mp hsplit
      split at hcut
      · cases hcut
      · obtain ⟨hq, howed⟩ := splitPieces_chain hcut hc
        exact ⟨hq, howed, payloads_splitPieces hcut, trivial⟩

/-! ## A rewritten chunk -/

/-- **Rewriting keeps the meaning** of a chunk, unless it is to break a
prologue: what goes on to the client starts with the payload owed and ends
with the trailing bytes, and in between reads as the messages of the chunk with
one DataEND split and the parameters skewed; the data in them are the same. -/
theorem rewrite_keeps_meaning {t : Tracker} {ps : List Piece} {carry tail : List UInt8}
    (hpending : t.pending.server = carry.length)
    (hbreak : t.faults.breakPrologue.getD false = false) (hc : Chain ps) (htail : Trails ps tail)
    (hlen : (carry ++ (pieceBytes ps ++ tail)).length < 2 ^ 63) :
    ∃ r t', t.rewrite (carry ++ (pieceBytes ps ++ tail)) = some (r, t') ∧
      r.getD (carry ++ (pieceBytes ps ++ tail)) =
        carry ++ (pieceBytes (meant t.faults ps) ++ tail) ∧
      headers ((r.getD (carry ++ (pieceBytes ps ++ tail))).drop carry.length) =
        some (offsets 0 (meant t.faults ps)) ∧
      Chain (meant t.faults ps) ∧ Trails (meant t.faults ps) tail ∧
      payloads (meant t.faults ps) = payloads ps := by
  obtain ⟨r, hr, hout⟩ := rewriteFaults_trails (f := t.faults) hc htail hlen
  obtain ⟨hq, howed, hdata, hfaults⟩ := splitStep_keeps t.faults hc
  have hbreak' : (splitStep t.faults ps).2.breakPrologue.getD false = false := by
    rw [hfaults]
    exact hbreak
  have hskew : Piece.skewed (splitStep t.faults ps).2 = Piece.skewed t.faults := by
    rw [hfaults]
    rfl
  rw [patchedBytes_of_unbroken hbreak', hskew] at hout
  have hchain : Chain (meant t.faults ps) := chain_skewed hq t.faults
  have htrails : Trails (meant t.faults ps) tail :=
    ⟨htail.short, fun hne => by rw [meant, owed_skewed, howed]; exact htail.whole hne⟩
  have hrewrite : t.rewrite (carry ++ (pieceBytes ps ++ tail)) =
      some (r, { t with faults := disarmed (splitStep t.faults ps).2 (splitStep t.faults ps).1 }) := by
    rw [Tracker.rewrite, hpending, hr]
    rfl
  refine ⟨r, _, hrewrite, hout, ?_, hchain, htrails, ?_⟩
  · rw [hout, drop_append_of_length rfl]
    exact headers_chain hchain htrails
  · rw [meant, payloads_skewed, hdata]

/-- A reply of three bytes. -/
def threeBytes : Piece :=
  Message.piece ⟨msgDataEnd, 0, 7, [1, 2, 3], Message.short_three⟩

/-- Behind one byte that is owed and before the first byte of another header,
the reply comes in two messages, the first with its Message Parameter skewed. -/
theorem rewrite_keeps_meaning_split :
    let t : Tracker := { faults := { splitDataEndAt := some 2, skewDataId := some 1 },
                         pending := { server := 1 } }
    ∃ r t', t.rewrite ([9] ++ (pieceBytes [threeBytes] ++ [0x48])) = some (r, t') ∧
      r.getD ([9] ++ (pieceBytes [threeBytes] ++ [0x48])) =
        [9] ++ (message msgData 0 8 [1, 2] ++ message msgDataEnd 0 7 [3] ++ [0x48]) := by
  intro t
  have htail : Trails [threeBytes] [0x48] := ⟨by decide, fun _ => by decide⟩
  have hchain : Chain [threeBytes] := ⟨fun hne => absurd rfl hne, trivial⟩
  obtain ⟨r, t', hr, hout, -⟩ := @rewrite_keeps_meaning t [threeBytes] [9] [0x48] rfl rfl hchain
    htail (by decide)
  exact ⟨r, t', hr, hout.trans (by decide +kernel)⟩

end TestGear.Hislip
