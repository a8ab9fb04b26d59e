import TestGear.Dict

/-!
# TestGear.Frontend.Sessions

The session registry of the HiSLIP server.  A session is entered under the
first free even id; it has one synchronous channel, whose end removes the entry
in a task of its own, and at most one asynchronous channel, which goes on with
the entry it was bound to for as long as it likes.

* `freeId_eq_find?` — the loop over the ids;
* `WellFormed` — what every operation keeps: one id, one session.
-/

namespace TestGear.Frontend

/-! ## Session ids -/

/-- The loop over the even ids from `id` on, which ends where they wrap; every
round moves on, so `rounds` is never the reason to stop. -/
def freeIdFrom (taken : UInt16 → Bool) : (rounds : ℕ) → UInt16 → Option UInt16
  | 0, _ => none
  | rounds + 1, id =>
      if taken id then
        if id + 2 = 0 then none else freeIdFrom taken rounds (id + 2)
      else some id

def freeId (taken : UInt16 → Bool) : Option UInt16 := freeIdFrom taken 32768 0

/-- The `k`-th id. -/
def evenId (k : ℕ) : UInt16 := UInt16.ofNat (2 * k)

theorem toNat_evenId {k : ℕ} (h : k < 32768) : (evenId k).toNat = 2 * k :=
  UInt16.toNat_ofNat_of_lt' (by show 2 * k < 65536; omega)

theorem evenId_add_two (k : ℕ) : evenId k + 2 = evenId (k + 1) := by
  rw [evenId, evenId, Nat.mul_add, UInt16.ofNat_add]
  rfl

theorem evenId_add_two_eq_zero_iff {k : ℕ} (h : k < 32768) : evenId k + 2 = 0 ↔ k = 32767 := by
  rw [evenId_add_two, ← UInt16.toNat_inj, evenId, UInt16.toNat_ofNat', UInt16.toNat_zero]
  omega

theorem freeIdFrom_evenId (taken : UInt16 → Bool) {n k : ℕ} (h : k + n = 32768) :
    freeIdFrom taken n (evenId k) = ((List.range' k n).map evenId).find? fun id => !taken id := by
  induction n generalizing k with
  | zero => rfl
  | succ n ih =>
      rw [freeIdFrom, List.range'_succ, List.map_cons, List.find?_cons]
      cases htaken : taken (evenId k) with
      | false => rfl
      | true =>
          simp only [Bool.not_true, if_true]
          by_cases hlast : k = 32767
          · rw [if_pos ((evenId_add_two_eq_zero_iff (by omega)).mpr hlast), show n = 0 by omega]
            rfl
          · rw [if_neg (mt (evenId_add_two_eq_zero_iff (by omega)).mp hlast), evenId_add_two,
              ih (by omega)]

/-- The loop finds the first even id that is not taken. -/
theorem freeId_eq_find? (taken : UInt16 → Bool) :
    freeId taken = ((List.range 32768).map evenId).find? fun id => !taken id := by
  rw [List.range_eq_range']
  exact @freeIdFrom_evenId taken 32768 0 rfl

theorem not_taken_of_freeId {taken : UInt16 → Bool} {id : UInt16} (h : freeId taken = some id) :
    taken id = false := by
  rw [freeId_eq_find?] at h
  simpa using List.find?_some h

theorem nodup_evenIds : ((List.range 32768).map evenId).Nodup := by
  refine List.Nodup.map_on (fun j hj k hk heq => ?_) List.nodup_range
  rw [List.mem_range] at hj hk
  have := congrArg UInt16.toNat heq
  rw [toNat_evenId hj, toNat_evenId hk] at this
  omega

/-! ## The registry -/

/-- A session, as its channels hold on to it.  Its `opener` is the connection
that opened it, which tells it from any other session of the same id. -/
structure SessionEntry where
  id : UInt16
  opener : ℕ
  resource : String
deriving DecidableEq, Repr

structure Sessions where
  registry : Dict UInt16 SessionEntry := ∅
  /-- The connections that run a synchronous channel, and for which session. -/
  syncs : Dict ℕ UInt16 := ∅
  /-- The connections that have found the session they ask for. -/
  found : Dict ℕ SessionEntry := ∅
  /-- The connections that run an asynchronous channel. -/
  asyncs : Dict ℕ SessionEntry := ∅
  /-- The sessions that have had one, by their openers. -/
  asyncBound : List ℕ := []
  /-- The sessions whose channel has ended but whose entry is still there. -/
  forgetting : List UInt16 := []
  /-- The number of the next connection. -/
  nextConn : ℕ := 0

/-- What a client's Initialize comes to. -/
inductive OpenResult where
  | tooMany
  | outOfIds
  | opened (conn : ℕ) (id : UInt16)
deriving DecidableEq, Repr

namespace Sessions

variable (s : Sessions) (maxSessions : ℕ)

/-- `init_sync`, for a device with this resource key.  If the response does not
reach the client, the entry stays and nobody will remove it. -/
def openSession (resource : String) (answered : Bool) : Sessions × OpenResult :=
  if maxSessions ≤ s.registry.items.length then
    (s, .tooMany)
  else
    match freeId fun id => (s.registry.get? id).isSome with
    | none => (s, .outOfIds)
    | some id =>
        ({ s with
            registry := s.registry.set id ⟨id, s.nextConn, resource⟩
            syncs := if answered then s.syncs.set s.nextConn id else s.syncs
            nextConn := s.nextConn + 1 }, .opened s.nextConn id)

/-- `init_async` looks the session up, and answers none it does not know. -/
def findSession (id : UInt16) : Sessions × Option ℕ :=
  match s.registry.get? id with
  | none => (s, none)
  | some entry =>
      ({ s with found := s.found.set s.nextConn entry, nextConn := s.nextConn + 1 },
        some s.nextConn)

/-- It binds the session it has found, or answers that it is bound.  The entry
need not be in the registry any more. -/
def bindAsync (conn : ℕ) : Sessions × Bool :=
  match s.found.get? conn with
  | none => (s, false)
  | some entry =>
      if entry.opener ∈ s.asyncBound then
        ({ s with found := s.found.erase conn }, false)
      else
        ({ s with
            found := s.found.erase conn
            asyncs := s.asyncs.set conn entry
            asyncBound := entry.opener :: s.asyncBound }, true)

/-- An asynchronous channel ends; its session stays bound. -/
def closeAsync (conn : ℕ) : Sessions := { s with asyncs := s.asyncs.erase conn }

/-- A synchronous channel ends, and its guard is dropped: the entry is left to a
task.  The answer is the session whose locks go. -/
def closeSync (conn : ℕ) : Sessions × Option UInt16 :=
  match s.syncs.get? conn with
  | none => (s, none)
  | some id => ({ s with syncs := s.syncs.erase conn, forgetting := id :: s.forgetting }, some id)

/-- The task of a dropped guard. -/
def forget (id : UInt16) : Sessions :=
  if id ∈ s.forgetting then
    { s with registry := s.registry.erase id, forgetting := s.forgetting.erase id }
  else s

/-- What a channel may hold on to: the session the registry has of this opener,
or one that is gone. -/
def Known (entry : SessionEntry) : Prop :=
  entry.opener < s.nextConn ∧ ∀ id entry', s.registry.get? id = some entry' →
    entry'.opener = entry.opener → entry' = entry

/-- An id names one session: that of its synchronous channel, or one that is
about to be forgotten. -/
structure WellFormed : Prop where
  bound : s.registry.items.length ≤ maxSessions
  entry_id : ∀ id entry, s.registry.get? id = some entry → entry.id = id
  entry_of_sync : ∀ conn id, s.syncs.get? conn = some id →
    id ∉ s.forgetting ∧ ∃ entry, s.registry.get? id = some entry ∧ entry.opener = conn
  forgetting_nodup : s.forgetting.Nodup
  entry_of_forgetting : ∀ id ∈ s.forgetting, s.registry.get? id ≠ none
  opener_inj : ∀ id id' entry entry', s.registry.get? id = some entry →
    s.registry.get? id' = some entry' → entry.opener = entry'.opener → id = id'
  opener_lt : ∀ id entry, s.registry.get? id = some entry → entry.opener < s.nextConn
  known_found : ∀ conn entry, s.found.get? conn = some entry → s.Known entry
  known_async : ∀ conn entry, s.asyncs.get? conn = some entry → s.Known entry
  bound_of_async : ∀ conn entry, s.asyncs.get? conn = some entry → entry.opener ∈ s.asyncBound
  async_inj : ∀ conn conn' entry entry', s.asyncs.get? conn = some entry →
    s.asyncs.get? conn' = some entry' → entry.opener = entry'.opener → conn = conn'

/-- What is known stays so while no other session is entered. -/
theorem Known.mono {s t : Sessions} {entry : SessionEntry} (h : s.Known entry) (hlt : s.nextConn ≤ t.nextConn)
    (hsub : ∀ id entry', t.registry.get? id = some entry' →
      s.registry.get? id = some entry' ∨ entry'.opener = s.nextConn) : t.Known entry := by
  refine ⟨Nat.lt_of_lt_of_le h.1 hlt, fun id entry' hget hopener => ?_⟩
  cases hsub id entry' hget with
  | inl hold => exact h.2 id entry' hold hopener
  | inr hnew => exact absurd (hopener.symm.trans hnew) (Nat.ne_of_lt h.1)

namespace WellFormed

variable {s : Sessions} {maxSessions : ℕ}

theorem known_of_registry (h : s.WellFormed maxSessions) {id : UInt16} {entry : SessionEntry}
    (hentry : s.registry.get? id = some entry) : s.Known entry := by
  refine ⟨h.opener_lt id entry hentry, fun id' entry' hget hopener => ?_⟩
  rw [h.opener_inj id' id entry' entry hget hentry hopener, hentry, Option.some.injEq] at hget
  exact hget.symm

theorem openSession (h : s.WellFormed maxSessions) (resource : String) (answered : Bool) :
    (s.openSession maxSessions resource answered).1.WellFormed maxSessions := by
  rw [Sessions.openSession]
  split
  · exact h
  next hroom =>
    split
    · exact h
    next id hfree =>
      have hnone : s.registry.get? id = none := by simpa using not_taken_of_freeId hfree
      have hkey : id ∉ s.registry.keys := Dict.get?_eq_none_iff.mp hnone
      have hget (id' : UInt16) (entry : SessionEntry)
          (hentry : (s.registry.set id ⟨id, s.nextConn, resource⟩).get? id' = some entry) :
          s.registry.get? id' = some entry ∨ id' = id ∧ entry = ⟨id, s.nextConn, resource⟩ := by
        rw [Dict.get?_set] at hentry
        grind
      have hknown {entry : SessionEntry} (hknown : s.Known entry) :=
        @Sessions.Known.mono s
          { s with registry := s.registry.set id ⟨id, s.nextConn, resource⟩, nextConn := s.nextConn + 1 }
          entry hknown (Nat.le_succ _) fun id' entry' hentry => by
            rcases hget id' entry' hentry with hold | ⟨-, rfl⟩
            · exact .inl hold
            · exact .inr rfl
      constructor
      · show (s.registry.set id _).items.length ≤ maxSessions
        rw [Dict.length_items_set_of_notMem hkey]
        omega
      · intro id' entry hentry
        cases hget id' entry hentry with
        | inl hold => exact h.entry_id id' entry hold
        | inr hnew => rw [hnew.1, hnew.2]
      · intro conn id' hsync
        -- a channel that was there is of another session
        have hold (hc : s.syncs.get? conn = some id') : id' ∉ s.forgetting ∧ ∃ entry,
            (s.registry.set id ⟨id, s.nextConn, resource⟩).get? id' = some entry ∧
              entry.opener = conn := by
          obtain ⟨hnot, entry, hentry, hopener⟩ := h.entry_of_sync conn id' hc
          have hne : id' ≠ id := by
            rintro rfl
            rw [hnone] at hentry
            cases hentry
          exact ⟨hnot, entry, by rw [Dict.get?_set, if_neg hne, hentry], hopener⟩
        cases answered with
        | false => exact hold hsync
        | true =>
            simp only [if_true, Dict.get?_set] at hsync
            split at hsync
            · next hconn =>
                cases hsync
                exact ⟨fun hmem => h.entry_of_forgetting id hmem hnone, _,
                  by rw [Dict.get?_set, if_pos rfl], hconn.symm⟩
            · exact hold hsync
      · exact h.forgetting_nodup
      · intro id' hmem
        have hold := h.entry_of_forgetting id' hmem
        simp only [Dict.get?_set]
        grind
      · intro id₁ id₂ entry₁ entry₂ h₁ h₂ hopener
        have hlt := h.opener_lt
        have hinj := h.opener_inj
        grind
      · intro id' entry hentry
        have hlt := h.opener_lt id' entry
        grind
      · exact fun conn entry hfound => hknown (h.known_found conn entry hfound)
      · exact fun conn entry hasync => hknown (h.known_async conn entry hasync)
      · exact h.bound_of_async
      · exact h.async_inj

theorem findSession (h : s.WellFormed maxSessions) (id : UInt16) :
    (s.findSession id).1.WellFormed maxSessions := by
  rw [Sessions.findSession]
  split
  · exact h
  next entry hentry =>
    have hknown {entry : SessionEntry} (hknown : s.Known entry) :=
      @Sessions.Known.mono s { s with nextConn := s.nextConn + 1 } entry hknown (Nat.le_succ _)
        fun _ _ hget => .inl hget
    refine { h with opener_lt := ?_, known_found := ?_, known_async := ?_ }
    · exact fun id' entry' hget => Nat.lt_succ_of_lt (h.opener_lt id' entry' hget)
    · intro conn entry' hfound
      rw [Dict.get?_set] at hfound
      split at hfound
      · cases hfound
        exact hknown (h.known_of_registry hentry)
      · exact hknown (h.known_found conn entry' hfound)
    · exact fun conn entry' hasync => hknown (h.known_async conn entry' hasync)

theorem bindAsync (h : s.WellFormed maxSessions) (conn : ℕ) :
    (s.bindAsync conn).1.WellFormed maxSessions := by
  have hfound (conn' : ℕ) (entry : SessionEntry) (hget : (s.found.erase conn).get? conn' = some entry) :
      s.Known entry := by
    rw [Dict.get?_erase] at hget
    split at hget
    · cases hget
    · exact h.known_found conn' entry hget
  rw [Sessions.bindAsync]
  split
  · exact h
  next entry hentry =>
    split
    · exact { h with known_found := hfound }
    next hbound =>
      have hget (conn' : ℕ) (entry' : SessionEntry)
          (hasync : (s.asyncs.set conn entry).get? conn' = some entry') :
          conn' = conn ∧ entry' = entry ∨ s.asyncs.get? conn' = some entry' := by
        rw [Dict.get?_set] at hasync
        grind
      refine { h with known_found := hfound, known_async := ?_, bound_of_async := ?_, async_inj := ?_ }
      · intro conn' entry' hasync
        cases hget conn' entry' hasync with
        | inl hnew => exact hnew.2 ▸ h.known_found conn entry hentry
        | inr hold => exact h.known_async conn' entry' hold
      · intro conn' entry' hasync
        have hold := h.bound_of_async conn' entry'
        grind
      · intro conn₁ conn₂ entry₁ entry₂ h₁ h₂ hopener
        have hold₁ := h.bound_of_async conn₁ entry₁
        have hold₂ := h.bound_of_async conn₂ entry₂
        have hinj := h.async_inj conn₁ conn₂ entry₁ entry₂
        grind

theorem closeAsync (h : s.WellFormed maxSessions) (conn : ℕ) :
    (s.closeAsync conn).WellFormed maxSessions := by
  have hget (conn' : ℕ) (entry : SessionEntry) (hasync : (s.asyncs.erase conn).get? conn' = some entry) :
      s.asyncs.get? conn' = some entry := by
    rw [Dict.get?_erase] at hasync
    grind
  exact { h with
    known_async := fun conn' entry hasync => h.known_async conn' entry (hget conn' entry hasync)
    bound_of_async := fun conn' entry hasync => h.bound_of_async conn' entry (hget conn' entry hasync)
    async_inj := fun conn₁ conn₂ entry₁ entry₂ h₁ h₂ =>
      h.async_inj conn₁ conn₂ entry₁ entry₂ (hget conn₁ entry₁ h₁) (hget conn₂ entry₂ h₂) }

theorem closeSync (h : s.WellFormed maxSessions) (conn : ℕ) :
    (s.closeSync conn).1.WellFormed maxSessions := by
  rw [Sessions.closeSync]
  split
  · exact h
  next id hsync =>
    obtain ⟨hnot, entry, hentry, hopener⟩ := h.entry_of_sync conn id hsync
    refine { h with entry_of_sync := ?_, forgetting_nodup := ?_, entry_of_forgetting := ?_ }
    · intro conn' id' hget
      rw [Dict.get?_erase] at hget
      have hold := h.entry_of_sync conn' id'
      grind
    · exact List.nodup_cons.mpr ⟨hnot, h.forgetting_nodup⟩
    · intro id' hmem
      have hold := h.entry_of_forgetting id'
      grind

theorem forget (h : s.WellFormed maxSessions) (id : UInt16) :
    (s.forget id).WellFormed maxSessions := by
  rw [Sessions.forget]
  split
  · next hmem =>
    have hnodup := h.forgetting_nodup
    have hget (id' : UInt16) (entry : SessionEntry)
        (hentry : (s.registry.erase id).get? id' = some entry) :
        s.registry.get? id' = some entry := by
      rw [Dict.get?_erase] at hentry
      grind
    have hknown {entry : SessionEntry} (hknown : s.Known entry) :=
      @Sessions.Known.mono s { s with registry := s.registry.erase id } entry hknown le_rfl
        fun id' entry' hentry => .inl (hget id' entry' hentry)
    refine { h with bound := ?_, entry_id := ?_, entry_of_sync := ?_, forgetting_nodup := ?_,
                    entry_of_forgetting := ?_, opener_inj := ?_, opener_lt := ?_,
                    known_found := ?_, known_async := ?_ }
    · exact (Dict.length_items_erase_le _ _).trans h.bound
    · exact fun id' entry hentry => h.entry_id id' entry (hget id' entry hentry)
    · intro conn id' hsync
      obtain ⟨hnot, entry, hentry, hopener⟩ := h.entry_of_sync conn id' hsync
      refine ⟨fun hin => hnot (List.mem_of_mem_erase hin), entry, ?_, hopener⟩
      have hne : id' ≠ id := by
        rintro rfl
        exact hnot hmem
      rw [Dict.get?_erase, if_neg hne, hentry]
    · exact hnodup.erase id
    · intro id' hin
      rw [Dict.get?_erase, if_neg (hnodup.mem_erase_iff.mp hin).1]
      exact h.entry_of_forgetting id' (List.mem_of_mem_erase hin)
    · exact fun id₁ id₂ entry₁ entry₂ h₁ h₂ =>
        h.opener_inj id₁ id₂ entry₁ entry₂ (hget id₁ entry₁ h₁) (hget id₂ entry₂ h₂)
    · exact fun id' entry hentry => h.opener_lt id' entry (hget id' entry hentry)
    · exact fun conn entry hfound => hknown (h.known_found conn entry hfound)
    · exact fun conn entry hasync => hknown (h.known_async conn entry hasync)
  · exact h

/-- Two synchronous channels are never of one session id. -/
theorem sync_inj (h : s.WellFormed maxSessions) {conn conn' : ℕ} {id : UInt16}
    (hc : s.syncs.get? conn = some id) (hc' : s.syncs.get? conn' = some id) : conn = conn' := by
  obtain ⟨-, entry, hentry, rfl⟩ := h.entry_of_sync conn id hc
  obtain ⟨-, entry', hentry', rfl⟩ := h.entry_of_sync conn' id hc'
  rw [hentry, Option.some.injEq] at hentry'
  rw [hentry']

end WellFormed

/-- The ids never run out while there is room for a session. -/
theorem exists_freeId {s : Sessions} {maxSessions : ℕ} (hmax : maxSessions ≤ 32768)
    (hroom : s.registry.items.length < maxSessions) :
    ∃ id, freeId (fun id => (s.registry.get? id).isSome) = some id := by
  rw [← Option.ne_none_iff_exists', freeId_eq_find?, ne_eq, List.find?_eq_none]
  intro hall
  have hsub : (List.range 32768).map evenId ⊆ s.registry.keys := by
    intro id hid
    have := hall id hid
    rw [← not_not (a := id ∈ s.registry.keys), ← Dict.get?_eq_none_iff]
    intro hnone
    simp [hnone] at this
  have hle := (nodup_evenIds.subperm hsub).length_le
  rw [List.length_map, List.length_range, Dict.keys, List.length_map] at hle
  omega

end Sessions

end TestGear.Frontend
