import TestGear.Dict

/-!
# TestGear.Frontend.Links

The link table of the VXI-11 server.  The table is one for all core
connections, since the abort channel names links by id; each connection keeps
the ids of the links it created, and they go with it when its client hangs up.
A connection runs one call at a time, and a call may wait for a lock.

* `WellFormed` — what every operation keeps: no link belongs to two connections;
* `Kept` — what operations keep that name only links of their own connection.
-/

namespace TestGear.Frontend

/-! ## Link ids -/

/-- The `k`-th link id: they count up from 1, and wrap. -/
def lidOf (k : ℕ) : Int32 := (UInt32.ofNat (k + 1)).toInt32

/-- Link ids are consecutive. -/
theorem lidOf_add_one (k : ℕ) : lidOf (k + 1) = lidOf k + 1 := by
  rw [lidOf, lidOf, UInt32.ofNat_add (k + 1)]
  rfl

/-- And distinct, until they wrap. -/
theorem lidOf_inj {j k : ℕ} (hj : j < 2 ^ 32) (hk : k < 2 ^ 32) (h : lidOf j = lidOf k) : j = k := by
  have h32 := congrArg (fun lid => lid.toUInt32.toNat) h
  simp only [lidOf, UInt32.toUInt32_toInt32, UInt32.toNat_ofNat'] at h32
  omega

/-! ## The table -/

/-- What a waiting call will have to undo if it gets no lock. -/
inductive Wait where
  /-- create_link with lockDevice: the link. -/
  | create
  /-- device_lock: nothing. -/
  | lock
deriving DecidableEq, Repr

/-- A call that waits for the lock of a link, on the resource it had when the
call began. -/
structure Pending where
  wait : Wait
  lid : Int32
  resource : String
deriving DecidableEq, Repr

/-- A core connection. -/
structure CoreConn where
  /-- The links created on it, destroyed with it. -/
  owned : List Int32 := []
  pending : Option Pending := none
deriving DecidableEq, Repr

structure Links where
  /-- The resource key of every link. -/
  table : Dict Int32 String := ∅
  nextLid : Int32 := 1
  conns : Dict ℕ CoreConn := ∅
  /-- The number of the next connection. -/
  nextConn : ℕ := 0

namespace Links

variable (l : Links) (maxLinks : ℕ)

/-- The table without the links of a list. -/
def eraseAll (table : Dict Int32 String) (lids : List Int32) : Dict Int32 String :=
  lids.foldl Dict.erase table

def accept : Links × ℕ :=
  ({ l with conns := l.conns.set l.nextConn {}, nextConn := l.nextConn + 1 }, l.nextConn)

/-- The connection, if it can take a call. -/
def idle (conn : ℕ) : Option CoreConn := (l.conns.get? conn).filter fun core => core.pending.isNone

/-- `create_link`, up to the lock that it may have to wait for. -/
def createLink (conn : ℕ) (core : CoreConn) (resource : String) (lockDevice : Bool) :
    Links × Option Int32 :=
  if maxLinks ≤ l.table.items.length then
    (l, none)
  else
    let lid := l.nextLid
    ({ l with
        table := l.table.set lid resource
        nextLid := lid + 1
        conns := l.conns.set conn
          { owned := core.owned ++ [lid]
            pending := if lockDevice then some ⟨.create, lid, resource⟩ else none } }, some lid)

/-- `device_lock` has to wait for its lock. -/
def await (conn : ℕ) (core : CoreConn) (lid : Int32) (resource : String) : Links :=
  { l with conns := l.conns.set conn { core with pending := some ⟨.lock, lid, resource⟩ } }

/-- A waiting call has its lock. -/
def granted (conn : ℕ) (core : CoreConn) : Links :=
  { l with conns := l.conns.set conn { core with pending := none } }

/-- A waiting call gets none; a link that was to be locked is unwound. -/
def refused (conn : ℕ) (core : CoreConn) (pending : Pending) : Links :=
  match pending.wait with
  | .lock => { l with conns := l.conns.set conn { core with pending := none } }
  | .create =>
      { l with
        table := l.table.erase pending.lid
        conns := l.conns.set conn { owned := core.owned.filter (· ≠ pending.lid), pending := none } }

/-- `destroy_link`, of a link that is there: any connection can name it. -/
def destroyLink (conn : ℕ) (core : CoreConn) (lid : Int32) : Links :=
  { l with
    table := l.table.erase lid
    conns := l.conns.set conn { core with owned := core.owned.filter (· ≠ lid) } }

/-- The client hangs up: its links go.  The answer is those that were there. -/
def hangup (conn : ℕ) (core : CoreConn) : Links × List Int32 :=
  ({ l with table := eraseAll l.table core.owned, conns := l.conns.erase conn },
    core.owned.filter fun lid => (l.table.get? lid).isSome)

/-- The connection breaks inside a record: the links stay. -/
def breakOff (conn : ℕ) : Links := { l with conns := l.conns.erase conn }

/-- The links that are closed are gone, and no others. -/
theorem get?_eraseAll (table : Dict Int32 String) (lids : List Int32) (lid : Int32) :
    (eraseAll table lids).get? lid = if lid ∈ lids then none else table.get? lid := by
  induction lids generalizing table with
  | nil => simp [eraseAll]
  | cons head lids ih =>
      have hstep : eraseAll table (head :: lids) = eraseAll (table.erase head) lids := rfl
      rw [hstep, ih, Dict.get?_erase]
      grind

/-- Closing makes no more of them. -/
theorem length_eraseAll_le (table : Dict Int32 String) (lids : List Int32) :
    (eraseAll table lids).items.length ≤ table.items.length := by
  induction lids generalizing table with
  | nil => exact le_rfl
  | cons head lids ih => exact (ih _).trans (Dict.length_items_erase_le _ _)

/-- An idle connection is one that waits for nothing. -/
theorem idle_eq_some_iff {l : Links} {conn : ℕ} {core : CoreConn} :
    l.idle conn = some core ↔ l.conns.get? conn = some core ∧ core.pending = none := by
  simp [idle, Option.filter_eq_some_iff]

/-- No link belongs to two connections, and `n` more links can be created before
an id comes again. -/
structure WellFormed (l : Links) (maxLinks n : ℕ) : Prop where
  bound : l.table.items.length ≤ maxLinks
  conn_lt : ∀ conn core, l.conns.get? conn = some core → conn < l.nextConn
  owner_unique : ∀ conn conn' core core' lid, l.conns.get? conn = some core →
    l.conns.get? conn' = some core' → lid ∈ core.owned → lid ∈ core'.owned → conn = conn'
  issued : ∃ k, l.nextLid = lidOf k ∧ k + n < 2 ^ 32 ∧ ∀ lid,
    (l.table.get? lid ≠ none ∨ ∃ conn core, l.conns.get? conn = some core ∧ lid ∈ core.owned) →
      ∃ j < k, lid = lidOf j

/-- The links there are belong to the connections there are, and a waiting call
waits for a link of its own. -/
structure Kept (l : Links) : Prop where
  table_iff : ∀ lid, l.table.get? lid ≠ none ↔
    ∃ conn core, l.conns.get? conn = some core ∧ lid ∈ core.owned
  pending : ∀ conn core p, l.conns.get? conn = some core → core.pending = some p →
    p.lid ∈ core.owned ∧ l.table.get? p.lid = some p.resource

section

variable {l : Links} {maxLinks m n : ℕ} {conn : ℕ} {core core' : CoreConn} {table : Dict Int32 String}

/-- A connection that is found is the changed one or was there. -/
theorem get?_conns_set {conn' : ℕ} {c : CoreConn} (h : (l.conns.set conn core').get? conn' = some c) :
    conn' = conn ∧ c = core' ∨ conn' ≠ conn ∧ l.conns.get? conn' = some c := by
  rw [Dict.get?_set] at h
  grind

/-- A smaller budget of ids is kept to as well. -/
theorem WellFormed.mono (h : l.WellFormed maxLinks n) (hm : m ≤ n) : l.WellFormed maxLinks m := by
  obtain ⟨k, hnext, hk, hissued⟩ := h.issued
  exact { h with issued := ⟨k, hnext, by omega, hissued⟩ }

/-- A connection gives up links, and the table loses some. -/
theorem WellFormed.update (h : l.WellFormed maxLinks n) (hconn : l.conns.get? conn = some core)
    (hsub : core'.owned ⊆ core.owned) (hlen : table.items.length ≤ l.table.items.length)
    (hkeys : ∀ lid, table.get? lid ≠ none → l.table.get? lid ≠ none) :
    Links.WellFormed { l with table, conns := l.conns.set conn core' } maxLinks n := by
  -- whoever owns a link owned it before
  have hold {conn' : ℕ} {c : CoreConn} (hget : (l.conns.set conn core').get? conn' = some c) :
      ∃ c', l.conns.get? conn' = some c' ∧ c.owned ⊆ c'.owned := by
    rcases get?_conns_set hget with ⟨rfl, rfl⟩ | ⟨-, hget⟩
    · exact ⟨core, hconn, hsub⟩
    · exact ⟨c, hget, List.Subset.refl _⟩
  refine ⟨hlen.trans h.bound, ?_, ?_, ?_⟩
  · intro conn' c hget
    obtain ⟨c', hget', -⟩ := hold hget
    exact h.conn_lt conn' c' hget'
  · intro conn₁ conn₂ c₁ c₂ lid h₁ h₂ hm₁ hm₂
    obtain ⟨c₁', h₁', hs₁⟩ := hold h₁
    obtain ⟨c₂', h₂', hs₂⟩ := hold h₂
    exact h.owner_unique conn₁ conn₂ c₁' c₂' lid h₁' h₂' (hs₁ hm₁) (hs₂ hm₂)
  · obtain ⟨k, hnext, hk, hissued⟩ := h.issued
    refine ⟨k, hnext, hk, fun lid hlid => hissued lid ?_⟩
    rcases hlid with htable | ⟨conn', c, hget, hmem⟩
    · exact .inl (hkeys lid htable)
    · obtain ⟨c', hget', hs⟩ := hold hget
      exact .inr ⟨conn', c', hget', hs hmem⟩

/-- A connection goes, and the table loses some links. -/
theorem WellFormed.drop (h : l.WellFormed maxLinks n)
    (hlen : table.items.length ≤ l.table.items.length)
    (hkeys : ∀ lid, table.get? lid ≠ none → l.table.get? lid ≠ none) :
    Links.WellFormed { l with table, conns := l.conns.erase conn } maxLinks n := by
  have hold {conn' : ℕ} {c : CoreConn} (hget : (l.conns.erase conn).get? conn' = some c) :
      l.conns.get? conn' = some c := by
    rw [Dict.get?_erase] at hget
    grind
  refine ⟨hlen.trans h.bound, ?_, ?_, ?_⟩
  · exact fun conn' c hget => h.conn_lt conn' c (hold hget)
  · exact fun conn₁ conn₂ c₁ c₂ lid h₁ h₂ => h.owner_unique conn₁ conn₂ c₁ c₂ lid (hold h₁) (hold h₂)
  · obtain ⟨k, hnext, hk, hissued⟩ := h.issued
    refine ⟨k, hnext, hk, fun lid hlid => hissued lid ?_⟩
    refine hlid.imp (hkeys lid) ?_
    rintro ⟨conn', c, hget, hmem⟩
    exact ⟨conn', c, hold hget, hmem⟩

/-- A new connection owns no link. -/
theorem WellFormed.accept (h : l.WellFormed maxLinks n) : l.accept.1.WellFormed maxLinks n := by
  have hold {conn' : ℕ} {c : CoreConn}
      (hget : (l.conns.set l.nextConn {}).get? conn' = some c) {lid : Int32} (hmem : lid ∈ c.owned) :
      l.conns.get? conn' = some c := by
    rcases get?_conns_set hget with ⟨-, rfl⟩ | ⟨-, hget⟩
    · cases hmem
    · exact hget
  refine ⟨h.bound, ?_, ?_, ?_⟩
  · intro conn' c hget
    rcases get?_conns_set hget with ⟨rfl, -⟩ | ⟨-, hget⟩
    · exact Nat.lt_succ_self _
    · exact Nat.lt_succ_of_lt (h.conn_lt conn' c hget)
  · exact fun conn₁ conn₂ c₁ c₂ lid h₁ h₂ hm₁ hm₂ =>
      h.owner_unique conn₁ conn₂ c₁ c₂ lid (hold h₁ hm₁) (hold h₂ hm₂) hm₁ hm₂
  · obtain ⟨k, hnext, hk, hissued⟩ := h.issued
    refine ⟨k, hnext, hk, fun lid hlid => hissued lid ?_⟩
    refine hlid.imp_right ?_
    rintro ⟨conn', c, hget, hmem⟩
    exact ⟨conn', c, hold hget hmem, hmem⟩

/-- The next link is a new one. -/
theorem WellFormed.nextLid_fresh (h : l.WellFormed maxLinks (n + 1)) :
    l.table.get? l.nextLid = none ∧
      ∀ conn core, l.conns.get? conn = some core → l.nextLid ∉ core.owned := by
  obtain ⟨k, hnext, hk, hissued⟩ := h.issued
  have hnot (lid : Int32) (hlid : l.table.get? lid ≠ none ∨
      ∃ conn core, l.conns.get? conn = some core ∧ lid ∈ core.owned) : lid ≠ l.nextLid := by
    obtain ⟨j, hj, rfl⟩ := hissued lid hlid
    intro heq
    have := lidOf_inj (by omega) (by omega) (heq.trans hnext)
    omega
  refine ⟨?_, fun conn core hget hmem => hnot _ (.inr ⟨conn, core, hget, hmem⟩) rfl⟩
  by_contra hne
  exact hnot _ (.inl hne) rfl

/-- A new link has an id of its own, and one owner. -/
theorem WellFormed.createLink (h : l.WellFormed maxLinks (n + 1))
    (hconn : l.conns.get? conn = some core) (resource : String) (lockDevice : Bool) :
    (l.createLink maxLinks conn core resource lockDevice).1.WellFormed maxLinks n := by
  rw [Links.createLink]
  split
  · exact h.mono (Nat.le_succ n)
  next hroom =>
    obtain ⟨htable, howned⟩ := h.nextLid_fresh
    obtain ⟨k, hnext, hk, hissued⟩ := h.issued
    -- a link of a connection is the new one, or one that it had
    have hold {conn' : ℕ} {c : CoreConn}
        (hget : (l.conns.set conn ⟨core.owned ++ [l.nextLid],
          if lockDevice then some ⟨.create, l.nextLid, resource⟩ else none⟩).get? conn' = some c)
        {lid : Int32} (hmem : lid ∈ c.owned) :
        (conn' = conn ∧ lid = l.nextLid) ∨
          ∃ c', l.conns.get? conn' = some c' ∧ lid ∈ c'.owned := by
      rcases get?_conns_set hget with ⟨rfl, rfl⟩ | ⟨-, hget⟩
      · rw [List.mem_append, List.mem_singleton] at hmem
        exact hmem.symm.imp (fun heq => ⟨rfl, heq⟩) fun hmem => ⟨core, hconn, hmem⟩
      · exact .inr ⟨c, hget, hmem⟩
    refine ⟨?_, ?_, ?_, ?_⟩
    · show (l.table.set l.nextLid resource).items.length ≤ maxLinks
      rw [Dict.length_items_set_of_notMem (Dict.get?_eq_none_iff.mp htable)]
      omega
    · intro conn' c hget
      rcases get?_conns_set hget with ⟨rfl, -⟩ | ⟨-, hget⟩
      · exact h.conn_lt conn' core hconn
      · exact h.conn_lt conn' c hget
    · intro conn₁ conn₂ c₁ c₂ lid h₁ h₂ hm₁ hm₂
      rcases hold h₁ hm₁ with ⟨rfl, rfl⟩ | ⟨c₁', h₁', hm₁'⟩
      · rcases hold h₂ hm₂ with ⟨rfl, -⟩ | ⟨c₂', h₂', hm₂'⟩
        · rfl
        · exact absurd hm₂' (howned conn₂ c₂' h₂')
      · rcases hold h₂ hm₂ with ⟨-, rfl⟩ | ⟨c₂', h₂', hm₂'⟩
        · exact absurd hm₁' (howned conn₁ c₁' h₁')
        · exact h.owner_unique conn₁ conn₂ c₁' c₂' lid h₁' h₂' hm₁' hm₂'
    · refine ⟨k + 1, by rw [lidOf_add_one, ← hnext], by omega, fun lid hlid => ?_⟩
      have hcases : lid = l.nextLid ∨ (l.table.get? lid ≠ none ∨
          ∃ conn core, l.conns.get? conn = some core ∧ lid ∈ core.owned) := by
        rcases hlid with hin | ⟨conn', c, hget, hmem⟩
        · rw [Dict.get?_set] at hin
          grind
        · refine (hold hget hmem).imp And.right ?_
          rintro ⟨c', hget', hmem'⟩
          exact .inr ⟨conn', c', hget', hmem'⟩
      cases hcases with
      | inl heq => exact ⟨k, Nat.lt_succ_self k, heq.trans hnext⟩
      | inr hlid =>
          obtain ⟨j, hj, rfl⟩ := hissued lid hlid
          exact ⟨j, Nat.lt_succ_of_lt hj, rfl⟩

/-- Waiting changes no owner. -/
theorem WellFormed.await (h : l.WellFormed maxLinks n) (hconn : l.conns.get? conn = some core)
    (lid : Int32) (resource : String) : (l.await conn core lid resource).WellFormed maxLinks n :=
  h.update hconn (List.Subset.refl _) le_rfl fun _ => id

/-- Nor does a grant. -/
theorem WellFormed.granted (h : l.WellFormed maxLinks n) (hconn : l.conns.get? conn = some core) :
    (l.granted conn core).WellFormed maxLinks n :=
  h.update hconn (List.Subset.refl _) le_rfl fun _ => id

/-- What is left was there. -/
theorem get?_erase_ne_none {lid lid' : Int32} (h : (l.table.erase lid).get? lid' ≠ none) :
    l.table.get? lid' ≠ none := by
  rw [Dict.get?_erase] at h
  grind

/-- A link that is destroyed is gone from its owner as well. -/
theorem WellFormed.destroyLink (h : l.WellFormed maxLinks n) (hconn : l.conns.get? conn = some core)
    (lid : Int32) : (l.destroyLink conn core lid).WellFormed maxLinks n :=
  h.update hconn (fun _ hmem => List.mem_of_mem_filter hmem) (Dict.length_items_erase_le _ _) fun _ => get?_erase_ne_none

/-- So is one whose create_link is refused. -/
theorem WellFormed.refused (h : l.WellFormed maxLinks n) (hconn : l.conns.get? conn = some core)
    (p : Pending) : (l.refused conn core p).WellFormed maxLinks n := by
  rw [Links.refused]
  cases p.wait with
  | lock => exact h.update hconn (List.Subset.refl _) le_rfl fun _ => id
  | create =>
      exact h.update hconn (fun _ hmem => List.mem_of_mem_filter hmem) (Dict.length_items_erase_le _ _)
        fun _ => get?_erase_ne_none

/-- A connection takes its links with it. -/
theorem WellFormed.hangup (h : l.WellFormed maxLinks n) (conn : ℕ) (core : CoreConn) :
    (l.hangup conn core).1.WellFormed maxLinks n := by
  refine h.drop (length_eraseAll_le _ _) fun lid hlid => ?_
  rw [get?_eraseAll] at hlid
  grind

/-- One that breaks off leaves them in the table, owned by nobody. -/
theorem WellFormed.breakOff (h : l.WellFormed maxLinks n) (conn : ℕ) :
    (l.breakOff conn).WellFormed maxLinks n := h.drop le_rfl fun _ => id

/-! ## Calls that name links of their own -/

/-- A connection changes, and its links with it; those of the others stay. -/
theorem Kept.update (h : l.Kept) {t : Links} (ht : t.conns = l.conns.set conn core')
    (hothers : ∀ conn' c lid, conn' ≠ conn → l.conns.get? conn' = some c → lid ∈ c.owned →
      t.table.get? lid = l.table.get? lid)
    (hown : ∀ lid ∈ core'.owned, t.table.get? lid ≠ none)
    (howned : ∀ lid, t.table.get? lid ≠ none → lid ∉ core'.owned →
      ∃ conn' c, conn' ≠ conn ∧ l.conns.get? conn' = some c ∧ lid ∈ c.owned)
    (hpending : ∀ p, core'.pending = some p →
      p.lid ∈ core'.owned ∧ t.table.get? p.lid = some p.resource) : t.Kept := by
  constructor
  · intro lid
    rw [ht]
    constructor
    · intro hlid
      by_cases hmem : lid ∈ core'.owned
      · exact ⟨conn, core', by rw [Dict.get?_set, if_pos rfl], hmem⟩
      · obtain ⟨conn', c, hne, hget, hmem⟩ := howned lid hlid hmem
        exact ⟨conn', c, by rw [Dict.get?_set, if_neg hne, hget], hmem⟩
    · rintro ⟨conn', c, hget, hmem⟩
      rcases get?_conns_set hget with ⟨rfl, rfl⟩ | ⟨hne, hget⟩
      · exact hown lid hmem
      · rw [hothers conn' c lid hne hget hmem]
        exact (h.table_iff lid).mpr ⟨conn', c, hget, hmem⟩
  · intro conn' c p hget hp
    rw [ht] at hget
    rcases get?_conns_set hget with ⟨rfl, rfl⟩ | ⟨hne, hget⟩
    · exact hpending p hp
    · obtain ⟨hmem, hlid⟩ := h.pending conn' c p hget hp
      exact ⟨hmem, (hothers conn' c p.lid hne hget hmem).trans hlid⟩

/-- Whoever has a link of the table, if it is not one of this connection's. -/
theorem Kept.exists_other (h : l.Kept) (hconn : l.conns.get? conn = some core) (lid : Int32)
    (hlid : l.table.get? lid ≠ none) (hnot : lid ∉ core.owned) :
    ∃ conn' c, conn' ≠ conn ∧ l.conns.get? conn' = some c ∧ lid ∈ c.owned := by
  obtain ⟨conn', c, hget, hmem⟩ := (h.table_iff lid).mp hlid
  refine ⟨conn', c, ?_, hget, hmem⟩
  rintro rfl
  rw [hconn, Option.some.injEq] at hget
  exact hnot (hget ▸ hmem)

/-- Nobody is left without a connection. -/
theorem Kept.accept (h : l.Kept) (hwf : l.WellFormed maxLinks n) : l.accept.1.Kept := by
  refine h.update rfl (fun _ _ _ _ _ _ => rfl) (fun lid hmem => ?_) (fun lid hlid _ => ?_) fun p hp => ?_
  · cases hmem
  · obtain ⟨conn, core, hget, hmem⟩ := (h.table_iff lid).mp hlid
    exact ⟨conn, core, (hwf.conn_lt conn core hget).ne, hget, hmem⟩
  · cases hp

/-- The new link is its connection's. -/
theorem Kept.createLink (h : l.Kept) (hwf : l.WellFormed maxLinks (n + 1))
    (hconn : l.conns.get? conn = some core) (resource : String) (lockDevice : Bool) :
    (l.createLink maxLinks conn core resource lockDevice).1.Kept := by
  rw [Links.createLink]
  split
  · exact h
  · obtain ⟨htable, howned⟩ := hwf.nextLid_fresh
    refine h.update rfl (fun conn' c lid hne hget hmem => ?_) (fun lid hmem => ?_)
      (fun lid hlid hnot => ?_) fun p hp => ?_
    · have hold : lid ≠ l.nextLid := fun heq => howned conn' c hget (heq ▸ hmem)
      rw [Dict.get?_set, if_neg hold]
    · have := (h.table_iff lid).mpr
      rw [Dict.get?_set]
      grind
    · have := h.exists_other hconn lid
      rw [Dict.get?_set] at hlid
      grind
    · cases lockDevice with
      | false => cases hp
      | true =>
          cases hp
          exact ⟨by simp, by rw [Dict.get?_set, if_pos rfl]⟩

/-- A connection begins to wait for one of its links, or waits no more. -/
theorem Kept.wait (h : l.Kept) (hconn : l.conns.get? conn = some core) {pending : Option Pending}
    (hpending : ∀ p, pending = some p → p.lid ∈ core.owned ∧ l.table.get? p.lid = some p.resource) :
    Links.Kept { l with conns := l.conns.set conn { core with pending } } :=
  h.update rfl (fun _ _ _ _ _ _ => rfl)
    (fun lid hmem => (h.table_iff lid).mpr ⟨conn, core, hconn, hmem⟩)
    (fun lid => h.exists_other hconn lid) hpending

/-- A link that is waited with is still there. -/
theorem Kept.await (h : l.Kept) (hconn : l.conns.get? conn = some core) {lid : Int32}
    {resource : String} (hmem : lid ∈ core.owned) (hlid : l.table.get? lid = some resource) :
    (l.await conn core lid resource).Kept := by
  refine h.wait hconn fun p hp => ?_
  cases hp
  exact ⟨hmem, hlid⟩

/-- And when the wait is over. -/
theorem Kept.granted (h : l.Kept) (hconn : l.conns.get? conn = some core) :
    (l.granted conn core).Kept := by
  refine h.wait hconn fun p hp => ?_
  cases hp

/-- A connection gives up a link of its own. -/
theorem Kept.erase (h : l.Kept) (hwf : l.WellFormed maxLinks n) (hconn : l.conns.get? conn = some core)
    {lid : Int32} (hmem : lid ∈ core.owned) :
    Links.Kept
      { l with
        table := l.table.erase lid
        conns := l.conns.set conn { owned := core.owned.filter (· ≠ lid), pending := none } } := by
  refine h.update rfl (fun conn' c lid' hne hget hmem' => ?_) (fun lid' hmem' => ?_)
    (fun lid' hlid' hnot => ?_) fun p hp => ?_
  · have hother : lid' ≠ lid := by
      rintro rfl
      exact hne (hwf.owner_unique conn' conn c core lid' hget hconn hmem' hmem)
    rw [Dict.get?_erase, if_neg hother]
  · simp only [List.mem_filter, decide_eq_true_eq] at hmem'
    rw [Dict.get?_erase, if_neg hmem'.2]
    exact (h.table_iff lid').mpr ⟨conn, core, hconn, hmem'.1⟩
  · have := h.exists_other hconn lid'
    rw [Dict.get?_erase] at hlid'
    grind
  · cases hp

/-- An idle connection can lose a link. -/
theorem Kept.destroyLink (h : l.Kept) (hwf : l.WellFormed maxLinks n)
    (hidle : l.idle conn = some core) {lid : Int32} (hmem : lid ∈ core.owned) :
    (l.destroyLink conn core lid).Kept := by
  obtain ⟨hconn, hpending⟩ := idle_eq_some_iff.mp hidle
  have := h.erase hwf hconn hmem
  rwa [← hpending] at this

/-- A refused create_link loses its own. -/
theorem Kept.refused (h : l.Kept) (hwf : l.WellFormed maxLinks n)
    (hconn : l.conns.get? conn = some core) {p : Pending} (hp : core.pending = some p) :
    (l.refused conn core p).Kept := by
  rw [Links.refused]
  cases p.wait with
  | lock => exact h.granted hconn
  | create => exact h.erase hwf hconn (h.pending conn core p hconn hp).1

/-- A connection without links goes. -/
theorem Kept.breakOff (h : l.Kept) (hconn : l.conns.get? conn = some core) (howned : core.owned = []) :
    (l.breakOff conn).Kept := by
  have hget {conn' : ℕ} {c : CoreConn} (hc : (l.conns.erase conn).get? conn' = some c) :
      l.conns.get? conn' = some c := by
    rw [Dict.get?_erase] at hc
    grind
  constructor
  · intro lid
    constructor
    · intro hlid
      obtain ⟨conn', c, hne, hc, hmem⟩ := h.exists_other hconn lid hlid (by simp [howned])
      exact ⟨conn', c, by rw [Links.breakOff, Dict.get?_erase, if_neg hne, hc], hmem⟩
    · rintro ⟨conn', c, hc, hmem⟩
      exact (h.table_iff lid).mpr ⟨conn', c, hget hc, hmem⟩
  · exact fun conn' c p hc hp => h.pending conn' c p (hget hc) hp

/-- A connection that hangs up leaves no link behind. -/
theorem Kept.hangup (h : l.Kept) (hwf : l.WellFormed maxLinks n)
    (hconn : l.conns.get? conn = some core) : (l.hangup conn core).1.Kept := by
  -- the others keep their connections, and the table what they own
  have hget {conn' : ℕ} {c : CoreConn} (hc : (l.conns.erase conn).get? conn' = some c) :
      conn' ≠ conn ∧ l.conns.get? conn' = some c := by
    rw [Dict.get?_erase] at hc
    grind
  have htable {conn' : ℕ} {c : CoreConn} {lid : Int32} (hne : conn' ≠ conn)
      (hc : l.conns.get? conn' = some c) (hmem : lid ∈ c.owned) :
      (eraseAll l.table core.owned).get? lid = l.table.get? lid := by
    rw [get?_eraseAll, if_neg]
    exact fun hmem' => hne (hwf.owner_unique conn' conn c core lid hc hconn hmem hmem')
  constructor
  · intro lid
    show (eraseAll l.table core.owned).get? lid ≠ none ↔
      ∃ conn' c, (l.conns.erase conn).get? conn' = some c ∧ lid ∈ c.owned
    constructor
    · intro hlid
      rw [get?_eraseAll] at hlid
      obtain ⟨conn', c, hne, hc, hmem⟩ := h.exists_other hconn lid (by grind) (by grind)
      exact ⟨conn', c, by rw [Dict.get?_erase, if_neg hne, hc], hmem⟩
    · rintro ⟨conn', c, hc, hmem⟩
      obtain ⟨hne, hc⟩ := hget hc
      rw [htable hne hc hmem]
      exact (h.table_iff lid).mpr ⟨conn', c, hc, hmem⟩
  · intro conn' c p hc hp
    obtain ⟨hne, hc⟩ := hget hc
    obtain ⟨hmem, hlid⟩ := h.pending conn' c p hc hp
    exact ⟨hmem, (htable hne hc hmem).trans hlid⟩

/-- The links that a connection takes along are all that it owned. -/
theorem Kept.hangup_snd (h : l.Kept) (hconn : l.conns.get? conn = some core) :
    (l.hangup conn core).2 = core.owned := by
  rw [Links.hangup, List.filter_eq_self]
  intro lid hmem
  rw [Option.isSome_iff_ne_none]
  exact (h.table_iff lid).mpr ⟨conn, core, hconn, hmem⟩

end

end Links

end TestGear.Frontend
