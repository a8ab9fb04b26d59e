import TestGear.Dict
import TestGear.Grants

/-!
# TestGear.Frontend.Lock

The lock registry that the HiSLIP and the VXI-11 front-end share: one table per
resource, with the holder of the exclusive lock and its depth, and the shared
holders with theirs under one name.

A table represents a bag of outstanding grants (`LockTable.Represents`):

* `tryRequest_of_admits`, `tryRequest_of_not_admits` — a request is granted just
  if it excludes no grant outstanding;
* `release_exclusive`, `release_shared`, `release_of_not_held`, `releaseAll` —
  what is released is taken from the bag.
-/

namespace TestGear.Frontend

open Runs

/-- Control code of an `AsyncLockResponse`, for both request and release. -/
inductive LockResponse where
  | failure
  | successExclusive
  | successShared
  | error
deriving DecidableEq, Repr

def LockResponse.controlCode : LockResponse → UInt8
  | failure => 0
  | successExclusive => 1
  | successShared => 2
  | error => 3

def LockResponse.isSuccess (r : LockResponse) : Bool := r = successExclusive || r = successShared

/-- A lock holder's identity. -/
abbrev HolderId := UInt64

/-- A HiSLIP session's registry identity. -/
def hislipId (sessionId : UInt16) : HolderId := 0x000100000000 ||| sessionId.toUInt64

/-- A VXI-11 link's registry identity. -/
def vxi11Id (lid : Int32) : HolderId := 0x000200000000 ||| lid.toUInt32.toUInt64

/-- The ids of sessions lie below those of links. -/
theorem toNat_hislipId (a : UInt16) : (hislipId a).toNat = 2 ^ 32 + a.toNat := by
  have h := Nat.two_pow_add_eq_or_of_lt (a.toNat_lt.trans (by decide : 2 ^ 16 < 2 ^ 32)) 1
  rw [hislipId, UInt64.toNat_or, UInt16.toNat_toUInt64]
  simpa using h.symm

/-- The ids of links, unwrapped. -/
theorem toNat_vxi11Id (lid : Int32) : (vxi11Id lid).toNat = 2 ^ 33 + lid.toUInt32.toNat := by
  have h := Nat.two_pow_add_eq_or_of_lt (lid.toUInt32.toNat_lt.trans (by decide : 2 ^ 32 < 2 ^ 33)) 1
  rw [vxi11Id, UInt64.toNat_or, UInt32.toNat_toUInt64]
  simpa using h.symm

/-- No two links are one holder, and no session and link are. -/
theorem vxi11Id_inj {a b : Int32} : vxi11Id a = vxi11Id b ↔ a = b := by
  rw [← UInt64.toNat_inj, toNat_vxi11Id, toNat_vxi11Id, Nat.add_left_cancel_iff, UInt32.toNat_inj]
  exact ⟨fun h => by cases a; cases b; simp_all, fun h => h ▸ rfl⟩

/-- A session is never taken for a link. -/
theorem hislipId_ne_vxi11Id (a : UInt16) (lid : Int32) : hislipId a ≠ vxi11Id lid := by
  rw [ne_eq, ← UInt64.toNat_inj, toNat_hislipId, toNat_vxi11Id]
  have := a.toNat_lt
  omega

/-! ## One resource -/

/-- Who holds what on one resource. -/
structure LockTable where
  exclusive : Option (HolderId × UInt32)
  sharedName : Option String
  shared : Dict HolderId UInt32

namespace LockTable

instance : EmptyCollection LockTable := ⟨none, none, ∅⟩

def isEmpty (t : LockTable) : Bool := t.exclusive.isNone && t.shared.items.isEmpty

/-- Is the exclusive lock this holder's? -/
def holdsExclusive (t : LockTable) (id : HolderId) : Bool := t.exclusive.any (·.1 = id)

def holds (t : LockTable) (id : HolderId) : Bool := t.holdsExclusive id || (t.shared.get? id).isSome

/-- Number of distinct sessions holding any lock. -/
def holders (t : LockTable) : UInt32 :=
  let exclusiveOnly :=
    match t.exclusive with
    | some (id, _) => if (t.shared.get? id).isSome then 0 else 1
    | none => 0
  UInt32.ofNat t.shared.items.length + exclusiveOnly

def grantsAccess (t : LockTable) (id : HolderId) : Bool := t.holds id || t.isEmpty

def tryRequest (t : LockTable) (id : HolderId) (lockString : String) :
    LockTable × Option LockResponse :=
  if lockString.isEmpty then
    match t.exclusive with
    | some (holder, depth) =>
        -- already ours: nest
        if holder = id then
          ({ t with exclusive := some (holder, depth + 1) }, some .successExclusive)
        else (t, none)
    | none =>
        if t.shared.keys.any (· ≠ id) then (t, none)
        else ({ t with exclusive := some (id, 1) }, some .successExclusive)
  else
    let exclusiveElsewhere := t.exclusive.any (·.1 ≠ id)
    let nameClash := t.sharedName.any (· ≠ lockString)
    if exclusiveElsewhere || nameClash then (t, none)
    else
      ({ t with
          sharedName := some lockString
          shared := t.shared.set id ((t.shared.get? id).getD 0 + 1) }, some .successShared)

def releaseShared (t : LockTable) (id : HolderId) (depth : UInt32) : LockTable :=
  if depth - 1 = 0 then
    let shared := t.shared.erase id
    { t with shared, sharedName := if shared.items.isEmpty then none else t.sharedName }
  else { t with shared := t.shared.set id (depth - 1) }

/-- One level of whatever lock `id` holds; `none` if it holds none. -/
def release (t : LockTable) (id : HolderId) : Option (LockTable × LockResponse) :=
  match t.exclusive.filter (·.1 = id) with
  | some (holder, depth) =>
      some ({ t with exclusive := if depth - 1 = 0 then none else some (holder, depth - 1) },
        .successExclusive)
  | none => (t.shared.get? id).map fun depth => (t.releaseShared id depth, .successShared)

/-- Every level of every lock `id` holds. -/
def releaseAll (t : LockTable) (id : HolderId) : LockTable :=
  let t := if t.holdsExclusive id then { t with exclusive := none } else t
  if (t.shared.get? id).isSome then
    let shared := t.shared.erase id
    { t with shared, sharedName := if shared.items.isEmpty then none else t.sharedName }
  else t

end LockTable

/-! ## The registry -/

/-- Daemon-wide lock state, one table per resource. -/
structure LockRegistry where
  tables : Dict String LockTable

namespace LockRegistry

def new : LockRegistry := ⟨∅⟩

/-- The table of a resource; a resource without one is free. -/
def table (reg : LockRegistry) (resource : String) : LockTable := (reg.tables.get? resource).getD ∅

/-- One attempt at acquiring.  `none` means "conflicts right now". -/
def tryRequest (reg : LockRegistry) (resource : String) (id : HolderId) (lockString : String) :
    LockRegistry × Option LockResponse :=
  let (table, granted) := (reg.table resource).tryRequest id lockString
  (if granted.isNone && table.isEmpty then ⟨reg.tables.erase resource⟩
    else ⟨reg.tables.set resource table⟩, granted)

/-- Release one level; and are the waiting requests woken? -/
def release (reg : LockRegistry) (resource : String) (id : HolderId) :
    LockRegistry × LockResponse × Bool :=
  match (reg.tables.get? resource).bind (·.release id) with
  | none => (reg, .error, false)
  | some (table, response) =>
      (if table.isEmpty then ⟨reg.tables.erase resource⟩ else ⟨reg.tables.set resource table⟩,
        response, true)

/-- Drop every lock `id` holds; and are the waiting requests woken? -/
def releaseAll (reg : LockRegistry) (id : HolderId) : LockRegistry × Bool :=
  let freed := reg.tables.values.any (·.holds id)
  (⟨reg.tables.retain fun _ table =>
    let table := table.releaseAll id
    if table.isEmpty then none else some table⟩, freed)

/-- Is an exclusive lock held, and by how many sessions is the resource locked? -/
def info (reg : LockRegistry) (resource : String) : Bool × UInt32 :=
  match reg.tables.get? resource with
  | some table => (table.exclusive.isSome, table.holders)
  | none => (false, 0)

def hasAccess (reg : LockRegistry) (resource : String) (id : HolderId) : Bool :=
  match reg.tables.get? resource with
  | some table => table.grantsAccess id
  | none => true

def holds (reg : LockRegistry) (resource : String) (id : HolderId) : Bool :=
  match reg.tables.get? resource with
  | some table => table.holds id
  | none => false

end LockRegistry

/-! ## Tables and the grants outstanding -/

open Grants

/-- The name a lock is asked for under; none for an exclusive one. -/
def lockName (lockString : String) : Option String :=
  if lockString.isEmpty then none else some lockString

namespace LockTable

def exclusiveDepth (t : LockTable) (id : HolderId) : ℕ :=
  (t.exclusive.filter (·.1 = id)).elim 0 (·.2.toNat)

def sharedDepth (t : LockTable) (id : HolderId) : ℕ := (t.shared.get? id).elim 0 UInt32.toNat

/-- The depths of a table count the grants outstanding, and it keeps no entry
that counts none. -/
structure Represents (t : LockTable) (s : Multiset (Grant HolderId String)) : Prop where
  exclusive : ∀ id, s.count ⟨id, none⟩ = t.exclusiveDepth id
  shared : ∀ id name,
    s.count ⟨id, some name⟩ = if t.sharedName = some name then t.sharedDepth id else 0
  exclusive_ne : ∀ id depth, t.exclusive = some (id, depth) → depth ≠ 0
  shared_ne : ∀ id depth, t.shared.get? id = some depth → depth ≠ 0
  named : t.sharedName = none ↔ ∀ id, t.shared.get? id = none

namespace Represents

variable {t : LockTable} {s : Multiset (Grant HolderId String)} {id : HolderId} {name : String}

/-- An empty table stands for no grants. -/
theorem empty : Represents ∅ 0 where
  exclusive _ := rfl
  shared _ _ := by simp [EmptyCollection.emptyCollection]
  exclusive_ne _ _ h := by cases h
  shared_ne _ _ h := by cases h
  named := iff_of_true rfl fun _ => rfl

/-- An exclusive grant is the table's exclusive holder. -/
theorem mem_exclusive_iff (h : Represents t s) :
    ⟨id, none⟩ ∈ s ↔ ∃ depth, t.exclusive = some (id, depth) := by
  rw [← Multiset.one_le_count_iff_mem, h.exclusive, exclusiveDepth]
  cases he : t.exclusive with
  | none => simp
  | some p =>
      obtain ⟨holder, depth⟩ := p
      have hne := h.exclusive_ne holder depth he
      by_cases hid : holder = id
      · subst hid
        have hpos : depth.toNat ≠ 0 := fun h0 => hne (UInt32.toNat_inj.mp h0)
        simp only [Option.filter_some, decide_true, if_true, Option.elim_some, Option.some.injEq,
          Prod.mk.injEq, true_and, exists_eq', iff_true]
        omega
      · simp [Option.filter_some, hid]

/-- A shared grant is an entry under the table's shared name. -/
theorem mem_shared_iff (h : Represents t s) :
    ⟨id, some name⟩ ∈ s ↔ t.sharedName = some name ∧ ∃ depth, t.shared.get? id = some depth := by
  rw [← Multiset.one_le_count_iff_mem, h.shared, sharedDepth]
  by_cases hname : t.sharedName = some name
  · cases hd : t.shared.get? id with
    | none => simp
    | some depth =>
        have hpos : depth.toNat ≠ 0 := fun h0 => h.shared_ne id depth hd (UInt32.toNat_inj.mp h0)
        simp only [hname, if_true, Option.elim_some, true_and, Option.some.injEq, exists_eq',
          iff_true]
        omega
  · simp [hname]

/-- Where somebody shares there is a name. -/
theorem exists_name (h : Represents t s) {depth : UInt32} (hd : t.shared.get? id = some depth) :
    ∃ name, t.sharedName = some name := by
  rw [← Option.ne_none_iff_exists']
  intro hnone
  rw [h.named.mp hnone id] at hd
  cases hd

/-- To hold is to have a grant. -/
theorem holds_iff (h : Represents t s) : t.holds id = true ↔ ∃ g ∈ s, g.holder = id := by
  rw [holds, Bool.or_eq_true, Option.isSome_iff_exists, holdsExclusive]
  constructor
  · rintro (hx | ⟨depth, hd⟩)
    · rw [Option.any_eq_true] at hx
      obtain ⟨⟨holder, depth⟩, he, hid⟩ := hx
      obtain rfl : holder = id := of_decide_eq_true hid
      exact ⟨_, h.mem_exclusive_iff.mpr ⟨depth, he⟩, rfl⟩
    · obtain ⟨name, hname⟩ := h.exists_name hd
      exact ⟨_, h.mem_shared_iff.mpr ⟨hname, depth, hd⟩, rfl⟩
  · rintro ⟨⟨holder, name⟩, hg, rfl⟩
    cases name with
    | none =>
        obtain ⟨depth, he⟩ := h.mem_exclusive_iff.mp hg
        exact Or.inl (by simp [he])
    | some name => exact Or.inr (h.mem_shared_iff.mp hg).2

/-- A table is empty just when it stands for no grants. -/
theorem isEmpty_iff (h : Represents t s) : t.isEmpty = true ↔ s = 0 := by
  rw [isEmpty, Bool.and_eq_true, Option.isNone_iff_eq_none, Dict.isEmpty_items_iff]
  constructor
  · rintro ⟨hx, hsh⟩
    refine Multiset.eq_zero_of_forall_notMem fun ⟨id, name⟩ hg => ?_
    cases name with
    | none =>
        obtain ⟨depth, he⟩ := h.mem_exclusive_iff.mp hg
        rw [hx] at he
        cases he
    | some name =>
        obtain ⟨-, depth, hd⟩ := h.mem_shared_iff.mp hg
        rw [hsh] at hd
        cases hd
  · rintro rfl
    constructor
    · cases he : t.exclusive with
      | none => rfl
      | some p => exact absurd (h.mem_exclusive_iff.mpr ⟨p.2, he⟩) (Multiset.notMem_zero _)
    · intro id
      cases hd : t.shared.get? id with
      | none => rfl
      | some depth =>
          obtain ⟨name, hname⟩ := h.exists_name hd
          exact absurd (h.mem_shared_iff.mpr ⟨hname, depth, hd⟩) (Multiset.notMem_zero _)

/-- The table gives access just when the grants do. -/
theorem grantsAccess_iff (h : Represents t s) : t.grantsAccess id = true ↔ Access s id := by
  rw [grantsAccess, Bool.or_eq_true, h.holds_iff, h.isEmpty_iff, Access, or_comm]

/-- The holders are counted, not their grants. -/
theorem holders_eq (h : Represents t s) :
    t.holders = UInt32.ofNat (s.map Grant.holder).toFinset.card := by
  have hmem (i : HolderId) : i ∈ (s.map Grant.holder).toFinset ↔ t.holds i = true := by
    rw [h.holds_iff, Multiset.mem_toFinset, Multiset.mem_map]
  have hkeys (i : HolderId) : i ∈ t.shared.keys.toFinset ↔ (t.shared.get? i).isSome = true := by
    rw [List.mem_toFinset, Dict.mem_keys_iff, Option.isSome_iff_exists]
  have hcard : t.shared.keys.toFinset.card = t.shared.items.length := by
    rw [Dict.keys, List.toFinset_card_of_nodup t.shared.nodup, List.length_map]
  rw [holders]
  cases he : t.exclusive with
  | none =>
      have hset : (s.map Grant.holder).toFinset = t.shared.keys.toFinset := by
        ext i
        rw [hmem, hkeys, holds, holdsExclusive, he]
        simp
      rw [hset, hcard]
      simp
  | some p =>
      have hset : (s.map Grant.holder).toFinset = insert p.1 t.shared.keys.toFinset := by
        ext i
        rw [hmem, Finset.mem_insert, hkeys, holds, holdsExclusive, he, Bool.or_eq_true,
          Option.any_some, decide_eq_true_iff, @eq_comm _ p.1]
      rw [hset]
      by_cases hp : (t.shared.get? p.1).isSome = true
      · rw [Finset.insert_eq_of_mem ((hkeys p.1).mpr hp), hcard]
        simp [hp]
      · rw [Finset.card_insert_of_notMem (mt (hkeys p.1).mp hp), hcard]
        simp [hp, UInt32.ofNat_add]

/-- A holder's depths count its grants. -/
theorem held_eq (h : Represents t s) (id : HolderId) :
    held s id = t.exclusiveDepth id + t.sharedDepth id := by
  have hsplit : held s id =
      s.count ⟨id, none⟩ + s.countP fun g => g.holder = id ∧ g.name ≠ none := by
    rw [held, Multiset.countP_eq_countP_filter_add s _ (· = ⟨id, none⟩), Multiset.countP_filter,
      Multiset.countP_filter, Multiset.count]
    congr 1
    · refine Multiset.countP_congr rfl fun g _ => ?_
      simp only [eq_iff_iff]
      exact ⟨fun hg => hg.2.symm, fun hg => ⟨by rw [← hg], hg.symm⟩⟩
    · refine Multiset.countP_congr rfl fun g _ => ?_
      cases g with
      | mk i name =>
          simp only [eq_iff_iff, Grant.mk.injEq]
          tauto
  rw [hsplit, h.exclusive]
  congr 1
  cases hname : t.sharedName with
  | none =>
      rw [sharedDepth, h.named.mp hname id, Option.elim_none, Multiset.countP_eq_zero]
      rintro ⟨i, name⟩ hg ⟨-, hsome⟩
      obtain ⟨m, rfl⟩ := Option.ne_none_iff_exists'.mp hsome
      rw [(h.mem_shared_iff.mp hg).1] at hname
      cases hname
  | some n =>
      have hcount := h.shared id n
      rw [if_pos hname] at hcount
      rw [← hcount, Multiset.count]
      refine Multiset.countP_congr rfl fun g hg => ?_
      cases g with
      | mk i name =>
          simp only [eq_iff_iff, Grant.mk.injEq]
          constructor
          · rintro ⟨rfl, hsome⟩
            obtain ⟨m, rfl⟩ := Option.ne_none_iff_exists'.mp hsome
            exact ⟨rfl, hname.symm.trans (h.mem_shared_iff.mp hg).1⟩
          · rintro ⟨rfl, rfl⟩
            exact ⟨rfl, by simp⟩

/-- A depth is no more than the grants there are. -/
theorem toNat_exclusive_le (h : Represents t s) {depth : UInt32}
    (he : t.exclusive = some (id, depth)) : depth.toNat ≤ s.card := by
  have hcount := h.exclusive id
  simp only [exclusiveDepth, he, Option.filter_some, decide_true, if_true, Option.elim_some] at hcount
  exact hcount ▸ Multiset.count_le_card _ s

/-- The same of a shared one. -/
theorem toNat_shared_le (h : Represents t s) {depth : UInt32}
    (hd : t.shared.get? id = some depth) : depth.toNat ≤ s.card := by
  obtain ⟨name, hname⟩ := h.exists_name hd
  have hcount := h.shared id name
  rw [sharedDepth, hd, if_pos hname, Option.elim_some] at hcount
  exact hcount ▸ Multiset.count_le_card _ s

/-- A new exclusive holder stands for new exclusive grants. -/
theorem set_exclusive (h : Represents t s) {e : Option (HolderId × UInt32)}
    {s' : Multiset (Grant HolderId String)}
    (hx : ∀ id, s'.count ⟨id, none⟩ = (e.filter (·.1 = id)).elim 0 (·.2.toNat))
    (hsh : ∀ id name, s'.count ⟨id, some name⟩ = s.count ⟨id, some name⟩)
    (hne : ∀ id depth, e = some (id, depth) → depth ≠ 0) :
    Represents { t with exclusive := e } s' where
  exclusive := hx
  shared id name := (hsh id name).trans (h.shared id name)
  exclusive_ne := hne
  shared_ne := h.shared_ne
  named := h.named

/-- An exclusive request that the grants admit is granted. -/
theorem tryRequest_exclusive (h : Represents t s) (hbound : s.card + 1 < 2 ^ 32)
    (hadmits : Admits s ⟨id, none⟩) {lockString : String} (hempty : lockString.isEmpty = true) :
    Represents (t.tryRequest id lockString).1 (⟨id, none⟩ ::ₘ s) ∧
      (t.tryRequest id lockString).2 = some .successExclusive := by
  rw [admits_exclusive_iff] at hadmits
  have hsh (i : HolderId) (name : String) :
      (⟨id, none⟩ ::ₘ s).count ⟨i, some name⟩ = s.count ⟨i, some name⟩ := by
    rw [Multiset.count_cons_of_ne (by simp)]
  rw [tryRequest, if_pos hempty]
  cases he : t.exclusive with
  | some p =>
      obtain ⟨holder, depth⟩ := p
      obtain rfl : holder = id := hadmits _ (h.mem_exclusive_iff.mpr ⟨depth, he⟩)
      have hdepth : (depth + 1).toNat = depth.toNat + 1 := by
        have := h.toNat_exclusive_le he
        rw [UInt32.toNat_add, UInt32.toNat_one]
        exact Nat.mod_eq_of_lt (by omega)
      simp only [if_true]
      refine ⟨h.set_exclusive (fun i => ?_) hsh ?_, trivial⟩
      · rw [Multiset.count_cons, h.exclusive, exclusiveDepth, he]
        by_cases hi : holder = i
        · simp [Option.filter_some, hi, hdepth]
        · simp [Option.filter_some, hi, Ne.symm hi]
      · rintro i d ⟨⟩ h0
        rw [h0] at hdepth
        cases hdepth
  | none =>
      have hkeys : ¬(t.shared.keys.any (· ≠ id)) = true := by
        simp only [List.any_eq_true, decide_eq_true_iff, not_exists, not_and, not_not]
        intro i hi
        obtain ⟨depth, hd⟩ := Dict.mem_keys_iff.mp hi
        obtain ⟨name, hname⟩ := h.exists_name hd
        exact hadmits _ (h.mem_shared_iff.mpr ⟨hname, depth, hd⟩)
      simp only [hkeys, Bool.false_eq_true, if_false]
      refine ⟨h.set_exclusive (fun i => ?_) hsh ?_, trivial⟩
      · rw [Multiset.count_cons, h.exclusive, exclusiveDepth, he]
        by_cases hi : id = i
        · simp [Option.filter_some, hi]
        · simp [Option.filter_some, hi, Ne.symm hi]
      · rintro i d ⟨⟩
        decide

/-- New sharers stand for new shared grants. -/
theorem set_shared (h : Represents t s) {name : Option String} {d : Dict HolderId UInt32}
    {s' : Multiset (Grant HolderId String)}
    (hx : ∀ id, s'.count ⟨id, none⟩ = s.count ⟨id, none⟩)
    (hsh : ∀ id m, s'.count ⟨id, some m⟩ =
      if name = some m then (d.get? id).elim 0 UInt32.toNat else 0)
    (hne : ∀ id depth, d.get? id = some depth → depth ≠ 0)
    (hnamed : name = none ↔ ∀ id, d.get? id = none) :
    Represents { t with sharedName := name, shared := d } s' where
  exclusive id := (hx id).trans (h.exclusive id)
  shared := hsh
  exclusive_ne := h.exclusive_ne
  shared_ne := hne
  named := hnamed

/-- A shared request that the grants admit is granted. -/
theorem tryRequest_shared (h : Represents t s) (hbound : s.card + 1 < 2 ^ 32)
    {lockString : String} (hempty : lockString.isEmpty = false)
    (hadmits : Admits s ⟨id, some lockString⟩) :
    Represents (t.tryRequest id lockString).1 (⟨id, some lockString⟩ ::ₘ s) ∧
      (t.tryRequest id lockString).2 = some .successShared := by
  obtain ⟨hx, hsh⟩ := admits_shared_iff.mp hadmits
  have hname : t.sharedName = none ∨ t.sharedName = some lockString := by
    cases hn : t.sharedName with
    | none => exact Or.inl rfl
    | some n =>
        obtain ⟨i, hi⟩ := not_forall.mp (mt h.named.mpr (by simp [hn]))
        obtain ⟨depth, hd⟩ := Option.ne_none_iff_exists'.mp hi
        exact Or.inr (congrArg some (hsh i n (h.mem_shared_iff.mpr ⟨hn, depth, hd⟩)))
  have hfree : (t.exclusive.any (·.1 ≠ id) || t.sharedName.any (· ≠ lockString)) = false := by
    rw [Bool.or_eq_false_iff]
    constructor
    · cases he : t.exclusive with
      | none => rfl
      | some p => simpa using hx p.1 (h.mem_exclusive_iff.mpr ⟨p.2, he⟩)
    · cases hname with
      | inl hnone => simp [hnone]
      | inr hsome => simp [hsome]
  have hdepth : ((t.shared.get? id).getD 0 + 1).toNat = t.sharedDepth id + 1 := by
    rw [sharedDepth]
    cases hd : t.shared.get? id with
    | none => rfl
    | some depth =>
        have := h.toNat_shared_le hd
        rw [Option.getD_some, Option.elim_some, UInt32.toNat_add, UInt32.toNat_one]
        exact Nat.mod_eq_of_lt (by omega)
  -- nobody shares the lock as long as it has no name
  have hcount (i : HolderId) : s.count ⟨i, some lockString⟩ = t.sharedDepth i := by
    rw [h.shared]
    cases hname with
    | inl hnone => simp [hnone, sharedDepth, h.named.mp hnone i]
    | inr hsome => simp [hsome]
  rw [tryRequest, if_neg (by simp [hempty])]
  simp only [hfree, Bool.false_eq_true, if_false]
  refine ⟨h.set_shared (fun i => ?_) (fun i m => ?_) (fun i d hd => ?_) ?_, trivial⟩
  · rw [Multiset.count_cons_of_ne (by simp)]
  · rw [Multiset.count_cons, Dict.get?_set]
    by_cases hm : lockString = m
    · subst hm
      rw [hcount, if_pos rfl]
      by_cases hi : i = id
      · simp [hi, hdepth]
      · simp [hi, sharedDepth]
    · have hne : t.sharedName ≠ some m := by
        cases hname with
        | inl hnone => simp [hnone]
        | inr hsome => simp [hsome, hm]
      simp [h.shared, hne, hm, Ne.symm hm]
  · rw [Dict.get?_set] at hd
    split at hd
    · rintro rfl
      rw [Option.some.injEq] at hd
      rw [hd] at hdepth
      cases hdepth
    · exact h.shared_ne i d hd
  · refine iff_of_false (by simp) fun hall => ?_
    simpa [Dict.get?_set] using hall id

/-- A request that is admitted is granted, and adds its grant. -/
theorem tryRequest_of_admits (h : Represents t s) (hbound : s.card + 1 < 2 ^ 32)
    {lockString : String} (hadmits : Admits s ⟨id, lockName lockString⟩) :
    Represents (t.tryRequest id lockString).1 (⟨id, lockName lockString⟩ ::ₘ s) ∧
      (t.tryRequest id lockString).2 =
        some (if lockString.isEmpty then .successExclusive else .successShared) := by
  cases hempty : lockString.isEmpty with
  | true =>
      rw [lockName, hempty, if_pos rfl] at hadmits ⊢
      exact h.tryRequest_exclusive hbound hadmits hempty
  | false =>
      rw [lockName, hempty, if_neg Bool.false_ne_true] at hadmits ⊢
      exact h.tryRequest_shared hbound hempty hadmits

/-- A request that is not is refused, and changes nothing. -/
theorem tryRequest_of_not_admits (h : Represents t s) (hs : Coherent s) {lockString : String}
    (hadmits : ¬Admits s ⟨id, lockName lockString⟩) :
    t.tryRequest id lockString = (t, none) := by
  cases hempty : lockString.isEmpty with
  | true =>
      rw [lockName, hempty, if_pos rfl, admits_exclusive_iff] at hadmits
      rw [tryRequest, if_pos hempty]
      cases he : t.exclusive with
      | some p =>
          obtain ⟨holder, depth⟩ := p
          have hmem := h.mem_exclusive_iff.mpr ⟨depth, he⟩
          have hid : holder ≠ id := fun hid => hadmits fun g hg => hid ▸ hs.holder_eq hmem hg
          simp [hid]
      | none =>
          have hkeys : (t.shared.keys.any (· ≠ id)) = true := by
            simp only [not_forall] at hadmits
            obtain ⟨⟨i, name⟩, hg, hid⟩ := hadmits
            cases name with
            | none =>
                obtain ⟨depth, hd⟩ := h.mem_exclusive_iff.mp hg
                rw [he] at hd
                cases hd
            | some n =>
                rw [List.any_eq_true]
                exact ⟨i, Dict.mem_keys_iff.mpr (h.mem_shared_iff.mp hg).2, by simpa using hid⟩
          simp only [hkeys, if_true]
  | false =>
      rw [lockName, hempty, if_neg Bool.false_ne_true, admits_shared_iff, not_and_or] at hadmits
      rw [tryRequest, if_neg (by simp [hempty]), if_pos]
      rw [Bool.or_eq_true]
      refine hadmits.imp (fun hx => ?_) fun hsh => ?_
      · simp only [not_forall] at hx
        obtain ⟨i, hi, hid⟩ := hx
        obtain ⟨depth, he⟩ := h.mem_exclusive_iff.mp hi
        simpa [he] using hid
      · simp only [not_forall] at hsh
        obtain ⟨i, n, hi, hn⟩ := hsh
        simpa [(h.mem_shared_iff.mp hi).1] using hn

/-! ### Releasing -/

/-- One shared entry goes, and the name with the last of them. -/
theorem erase_shared (h : Represents t s) {depth : UInt32} (hd : t.shared.get? id = some depth)
    {s' : Multiset (Grant HolderId String)}
    (hx : ∀ i, s'.count ⟨i, none⟩ = s.count ⟨i, none⟩)
    (hsh : ∀ i m, s'.count ⟨i, some m⟩ = if i = id then 0 else s.count ⟨i, some m⟩) :
    Represents
      { t with
        sharedName := if (t.shared.erase id).items.isEmpty then none else t.sharedName
        shared := t.shared.erase id } s' := by
  have hempty := @Dict.isEmpty_items_iff _ _ _ (t.shared.erase id)
  refine h.set_shared hx (fun i m => ?_) (fun i d hi => ?_) ?_
  · rw [hsh, h.shared, sharedDepth]
    by_cases hnone : (t.shared.erase id).items.isEmpty = true
    · have hi := Dict.get?_erase t.shared id i
      rw [hempty.mp hnone i] at hi
      split
      · simp
      · next hne =>
          rw [if_neg hne] at hi
          simp [← hi]
    · rw [if_neg hnone, Dict.get?_erase]
      by_cases hi : i = id
      · simp [hi]
      · rw [if_neg hi, if_neg hi]
  · rw [Dict.get?_erase] at hi
    split at hi
    · cases hi
    · exact h.shared_ne i d hi
  · obtain ⟨name, hname⟩ := h.exists_name hd
    rw [← hempty]
    simp [hname]

/-- Who holds nothing has nothing to release. -/
theorem release_of_not_held (h : Represents t s) (hnone : ∀ g ∈ s, g.holder ≠ id) :
    t.release id = none := by
  have hx : t.exclusive.filter (·.1 = id) = none := by
    cases he : t.exclusive with
    | none => rfl
    | some p => simpa using hnone _ (h.mem_exclusive_iff.mpr ⟨p.2, he⟩)
  rw [release, hx]
  cases hd : t.shared.get? id with
  | none => rfl
  | some depth =>
      obtain ⟨name, hname⟩ := h.exists_name hd
      exact absurd rfl (hnone _ (h.mem_shared_iff.mpr ⟨hname, depth, hd⟩))

/-- An exclusive grant is released first. -/
theorem release_exclusive (h : Represents t s) (hx : ⟨id, none⟩ ∈ s) :
    ∃ t', t.release id = some (t', .successExclusive) ∧ Represents t' (s.erase ⟨id, none⟩) := by
  obtain ⟨depth, he⟩ := h.mem_exclusive_iff.mp hx
  have hne := h.exclusive_ne id depth he
  have hpos : depth.toNat ≠ 0 := fun h0 => hne (UInt32.toNat_inj.mp h0)
  have hdepth : (depth - 1).toNat = depth.toNat - 1 :=
    UInt32.toNat_sub_of_le _ _ (UInt32.le_iff_toNat_le.mpr (by rw [UInt32.toNat_one]; omega))
  refine ⟨_, by rw [release, he, Option.filter_some, if_pos (by simp)], ?_⟩
  refine h.set_exclusive (fun i => ?_) (fun i m => Multiset.count_erase_of_ne (by simp) s) ?_
  · by_cases hi : i = id
    · subst hi
      rw [Multiset.count_erase_self, h.exclusive, exclusiveDepth, he]
      simp only [Option.filter_some, decide_true, if_true, Option.elim_some]
      rw [← hdepth]
      split
      · next h0 => simp [h0]
      · simp [Option.filter_some]
    · rw [Multiset.count_erase_of_ne (by simp [hi]), h.exclusive, exclusiveDepth, he]
      split <;> simp [Option.filter_some, Ne.symm hi]
  · intro i d hi
    split at hi
    · cases hi
    · next hne => cases hi; exact hne

/-- A shared one is, if there is no exclusive one. -/
theorem release_shared (h : Represents t s) (hx : ⟨id, none⟩ ∉ s) (hsh : ⟨id, some name⟩ ∈ s) :
    ∃ t', t.release id = some (t', .successShared) ∧ Represents t' (s.erase ⟨id, some name⟩) := by
  obtain ⟨hname, depth, hd⟩ := h.mem_shared_iff.mp hsh
  have hfilter : t.exclusive.filter (·.1 = id) = none := by
    cases he : t.exclusive with
    | none => rfl
    | some p =>
        have hp : p.1 ≠ id := fun hp => hx (h.mem_exclusive_iff.mpr ⟨p.2, by rw [he, ← hp]⟩)
        simpa using hp
  have hpos : depth.toNat ≠ 0 := fun h0 => h.shared_ne id depth hd (UInt32.toNat_inj.mp h0)
  have hdepth : (depth - 1).toNat = depth.toNat - 1 :=
    UInt32.toNat_sub_of_le _ _ (UInt32.le_iff_toNat_le.mpr (by rw [UInt32.toNat_one]; omega))
  have hcount : s.count ⟨id, some name⟩ = depth.toNat := by
    rw [h.shared, if_pos hname, sharedDepth, hd, Option.elim_some]
  refine ⟨_, by rw [release, hfilter, hd, Option.map_some], ?_⟩
  have hother (i : HolderId) (m : String) (hi : i ≠ id) :
      (s.erase ⟨id, some name⟩).count ⟨i, some m⟩ = s.count ⟨i, some m⟩ :=
    Multiset.count_erase_of_ne (by simp [hi]) s
  have hself (m : String) : (s.erase ⟨id, some name⟩).count ⟨id, some m⟩ =
      if t.sharedName = some m then depth.toNat - 1 else 0 := by
    by_cases hm : name = m
    · subst hm
      rw [Multiset.count_erase_self, hcount, if_pos hname]
    · rw [Multiset.count_erase_of_ne (by simp [Ne.symm hm]), h.shared]
      simp [hname, hm]
  have hexcl (i : HolderId) : (s.erase ⟨id, some name⟩).count ⟨i, none⟩ = s.count ⟨i, none⟩ :=
    Multiset.count_erase_of_ne (by simp) s
  rw [releaseShared]
  split
  · next h0 =>
      refine h.erase_shared hd hexcl fun i m => ?_
      by_cases hi : i = id
      · rw [h0] at hdepth
        rw [hi, hself, if_pos rfl, ← hdepth]
        split <;> rfl
      · rw [hother i m hi, if_neg hi]
  · next h0 =>
      refine h.set_shared hexcl (fun i m => ?_) (fun i d hi => ?_) ?_
      · rw [Dict.get?_set]
        by_cases hi : i = id
        · rw [hi, hself, if_pos rfl, Option.elim_some, hdepth]
        · rw [hother i m hi, h.shared, if_neg hi, sharedDepth]
      · rw [Dict.get?_set] at hi
        split at hi
        · cases hi; exact h0
        · exact h.shared_ne i d hi
      · refine iff_of_false (by simp [hname]) fun hall => ?_
        simpa [Dict.get?_set] using hall id

/-- The first half of `releaseAll` takes the exclusive grants. -/
theorem releaseAll_exclusive (h : Represents t s) :
    Represents (if t.holdsExclusive id then { t with exclusive := none } else t)
      (s.filter (· ≠ ⟨id, none⟩)) := by
  have hsh (i : HolderId) (m : String) :
      (s.filter (· ≠ ⟨id, none⟩)).count ⟨i, some m⟩ = s.count ⟨i, some m⟩ := by
    rw [Multiset.count_filter, if_pos (by simp)]
  split
  · next hx =>
      refine h.set_exclusive (fun i => ?_) hsh (by simp)
      by_cases hi : i = id
      · simp [hi]
      · -- the exclusive lock is `id`'s, so nobody else has it
        rw [Multiset.count_filter, if_pos (by simp [hi]), h.exclusive, exclusiveDepth]
        rw [LockTable.holdsExclusive, Option.any_eq_true] at hx
        obtain ⟨p, he, hp⟩ := hx
        have hp : p.1 = id := of_decide_eq_true hp
        simp [he, hp, Option.filter_some, Ne.symm hi]
  · next hx =>
      have hself : s.filter (· ≠ ⟨id, none⟩) = s := by
        refine Multiset.filter_eq_self.mpr fun g hg hid => hx ?_
        obtain ⟨depth, he⟩ := h.mem_exclusive_iff.mp (hid ▸ hg)
        simp [LockTable.holdsExclusive, he]
      exact hself.symm ▸ h

/-- Every level of every lock goes at once. -/
theorem releaseAll (h : Represents t s) (id : HolderId) :
    Represents (t.releaseAll id) (s.filter (·.holder ≠ id)) := by
  have h' := @releaseAll_exclusive t s id h
  have hall : s.filter (·.holder ≠ id) = (s.filter (· ≠ ⟨id, none⟩)).filter (·.holder ≠ id) := by
    rw [Multiset.filter_filter]
    refine Multiset.filter_congr fun g _ => ?_
    refine ⟨fun hg => ⟨hg, fun heq => hg (by rw [heq])⟩, fun hg => hg.1⟩
  rw [hall, LockTable.releaseAll]
  have hno : ⟨id, none⟩ ∉ s.filter (· ≠ ⟨id, none⟩) := by simp
  generalize (if t.holdsExclusive id then { t with exclusive := none } else t) = u at h' ⊢
  generalize s.filter (· ≠ ⟨id, none⟩) = s at h' hno ⊢
  split
  · next hsome =>
      obtain ⟨depth, hd⟩ := Option.isSome_iff_exists.mp hsome
      refine h'.erase_shared hd (fun i => ?_) fun i m => ?_
      · by_cases hi : i = id
        · simp [hi, Multiset.count_eq_zero_of_notMem hno]
        · simp [hi]
      · by_cases hi : i = id <;> simp [hi]
  · next hnone =>
      have hself : s.filter (·.holder ≠ id) = s := by
        refine Multiset.filter_eq_self.mpr ?_
        rintro ⟨i, name⟩ hg rfl
        cases name with
        | none => exact hno hg
        | some n =>
            obtain ⟨-, depth, hd⟩ := h'.mem_shared_iff.mp hg
            simp [hd] at hnone
      exact hself.symm ▸ h'

end Represents

end LockTable

end TestGear.Frontend
