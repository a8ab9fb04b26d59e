import TestGear.Frontend.Lock

/-!
# TestGear.Frontend.Registry

The lock registry over any sequence of requests and releases, from whichever
front-end: it refines the bags of outstanding grants.

* `registry_refines` — the same answers, the same wakes, and the same access;
* `access_beside_holder_is_shared` — nobody gets past an exclusive lock;
* `registry_is_a_ledger` — the responses given tell who holds what;
* `no_wake_missed` — who can be left waiting for nothing;
* `releaseAll_frees` — what the end of a session takes.
-/

namespace TestGear.Frontend

open Runs Grants

inductive LockOp where
  | request (resource : String) (id : HolderId) (lockString : String)
  | release (resource : String) (id : HolderId)
  | releaseAll (id : HolderId)

namespace LockRegistry

/-- One operation, its response, and whether those who wait are woken.  A
request is one attempt: one that waits makes several. -/
def step (reg : LockRegistry) : LockOp → LockRegistry × Option LockResponse × Bool
  | .request resource id lockString =>
      let (reg, granted) := reg.tryRequest resource id lockString
      (reg, some (granted.getD .failure), false)
  | .release resource id =>
      let (reg, response, woken) := reg.release resource id
      (reg, some response, woken)
  | .releaseAll id =>
      let (reg, woken) := reg.releaseAll id
      (reg, none, woken)

end LockRegistry

/-! ## The abstract registry -/

/-- The grants outstanding on every resource. -/
abbrev Outstanding := String → Multiset (Grant HolderId String)

def LockOp.toOp : LockOp → Op String HolderId String
  | request resource id lockString => .request resource id (lockName lockString)
  | release resource id => .release resource id
  | releaseAll id => .releaseAll id

def responseOf : Answer → Option LockResponse
  | .refused => some .failure
  | .exclusive => some .successExclusive
  | .shared => some .successShared
  | .notHeld => some .error
  | .done => none

/-- An operation on the grants outstanding. -/
noncomputable def specStep (s : Outstanding) (op : LockOp) : Outstanding × Option LockResponse × Bool :=
  ((next s op.toOp).1, responseOf (next s op.toOp).2.1, (next s op.toOp).2.2)

namespace LockRegistry

/-- The tables represent the grants outstanding, no table is kept that counts
none, and `n` more operations cannot overflow a depth. -/
structure Represents (n : ℕ) (reg : LockRegistry) (s : Outstanding) : Prop where
  table : ∀ resource, (reg.table resource).Represents (s resource)
  stored : ∀ resource table, reg.tables.get? resource = some table → s resource ≠ 0
  coherent : ∀ resource, Coherent (s resource)
  bound : ∀ resource, (s resource).card + n < 2 ^ 32

namespace Represents

variable {m n : ℕ} {reg : LockRegistry} {s : Outstanding}

/-- A new registry stands for no grants. -/
theorem new (h : n < 2 ^ 32) : Represents n LockRegistry.new fun _ => 0 where
  table _ := .empty
  stored _ _ h := by cases h
  coherent _ _ h := absurd h (Multiset.notMem_zero _)
  bound _ := by simpa using h

/-- The table of a resource is the one stored for it. -/
theorem table_eq {resource : String} {table : LockTable}
    (h : reg.tables.get? resource = some table) : reg.table resource = table := by
  rw [LockRegistry.table, h, Option.getD_some]

/-- One table changes, and is stored unless it is empty. -/
theorem put (h : Represents n reg s) {resource : String} {table : LockTable}
    {bag : Multiset (Grant HolderId String)} (ht : table.Represents bag) (hcoh : Coherent bag)
    (hm : m ≤ n) (hcard : bag.card + m ≤ (s resource).card + n) :
    Represents m
      (if table.isEmpty then ⟨reg.tables.erase resource⟩ else ⟨reg.tables.set resource table⟩)
      (Function.update s resource bag) := by
  have hget (r : String) :
      (if table.isEmpty then (⟨reg.tables.erase resource⟩ : LockRegistry)
        else ⟨reg.tables.set resource table⟩).tables.get? r =
      if r = resource then if table.isEmpty then none else some table else reg.tables.get? r := by
    split
    · rw [Dict.get?_erase]
    · rw [Dict.get?_set]
  refine ⟨fun r => ?_, fun r t hr => ?_, fun r => ?_, fun r => ?_⟩
  · rw [LockRegistry.table, hget]
    by_cases hr : r = resource
    · subst hr
      rw [if_pos rfl, Function.update_self]
      split
      · next hempty => exact (ht.isEmpty_iff.mp hempty) ▸ .empty
      · exact ht
    · rw [if_neg hr, Function.update_of_ne hr]
      exact h.table r
  · rw [hget] at hr
    by_cases hne : r = resource
    · subst hne
      rw [if_pos rfl] at hr
      split at hr
      · cases hr
      · next hempty =>
          rw [Function.update_self]
          exact fun hzero => hempty (ht.isEmpty_iff.mpr hzero)
    · rw [if_neg hne] at hr
      rw [Function.update_of_ne hne]
      exact h.stored r t hr
  · by_cases hr : r = resource
    · subst hr
      rwa [Function.update_self]
    · rw [Function.update_of_ne hr]
      exact h.coherent r
  · have hbound := h.bound r
    by_cases hr : r = resource
    · subst hr
      rw [Function.update_self]
      omega
    · rw [Function.update_of_ne hr]
      omega

/-- A smaller budget of operations is kept to as well. -/
theorem mono (h : Represents n reg s) (hm : m ≤ n) : Represents m reg s where
  table := h.table
  stored := h.stored
  coherent := h.coherent
  bound r := (Nat.add_le_add_left hm _).trans_lt (h.bound r)

/-- A request does and answers what it does to the grants. -/
theorem request (h : Represents (n + 1) reg s) (resource : String) (id : HolderId)
    (lockString : String) :
    Represents n (reg.step (.request resource id lockString)).1
        (specStep s (.request resource id lockString)).1 ∧
      (reg.step (.request resource id lockString)).2 =
        (specStep s (.request resource id lockString)).2 := by
  have hbound := h.bound resource
  simp only [LockRegistry.step, LockRegistry.tryRequest, specStep, LockOp.toOp]
  by_cases hadmits : Admits (s resource) ⟨id, lockName lockString⟩
  · obtain ⟨hrep, hgranted⟩ := (h.table resource).tryRequest_of_admits (by omega) hadmits
    have hne := mt hrep.isEmpty_iff.mp (Multiset.cons_ne_zero)
    have hput := @put n _ _ _ h resource _ _ hrep ((h.coherent resource).cons hadmits) (Nat.le_succ n)
      (by rw [Multiset.card_cons]; omega)
    rw [if_neg hne] at hput
    simp only [next_request_of_admits hadmits, hgranted, Option.isNone_some, Bool.false_and,
      Bool.false_eq_true, if_false]
    refine ⟨hput, ?_⟩
    cases hempty : lockString.isEmpty <;> simp [Answer.granting, lockName, hempty, responseOf]
  · rw [next_request_of_not_admits hadmits,
      (h.table resource).tryRequest_of_not_admits (h.coherent resource) hadmits]
    have hput := h.put (h.table resource) (h.coherent resource) (Nat.le_succ n)
      (Nat.add_le_add_left (Nat.le_succ n) _)
    rw [Function.update_eq_self] at hput
    exact ⟨by simpa using hput, rfl⟩

/-- So does a release. -/
theorem release (h : Represents n reg s) (resource : String) (id : HolderId) :
    Represents n (reg.step (.release resource id)).1 (specStep s (.release resource id)).1 ∧
      (reg.step (.release resource id)).2 = (specStep s (.release resource id)).2 := by
  simp only [LockRegistry.step, LockRegistry.release, specStep, LockOp.toOp]
  cases hget : reg.tables.get? resource with
  | none =>
      have hzero : s resource = 0 := by
        rw [← (h.table resource).isEmpty_iff, LockRegistry.table, hget]
        rfl
      rw [next_release_notHeld (by simp [hzero])]
      exact ⟨h, rfl⟩
  | some table =>
      have htable : table.Represents (s resource) := table_eq hget ▸ h.table resource
      have hcoh := h.coherent resource
      -- a level is released: the table it leaves is put back
      have hput {g : Grant HolderId String} {t' : LockTable} {response : LockResponse}
          (hrel : table.release id = some (t', response))
          (hrep : t'.Represents ((s resource).erase g)) :=
        h.put hrep (hcoh.mono (Multiset.erase_le g _)) le_rfl
          (Nat.add_le_add_right (Multiset.card_le_card (Multiset.erase_le g _)) n)
      rw [Option.bind_some]
      by_cases hx : ⟨id, none⟩ ∈ s resource
      · obtain ⟨t', hrel, hrep⟩ := htable.release_exclusive hx
        have hput := hput hrel hrep
        rw [hrel, next_release_exclusive hx]
        exact ⟨hput, rfl⟩
      · by_cases hsh : ∃ name, ⟨id, some name⟩ ∈ s resource
        · obtain ⟨name, hsh⟩ := hsh
          obtain ⟨t', hrel, hrep⟩ := htable.release_shared hx hsh
          have hput := hput hrel hrep
          rw [hrel, next_release_shared hcoh hx hsh]
          exact ⟨hput, rfl⟩
        · have hnone (name : Option String) : ⟨id, name⟩ ∉ s resource := by
            cases name with
            | none => exact hx
            | some name => exact fun hmem => hsh ⟨name, hmem⟩
          have hnot : ∀ g ∈ s resource, g.holder ≠ id := by
            rintro ⟨i, name⟩ hg rfl
            exact hnone name hg
          rw [htable.release_of_not_held hnot, next_release_notHeld hnone]
          exact ⟨h, rfl⟩

/-- So does the end of a holder. -/
theorem releaseAll (h : Represents n reg s) (id : HolderId) :
    Represents n (reg.step (.releaseAll id)).1 (specStep s (.releaseAll id)).1 ∧
      (reg.step (.releaseAll id)).2 = (specStep s (.releaseAll id)).2 := by
  simp only [LockRegistry.step, LockRegistry.releaseAll, specStep, LockOp.toOp, next]
  have hrep (r : String) := (h.table r).releaseAll id
  have hfree {r : String} (hget : reg.tables.get? r = none) : s r = 0 := by
    rw [← (h.table r).isEmpty_iff, LockRegistry.table, hget]
    rfl
  constructor
  · refine ⟨fun r => ?_, fun r t hr => ?_, fun r => ?_, fun r => ?_⟩
    · rw [LockRegistry.table, Dict.get?_retain]
      cases hget : reg.tables.get? r with
      | none =>
          rw [hfree hget]
          exact .empty
      | some table =>
          have hrep := table_eq hget ▸ hrep r
          rw [Option.bind_some]
          split
          · next hempty => exact (hrep.isEmpty_iff.mp hempty) ▸ .empty
          · exact hrep
    · rw [Dict.get?_retain, Option.bind_eq_some_iff] at hr
      obtain ⟨table, hget, htable⟩ := hr
      split at htable
      · cases htable
      · next hempty => exact fun hzero => hempty ((table_eq hget ▸ hrep r).isEmpty_iff.mpr hzero)
    · exact (h.coherent r).mono (Multiset.filter_le _ _)
    · have := Multiset.card_le_card (Multiset.filter_le (·.holder ≠ id) (s r))
      have := h.bound r
      omega
  · congr 1
    rw [Bool.eq_iff_iff, List.any_eq_true]
    simp only [Dict.mem_values_iff, decide_eq_true_eq]
    constructor
    · rintro ⟨table, ⟨r, hget⟩, hholds⟩
      exact ⟨r, (table_eq hget ▸ h.table r).holds_iff.mp hholds⟩
    · rintro ⟨r, g, hg, hid⟩
      cases hget : reg.tables.get? r with
      | none => exact absurd hg (by simp [hfree hget])
      | some table =>
          exact ⟨table, ⟨r, hget⟩, (table_eq hget ▸ h.table r).holds_iff.mpr ⟨g, hg, hid⟩⟩

/-- **One operation** refines one of the abstract machine. -/
theorem step (h : Represents (n + 1) reg s) (op : LockOp) :
    Represents n (reg.step op).1 (specStep s op).1 ∧ (reg.step op).2 = (specStep s op).2 := by
  cases op with
  | request resource id lockString => exact h.request resource id lockString
  | release resource id => exact (h.mono (Nat.le_succ n)).release resource id
  | releaseAll id => exact (h.mono (Nat.le_succ n)).releaseAll id

/-- Who holds is told from the grants. -/
theorem holds_iff (h : Represents n reg s) {resource : String} {id : HolderId} :
    reg.holds resource id = true ↔ 0 < held (s resource) id := by
  rw [held_pos_iff, ← (h.table resource).holds_iff, LockRegistry.holds, LockRegistry.table]
  cases reg.tables.get? resource with
  | none => exact Iff.rfl
  | some table => exact Iff.rfl

/-- So is who has access. -/
theorem hasAccess_iff (h : Represents n reg s) {resource : String} {id : HolderId} :
    reg.hasAccess resource id = true ↔ Access (s resource) id := by
  rw [← (h.table resource).grantsAccess_iff, LockRegistry.hasAccess, LockRegistry.table]
  cases reg.tables.get? resource with
  | none => exact Iff.rfl
  | some table => exact Iff.rfl

/-- So is whether somebody excludes. -/
theorem info_fst_iff (h : Represents n reg s) {resource : String} :
    (reg.info resource).1 = true ↔ ∃ id, ⟨id, none⟩ ∈ s resource := by
  have hx : (reg.info resource).1 = (reg.table resource).exclusive.isSome := by
    rw [LockRegistry.info, LockRegistry.table]
    cases reg.tables.get? resource <;> rfl
  rw [hx, Option.isSome_iff_exists]
  simp only [(h.table resource).mem_exclusive_iff, Prod.exists]

/-- And how many hold. -/
theorem info_snd (h : Represents n reg s) (resource : String) :
    (reg.info resource).2 = UInt32.ofNat ((s resource).map Grant.holder).toFinset.card := by
  rw [← (h.table resource).holders_eq, LockRegistry.info, LockRegistry.table]
  cases reg.tables.get? resource <;> rfl

end Represents

end LockRegistry

/-! ## Every run -/

/-- The registry after a run from the start. -/
def registryAfter (ops : List LockOp) : LockRegistry := final LockRegistry.step .new ops

noncomputable def outstandingAfter (ops : List LockOp) : Outstanding :=
  final specStep (fun _ => 0) ops

/-- **A whole run** refines, as long as no depth can overflow. -/
theorem represents_after {ops : List LockOp} {n : ℕ} (h : ops.length + n < 2 ^ 32) :
    (registryAfter ops).Represents n (outstandingAfter ops) ∧
      outputs LockRegistry.step .new ops = outputs specStep (fun _ => 0) ops :=
  outputs_eq_of_budget (fun _ _ _ op hrep => hrep.step op) ops n (.new h)

/-- **Refinement**: as long as no depth can overflow, the registry answers every
request and release as the bags of outstanding grants do, wakes those who wait
when they do, and tells who has access, who holds, and how many do, as they do. -/
theorem registry_refines (ops : List LockOp) (h : ops.length < 2 ^ 32) :
    outputs LockRegistry.step .new ops = outputs specStep (fun _ => 0) ops ∧
      ∀ resource,
        (∀ id, (registryAfter ops).hasAccess resource id = true ↔
          Access (outstandingAfter ops resource) id) ∧
        (∀ id, (registryAfter ops).holds resource id = true ↔
          0 < held (outstandingAfter ops resource) id) ∧
        ((registryAfter ops).info resource).2 =
          UInt32.ofNat ((outstandingAfter ops resource).map Grant.holder).toFinset.card := by
  obtain ⟨hrep, hout⟩ := @represents_after ops 0 h
  exact ⟨hout, fun r => ⟨fun _ => hrep.hasAccess_iff, fun _ => hrep.holds_iff, hrep.info_snd r⟩⟩

/-- Two sessions share a resource that a third then asks for alone. -/
def sharedThenRefused : List LockOp :=
  [.request "gpib23" 1 "k1", .request "gpib23" 2 "k1", .request "gpib23" 3 "", .release "gpib23" 1]

/-- Two share, and a third is refused. -/
theorem registry_refines_shared :
    outputs LockRegistry.step .new sharedThenRefused =
      outputs specStep (fun _ => 0) sharedThenRefused :=
  (registry_refines sharedThenRefused (by decide)).1

/-! ## Exclusion -/

/-- The abstract machine is that of the grants. -/
theorem final_specStep (s : Outstanding) (ops : List LockOp) :
    final specStep s ops = final next s (ops.map LockOp.toOp) := by
  rw [final, final, List.foldl_map]
  rfl

/-- Whatever was asked, the grants go together. -/
theorem coherent_outstandingAfter (ops : List LockOp) (resource : String) :
    Coherent (outstandingAfter ops resource) := by
  rw [outstandingAfter, final_specStep]
  exact coherent_final _ (fun _ _ h => absurd h (Multiset.notMem_zero _)) resource

/-- Two who hold compatible grants, or one who holds and one with access, share. -/
theorem LockRegistry.Represents.shared_of_access {n : ℕ} {reg : LockRegistry} {s : Outstanding}
    (h : reg.Represents n s) {resource : String} (hcoh : Coherent (s resource))
    {id other : HolderId} (hne : id ≠ other) (hholds : reg.holds resource id = true) (haccess : reg.hasAccess resource other = true) :
    (reg.info resource).1 = false ∧ reg.holds resource other = true ∧
      ∃ name, (reg.table resource).sharedName = some name := by
  have htable := h.table resource
  obtain ⟨g, hg, rfl⟩ := held_pos_iff.mp (h.holds_iff.mp hholds)
  obtain hzero | ⟨g', hg', rfl⟩ := h.hasAccess_iff.mp haccess
  · rw [hzero] at hg
    exact absurd hg (Multiset.notMem_zero g)
  · have hnone (i : HolderId) : ⟨i, none⟩ ∉ s resource := fun hi =>
      hne ((hcoh.holder_eq hi hg).trans (hcoh.holder_eq hi hg').symm)
    refine ⟨?_, h.holds_iff.mpr (held_pos_iff.mpr ⟨g', hg', rfl⟩), ?_⟩
    · rw [← Bool.not_eq_true, h.info_fst_iff, not_exists]
      exact hnone
    · obtain ⟨i, name⟩ := g
      cases name with
      | none => exact absurd hg (hnone i)
      | some name => exact ⟨name, (htable.mem_shared_iff.mp hg).1⟩

/-- **Exclusion**: in every state of the registry that fewer than `2 ^ 32`
operations lead to, whoever has access to a resource that somebody else holds
shares it with them under one name, and no exclusive lock is on it. -/
theorem access_beside_holder_is_shared (ops : List LockOp) (h : ops.length < 2 ^ 32)
    (resource : String) (id other : HolderId) (hne : id ≠ other)
    (hholds : (registryAfter ops).holds resource id = true)
    (haccess : (registryAfter ops).hasAccess resource other = true) :
    ((registryAfter ops).info resource).1 = false ∧
      (registryAfter ops).holds resource other = true ∧
      ∃ name, ((registryAfter ops).table resource).sharedName = some name :=
  (@represents_after ops 0 h).1.shared_of_access (coherent_outstandingAfter ops resource) hne hholds
    haccess

/-- Nobody excludes those who share. -/
theorem access_beside_holder_shared :
    ((registryAfter (sharedThenRefused.take 3)).info "gpib23").1 = false :=
  (access_beside_holder_is_shared (sharedThenRefused.take 3) (by decide) "gpib23" 1 2 (by decide)
    (by decide +kernel) (by decide +kernel)).1

/-! ## The ledger -/

/-- What an operation and its response do to the count a holder keeps for itself. -/
def account (resource : String) (id : HolderId) (n : ℕ) : LockOp × Option LockResponse → ℕ
  | (.request r i _, response) =>
      if r = resource ∧ i = id ∧ response.any (·.isSuccess) then n + 1 else n
  | (.release r i, response) =>
      if r = resource ∧ i = id ∧ response.any (·.isSuccess) then n - 1 else n
  | (.releaseAll i, _) => if i = id then 0 else n

/-- An operation is entered alike in both accounts. -/
theorem entry_toOp (resource : String) (id : HolderId) (n : ℕ) (op : LockOp) (s : Outstanding) :
    entry resource id n (op.toOp, (next s op.toOp).2.1) =
      account resource id n (op, (specStep s op).2.1) := by
  cases op with
  | request r i lockString =>
      by_cases hadmits : Admits (s r) ⟨i, lockName lockString⟩
      · simp only [LockOp.toOp, specStep, next_request_of_admits hadmits, entry, account]
        cases hname : lockName lockString <;>
          simp [Answer.granting, responseOf, LockResponse.isSuccess]
      · simp [LockOp.toOp, specStep, next_request_of_not_admits hadmits, entry, account, responseOf,
          LockResponse.isSuccess]
  | release r i =>
      simp only [LockOp.toOp, specStep, entry, account, next]
      split
      · simp [responseOf, LockResponse.isSuccess]
      · split <;> simp [responseOf, LockResponse.isSuccess]
  | releaseAll i => rfl

/-- The levels a holder has, from the operations and the responses given. -/
def balance (resource : String) (id : HolderId) (ops : List LockOp) : ℕ :=
  (ops.zip ((outputs LockRegistry.step .new ops).map Prod.fst)).foldl (account resource id) 0

/-- So is a run of them. -/
theorem ledger_toOp (resource : String) (id : HolderId) (s : Outstanding) (n : ℕ) (ops : List LockOp) :
    ledger resource id n
        ((ops.map LockOp.toOp).zip ((outputs next s (ops.map LockOp.toOp)).map Prod.fst)) =
      (ops.zip ((outputs specStep s ops).map Prod.fst)).foldl (account resource id) n := by
  induction ops generalizing s n with
  | nil => rfl
  | cons op ops ih =>
      have hrest := ih (specStep s op).1 (account resource id n (op, (specStep s op).2.1))
      simp only [List.map_cons, outputs, List.zip_cons_cons, ledger, List.foldl_cons] at hrest ⊢
      rw [entry_toOp]
      exact hrest

/-- What is held is the balance of the account. -/
theorem held_outstandingAfter {ops : List LockOp} (h : ops.length < 2 ^ 32) (resource : String)
    (id : HolderId) : held (outstandingAfter ops resource) id = balance resource id ops := by
  rw [outstandingAfter, final_specStep, held_eq_ledger, ledger_toOp, balance,
    (@represents_after ops 0 h).2]
  rfl

/-- **The ledger**: what a holder holds, who has access, and whether a release
is an error can be told from the requests, the releases and their responses, as
long as there are not `2 ^ 32` of them. -/
theorem registry_is_a_ledger (ops : List LockOp) (h : ops.length < 2 ^ 32) (resource : String)
    (id : HolderId) :
    ((registryAfter ops).holds resource id = true ↔ 0 < balance resource id ops) ∧
      ((registryAfter ops).hasAccess resource id = true ↔
        0 < balance resource id ops ∨ ∀ other, balance resource other ops = 0) ∧
      (((registryAfter ops).release resource id).2.1 = .error ↔ balance resource id ops = 0) ∧
      ((registryAfter ops).table resource).exclusiveDepth id +
        ((registryAfter ops).table resource).sharedDepth id = balance resource id ops := by
  have hrep := (@represents_after ops 0 h).1
  have hheld (i : HolderId) := held_outstandingAfter h resource i
  refine ⟨by rw [hrep.holds_iff, hheld], ?_, ?_, ?_⟩
  · rw [hrep.hasAccess_iff, access_iff_held, hheld]
    simp only [hheld]
  · have hresponse := (hrep.release resource id).2
    simp only [LockRegistry.step, specStep, LockOp.toOp, Prod.mk.injEq] at hresponse
    rw [← hheld, ← answer_release_eq_notHeld_iff, ← Option.some_inj, hresponse.1]
    simp only [next]
    split
    · simp [responseOf]
    · split <;> simp [responseOf]
  · rw [← (hrep.table resource).held_eq, hheld]

/-- The second of those who share holds. -/
theorem registry_ledger_shared :
    (registryAfter sharedThenRefused).holds "gpib23" 2 = true :=
  (registry_is_a_ledger sharedThenRefused (by decide) "gpib23" 2).1.mpr (by decide +kernel)

/-! ## Waking -/

/-- Would an attempt be refused right now? -/
def LockRegistry.refuses (reg : LockRegistry) (resource : String) (id : HolderId)
    (lockString : String) : Bool :=
  (reg.tryRequest resource id lockString).2.isNone

/-- A request is refused just when the grants do not admit it. -/
theorem LockRegistry.Represents.refuses_iff {n : ℕ} {reg : LockRegistry} {s : Outstanding}
    (h : reg.Represents (n + 1) s) {resource : String} {id : HolderId} {lockString : String} :
    reg.refuses resource id lockString = true ↔ ¬Admits (s resource) ⟨id, lockName lockString⟩ := by
  have hbound := h.bound resource
  rw [LockRegistry.refuses, LockRegistry.tryRequest]
  by_cases hadmits : Admits (s resource) ⟨id, lockName lockString⟩
  · simp [((h.table resource).tryRequest_of_admits (by omega) hadmits).2, hadmits]
  · simp [(h.table resource).tryRequest_of_not_admits (h.coherent resource) hadmits, hadmits]

/-- **No wake is missed** by those who wait for a lock: an operation that wakes
nobody leaves every refused request refused.  Those who wait for access it can
leave waiting, but only if they have just been granted a shared lock themselves.
Depths are of 32 bits, and the operations before are too few to fill one. -/
theorem no_wake_missed (ops : List LockOp) (h : ops.length + 2 < 2 ^ 32) (op : LockOp)
    (hwoken : ((registryAfter ops).step op).2.2 = false) (resource : String) (id : HolderId) :
    (∀ lockString, (registryAfter ops).refuses resource id lockString = true →
      ((registryAfter ops).step op).1.refuses resource id lockString = true) ∧
      ((registryAfter ops).hasAccess resource id = false →
        ((registryAfter ops).step op).1.hasAccess resource id = true →
        ∃ lockString, op = .request resource id lockString ∧
          ((registryAfter ops).step op).2.1 = some .successShared) := by
  have hrep := (@represents_after ops 2 h).1
  obtain ⟨hrep', hout⟩ := hrep.step op
  have hwoken' : (next (outstandingAfter ops) op.toOp).2.2 = false := by
    rw [hout] at hwoken
    exact hwoken
  constructor
  · intro lockString
    rw [hrep.refuses_iff, hrep'.refuses_iff]
    exact refused_of_not_woken hwoken'
  · rw [← Bool.not_eq_true, hrep.hasAccess_iff, hrep'.hasAccess_iff]
    intro hbefore hafter
    obtain ⟨name, hop, hadmits⟩ := access_of_not_woken hwoken' hbefore hafter
    cases op with
    | request r i lockString =>
        simp only [LockOp.toOp, Op.request.injEq] at hop
        obtain ⟨rfl, rfl, hname⟩ := hop
        refine ⟨lockString, rfl, ?_⟩
        rw [hout, specStep, LockOp.toOp, hname, next_request_of_admits hadmits]
        rfl
    | release r i => cases hop
    | releaseAll i => cases hop

/-- A refused request stays refused when another is. -/
theorem no_wake_missed_shared :
    ((registryAfter (sharedThenRefused.take 2)).step (.request "gpib23" 4 "")).1.refuses
      "gpib23" 3 "" = true :=
  (no_wake_missed (sharedThenRefused.take 2) (by decide) (.request "gpib23" 4 "")
    (by decide +kernel) "gpib23" 3).1 "" (by decide +kernel)

/-! ## The end of a session -/

/-- **A session's end** takes every lock it held at once and nothing else: the
others hold what they held, and a table is stored just for a resource that
somebody still holds.  Again the operations before are too few for a depth to
overflow. -/
theorem releaseAll_frees (ops : List LockOp) (h : ops.length + 1 < 2 ^ 32) (id : HolderId) :
    (∀ resource, (registryAfter (ops ++ [.releaseAll id])).holds resource id = false) ∧
      (∀ resource other, other ≠ id →
        balance resource other (ops ++ [.releaseAll id]) = balance resource other ops) ∧
      ∀ resource,
        (∃ table, (registryAfter (ops ++ [.releaseAll id])).tables.get? resource = some table) ↔
          ∃ other, (registryAfter (ops ++ [.releaseAll id])).holds resource other = true := by
  have hlen : (ops ++ [LockOp.releaseAll id]).length < 2 ^ 32 := by
    rw [List.length_append, List.length_singleton]
    exact h
  have hrep := (@represents_after _ 0 hlen).1
  have hout : outstandingAfter (ops ++ [.releaseAll id]) =
      fun r => (outstandingAfter ops r).filter (·.holder ≠ id) := by
    rw [outstandingAfter, final_append]
    rfl
  refine ⟨fun r => ?_, fun r other hne => ?_, fun r => ?_⟩
  · rw [← Bool.not_eq_true, hrep.holds_iff, hout, held_filter]
    simp
  · rw [← held_outstandingAfter hlen, ← held_outstandingAfter (Nat.lt_of_succ_lt h), hout,
      held_filter, if_neg (Ne.symm hne)]
  · constructor
    · rintro ⟨table, hget⟩
      obtain ⟨g, hg⟩ := Multiset.exists_mem_of_ne_zero (hrep.stored r table hget)
      exact ⟨g.holder, hrep.holds_iff.mpr (held_pos_iff.mpr ⟨g, hg, rfl⟩)⟩
    · rintro ⟨other, hother⟩
      rw [LockRegistry.holds] at hother
      cases hget : (registryAfter (ops ++ [.releaseAll id])).tables.get? r with
      | none =>
          rw [hget] at hother
          cases hother
      | some table => exact ⟨table, rfl⟩

/-- The end of the second leaves it nothing. -/
theorem releaseAll_frees_shared :
    (registryAfter (sharedThenRefused ++ [.releaseAll 2])).holds "gpib23" 2 = false :=
  (releaseAll_frees sharedThenRefused (by decide) 2).1 "gpib23"

end TestGear.Frontend
