import TestGear.Dict
import TestGear.Text

/-!
# TestGear.Harness.Registrar

How `harness.py` finds its checks.  `check` notes a name, a rule and the
protocols on a function object; `registrar` hands out an `add` that does so to a
clone and binds it in the module under `_check_generated_{anchor}_{index}`;
`collect` walks what the module binds and sorts it by `_check_order`, or by line.

A module binds a name once, so a registration is lost when its name is bound
again.  The counter of a registrar starts at nought, and two registrars with one
anchor give the same names: `collected_iff`.
-/

namespace TestGear.Registrar

/-- What `check` notes on a function.  `ω` stands for the watchdog and the
status callback, which are only passed on. -/
structure Check (ω : Type) where
  name : Text
  rule : Text := []
  protocols : List Text := ["vxi11".toList, "hislip".toList]
  watch : ω
deriving DecidableEq

/-- A function object: the first line of its code, and what is noted on it. -/
structure Func (ω : Type) where
  line : Int
  check : Option (Check ω) := none
  order : Option (Int × Nat) := none
deriving DecidableEq

/-- A module that is being loaded. -/
structure Module (ω : Type) where
  /-- Every function object there is.  Its place is its identity. -/
  objects : List (Func ω) := []
  /-- `vars(module)`. -/
  vars : Dict Text Nat := ∅
  /-- Each registrar's anchor, and what its counter gives next. -/
  registrars : List (Int × Nat) := []

/-- What a module does as it is loaded. -/
inductive Statement (ω : Type) where
  /-- A function that no check is noted on, such as a factory makes. -/
  | make (line : Int)
  /-- `@check(...)` over `def name(...)`. -/
  | define (name : Text) (line : Int) (check : Check ω)
  /-- `registrar(globals(), anchor)`, called on `line`. -/
  | registrar (anchor : Option Int) (line : Int)
  /-- `add(func, ...)` of a registrar. -/
  | add (registrar func : Nat) (check : Check ω)
deriving DecidableEq

variable {ω : Type}

namespace Module

/-- A new function object. -/
def alloc (m : Module ω) (f : Func ω) : Module ω := { m with objects := m.objects ++ [f] }

/-- `check(...)(func)`. -/
def noteCheck (m : Module ω) (func : Nat) (check : Check ω) : Module ω :=
  { m with objects := m.objects.modify func fun f => { f with check := some check } }

/-- `func._check_order = order`. -/
def noteOrder (m : Module ω) (func : Nat) (order : Int × Nat) : Module ω :=
  { m with objects := m.objects.modify func fun f => { f with order := some order } }

/-- `namespace[name] = func`. -/
def bind (m : Module ω) (name : Text) (func : Nat) : Module ω := { m with vars := m.vars.set name func }

end Module

/-- The name a generated check is bound under. -/
def key (anchor : Int) (index : Nat) : Text :=
  "_check_generated_".toList ++ intText anchor ++ '_' :: natText index

/-- One statement.  `none` is a name that is not there. -/
def step (m : Module ω) : Statement ω → Option (Module ω)
  | .make line => some (m.alloc { line })
  | .define name line check =>
      let func := m.objects.length
      some (((m.alloc { line }).noteCheck func check).bind name func)
  | .registrar anchor line =>
      some { m with registrars := m.registrars ++ [(anchor.getD line, 0)] }
  | .add registrar func check => do
      let (anchor, index) ← m.registrars[registrar]?
      let original ← m.objects[func]?
      let m := { m with registrars := m.registrars.set registrar (anchor, index + 1) }
      -- a clone, with all that is noted on the original
      let clone := m.objects.length
      let m := (m.alloc original).noteCheck clone check
      some ((m.noteOrder clone (anchor, index)).bind (key anchor index) clone)

/-- Load a module. -/
def load (statements : List (Statement ω)) : Option (Module ω) := statements.foldlM step {}

/-- Where a check sorts among its neighbours. -/
def orderOf (f : Func ω) : Int × Nat := f.order.getD (f.line, 0)

/-- The protocols noted on a function. -/
def Func.protocols (f : Func ω) : List Text := (f.check.map Check.protocols).getD []

/-- Every check of a module, in order, or those for one protocol. -/
def collect (m : Module ω) (protocol : Option Text) : List (Func ω) :=
  let found := (m.vars.values.filterMap (m.objects[·]?)).filter (·.check.isSome)
  let found := found.mergeSort fun f g => toLex (orderOf f) ≤ toLex (orderOf g)
  match protocol with
  | none => found
  | some protocol => found.filter (·.protocols.contains protocol)

/-! ## What was registered -/

/-- A registration: what was noted, and where it sorts. -/
structure Registration (ω : Type) where
  check : Check ω
  order : Int × Nat
deriving DecidableEq

/-- What a function is registered as. -/
def Func.registration (f : Func ω) : Option (Registration ω) := f.check.map (⟨·, orderOf f⟩)

/-- The anchors of the registrars made by these statements. -/
def anchors (statements : List (Statement ω)) : List Int :=
  statements.filterMap fun
    | .registrar anchor line => some (anchor.getD line)
    | _ => none

/-- Is this an `add` of the registrar? -/
def Statement.addsTo (registrar : Nat) : Statement ω → Bool
  | .add r _ _ => r == registrar
  | _ => false

/-- How many checks were added to a registrar. -/
def adds (statements : List (Statement ω)) (registrar : Nat) : Nat :=
  statements.countP (·.addsTo registrar)

/-- The names of the functions written by hand. -/
def handWritten (statements : List (Statement ω)) : List Text :=
  statements.filterMap fun
    | .define name _ _ => some name
    | _ => none

/-- What a statement registers, behind others, and under which name. -/
def Statement.registers (before : List (Statement ω)) : Statement ω → Option (Text × Registration ω)
  | .define name line check => some (name, ⟨check, (line, 0)⟩)
  | .add r _ check =>
      (anchors before)[r]?.map fun anchor =>
        (key anchor (adds before r), ⟨check, (anchor, adds before r)⟩)
  | .make _ | .registrar _ _ => none

/-- All that statements register, in turn. -/
def registrations (before : List (Statement ω)) :
    List (Statement ω) → List (Text × Registration ω)
  | [] => []
  | s :: rest => (s.registers before).toList ++ registrations (before ++ [s]) rest

/-- `collect` returns each registration once, in order, and for a protocol those
that have it. -/
structure Collected (statements : List (Statement ω)) (m : Module ω) : Prop where
  once : ((collect m none).map Func.registration).Perm
    ((registrations [] statements).map fun p => some p.2)
  sorted : (collect m none).Pairwise fun f g => toLex (orderOf f) ≤ toLex (orderOf g)
  protocol : ∀ protocol, collect m (some protocol) =
    (collect m none).filter (·.protocols.contains protocol)

/-- No name is bound twice. -/
structure NoClash (statements : List (Statement ω)) : Prop where
  /-- Registrars that add have anchors of their own. -/
  distinct : ∀ r s anchor, r ≠ s → (anchors statements)[r]? = some anchor →
    (anchors statements)[s]? = some anchor → adds statements r = 0 ∨ adds statements s = 0
  names : (handWritten statements).Nodup
  apart : ∀ r anchor, (anchors statements)[r]? = some anchor →
    ∀ i < adds statements r, key anchor i ∉ handWritten statements

/-! ## What a statement does -/

section

variable {statements : List (Statement ω)} {m m' : Module ω}

/-- Modifying the last element. -/
theorem modify_concat {α : Type*} (xs : List α) (x : α) (f : α → α) :
    (xs ++ [x]).modify xs.length f = xs ++ [f x] := by
  induction xs with
  | nil => rfl
  | cons y ys ih => rw [List.cons_append, List.length_cons, List.modify_succ_cons, ih, List.cons_append]

/-- A new check, bound under a name. -/
def Module.register (m : Module ω) (name : Text) (f : Func ω) : Module ω :=
  { m with objects := m.objects ++ [f], vars := m.vars.set name m.objects.length }

/-- A definition binds its name to a new function. -/
theorem step_define (m : Module ω) (name : Text) (line : Int) (check : Check ω) :
    step m (.define name line check) = some (m.register name { line, check }) := by
  simp only [step, Module.alloc, Module.noteCheck, Module.bind, modify_concat, Module.register]

/-- A registration binds a key that the registrar makes up, and moves its index
on. -/
theorem step_add {r func : Nat} {check : Check ω} (h : step m (.add r func check) = some m') :
    ∃ anchor index line, m.registrars[r]? = some (anchor, index) ∧
      m' = { m with registrars := m.registrars.set r (anchor, index + 1) }.register
        (key anchor index) { line, check, order := some (anchor, index) } := by
  simp only [step, Option.bind_eq_bind, Option.bind_eq_some_iff] at h
  obtain ⟨⟨anchor, index⟩, hr, original, -, hm⟩ := h
  refine ⟨anchor, index, original.line, hr, ?_⟩
  rw [← Option.some.inj hm]
  simp only [Module.alloc, Module.noteCheck, Module.noteOrder, Module.bind, modify_concat,
    Module.register]

/-! ## What is bound -/

/-- One statement more registers what it registers itself. -/
theorem registrations_concat (before statements : List (Statement ω)) (s : Statement ω) :
    registrations before (statements ++ [s]) =
      registrations before statements ++ (s.registers (before ++ statements)).toList := by
  induction statements generalizing before with
  | nil => simp [registrations]
  | cons t rest ih =>
      rw [List.cons_append, registrations, registrations, ih, List.append_assoc, List.append_assoc,
        List.singleton_append]

/-- What a function object is registered as. -/
def Module.registered (m : Module ω) (func : Nat) : Option (Registration ω) :=
  m.objects[func]?.bind Func.registration

/-- A module binds the last registration under each name, and its registrars
count. -/
structure Binds (statements : List (Statement ω)) (m : Module ω) : Prop where
  registrars : m.registrars = (anchors statements).mapIdx fun r anchor => (anchor, adds statements r)
  made : ∀ r, (anchors statements).length ≤ r → adds statements r = 0
  vars : m.vars.items.map (Prod.map id m.registered) =
    (Dict.ofList (registrations [] statements)).items.map (Prod.map id some)

/-- And makes a registrar if it is a construction. -/
theorem anchors_concat (statements : List (Statement ω)) (s : Statement ω) :
    anchors (statements ++ [s]) = anchors statements ++ anchors [s] := List.filterMap_append

/-- It counts for the registrar it adds to. -/
theorem adds_concat (statements : List (Statement ω)) (s : Statement ω) (r : Nat) :
    adds (statements ++ [s]) r = adds statements r + if s.addsTo r then 1 else 0 := by
  rw [adds, List.countP_append, List.countP_singleton]
  rfl

/-- What adds to no registrar moves no counter. -/
theorem adds_concat_of_still {s : Statement ω} (h : ∀ r, s.addsTo r = false)
    (statements : List (Statement ω)) : adds (statements ++ [s]) = adds statements := by
  funext r
  rw [adds_concat, h r]
  rfl

/-- A new object changes nothing that is bound. -/
theorem map_registered_append {items : List (Text × Nat)} {bound : List (Text × Registration ω)}
    (h : items.map (Prod.map id m.registered) = bound.map (Prod.map id some))
    {f : Func ω} (hobjects : m'.objects = m.objects ++ [f]) :
    items.map (Prod.map id m'.registered) = bound.map (Prod.map id some) := by
  rw [← h]
  refine List.map_congr_left fun p hp => ?_
  have hmem : Prod.map id m.registered p ∈ bound.map (Prod.map id some) :=
    h ▸ List.mem_map_of_mem hp
  obtain ⟨q, -, hq⟩ := List.mem_map.mp hmem
  have hsome : m.registered p.2 = some q.2 := (congrArg Prod.snd hq).symm
  obtain ⟨g, hg, -⟩ := Option.bind_eq_some_iff.mp hsome
  have hlt := (List.getElem?_eq_some_iff.mp hg).1
  refine Prod.ext rfl ?_
  show m'.registered p.2 = m.registered p.2
  rw [Module.registered, Module.registered, hobjects, List.getElem?_append_left hlt]

/-- Binding a new check. -/
theorem vars_register {bound : List (Text × Registration ω)} {registration : Registration ω}
    (h : m.vars.items.map (Prod.map id m.registered) =
      (Dict.ofList bound).items.map (Prod.map id some)) (name : Text) {f : Func ω}
    (hf : f.registration = some registration) :
    (m.register name f).vars.items.map (Prod.map id (m.register name f).registered) =
      (Dict.ofList (bound ++ [(name, registration)])).items.map (Prod.map id some) := by
  have hnew : (m.register name f).registered m.objects.length = some registration := by
    rw [Module.registered, Module.register, List.getElem?_concat_length]
    exact hf
  have hold := @map_registered_append _ _ (m.register name f) _ _ h f rfl
  rw [Dict.items_ofList_concat, Dict.map_assign, ← hold, ← hnew]
  exact Dict.map_assign _ _ _ _

/-- Statements that make no registrar and use none. -/
theorem Binds.still {s : Statement ω} (h : Binds statements m) (hanchors : anchors [s] = [])
    (hadds : ∀ r, s.addsTo r = false) (hregistrars : m'.registrars = m.registrars)
    (hvars : m'.vars.items.map (Prod.map id m'.registered) =
      (Dict.ofList (registrations [] (statements ++ [s]))).items.map (Prod.map id some)) :
    Binds (statements ++ [s]) m' where
  registrars := by
    rw [anchors_concat, hanchors, List.append_nil, adds_concat_of_still hadds, hregistrars]
    exact h.registrars
  made := by
    rw [anchors_concat, hanchors, List.append_nil, adds_concat_of_still hadds]
    exact h.made
  vars := hvars

/-- A function that is not decorated binds nothing. -/
theorem Binds.make (h : Binds statements m) (line : Int) :
    Binds (statements ++ [.make line]) (m.alloc { line }) := by
  refine h.still rfl (fun _ => rfl) rfl ?_
  rw [registrations_concat, Statement.registers, Option.toList_none, List.append_nil]
  exact map_registered_append h.vars rfl

/-- A decorated one binds its name. -/
theorem Binds.define (h : Binds statements m) (name : Text) (line : Int) (check : Check ω) :
    Binds (statements ++ [.define name line check]) (m.register name { line, check }) := by
  refine h.still rfl (fun _ => rfl) rfl ?_
  rw [registrations_concat]
  exact vars_register h.vars name rfl

/-- A registrar binds nothing either. -/
theorem Binds.registrar (h : Binds statements m) (anchor : Option Int) (line : Int) :
    Binds (statements ++ [.registrar anchor line])
      { m with registrars := m.registrars ++ [(anchor.getD line, 0)] } := by
  have hadds := @adds_concat_of_still _ (.registrar anchor line : Statement ω) (fun _ => rfl) statements
  have hanchors : anchors (statements ++ [.registrar anchor line]) =
      anchors statements ++ [anchor.getD line] := anchors_concat _ _
  refine ⟨?_, fun r hr => ?_, ?_⟩
  · -- nothing has been added to it yet
    rw [hadds, hanchors, List.mapIdx_concat, h.made _ (Nat.le_refl _), ← h.registrars]
  · rw [hanchors, List.length_append] at hr
    rw [hadds]
    exact h.made r (Nat.le_of_add_right_le hr)
  · rw [registrations_concat, Statement.registers, Option.toList_none, List.append_nil]
    exact h.vars

section

variable {r func : Nat} {check : Check ω}

/-- An `add`, where the registrars count. -/
theorem Binds.step_add (h : Binds statements m) (hstep : step m (.add r func check) = some m') :
    ∃ anchor line, (anchors statements)[r]? = some anchor ∧
      m' = { m with registrars := m.registrars.set r (anchor, adds statements r + 1) }.register
        (key anchor (adds statements r))
        { line, check, order := some (anchor, adds statements r) } := by
  obtain ⟨anchor, index, line, hr, rfl⟩ := Registrar.step_add hstep
  rw [h.registrars, List.getElem?_mapIdx] at hr
  obtain ⟨a, ha, heq⟩ := Option.map_eq_some_iff.mp hr
  obtain ⟨rfl, rfl⟩ := Prod.mk.inj heq
  exact ⟨a, line, ha, rfl⟩

/-- What an addition registers. -/
theorem registrations_add {anchor : Int} (ha : (anchors statements)[r]? = some anchor) :
    registrations [] (statements ++ [.add r func check]) = registrations [] statements ++
      [(key anchor (adds statements r), ⟨check, (anchor, adds statements r)⟩)] := by
  rw [registrations_concat, List.nil_append, Statement.registers, ha]
  rfl

/-- An addition binds the key it makes up. -/
theorem Binds.add (h : Binds statements m) (hstep : step m (.add r func check) = some m') :
    Binds (statements ++ [.add r func check]) m' := by
  obtain ⟨a, line, ha, rfl⟩ := h.step_add hstep
  have hanchors : anchors (statements ++ [.add r func check]) = anchors statements :=
    (anchors_concat _ _).trans (List.append_nil _)
  refine ⟨?_, fun q hq => ?_, ?_⟩
  · rw [hanchors]
    refine List.ext_getElem? fun q => ?_
    simp only [Module.register, h.registrars, List.getElem?_set, List.getElem?_mapIdx, adds_concat]
    by_cases hq : r = q
    · subst hq
      obtain ⟨hlt, hget⟩ := List.getElem?_eq_some_iff.mp ha
      simp [Statement.addsTo, hlt, hget]
    · simp [Statement.addsTo, hq]
  · rw [hanchors] at hq
    have hlt := (List.getElem?_eq_some_iff.mp ha).1
    have hne : r ≠ q := by omega
    rw [adds_concat, h.made q hq]
    simp [Statement.addsTo, hne]
  · rw [registrations_add ha]
    exact @vars_register _ { m with registrars := _ } _ _ h.vars _ _ rfl

end

/-- The last statement of a load, taken off. -/
theorem load_concat {s : Statement ω} (h : load (statements ++ [s]) = some m) :
    ∃ before, load statements = some before ∧ step before s = some m := by
  rw [load, List.foldlM_append, Option.bind_eq_bind, Option.bind_eq_some_iff] at h
  obtain ⟨before, hbefore, hs⟩ := h
  rw [List.foldlM_cons] at hs
  obtain ⟨after, hstep, hafter⟩ := Option.bind_eq_some_iff.mp hs
  exact ⟨before, hbefore, hstep.trans hafter⟩

/-- **A loaded module** binds the last registration under each name. -/
theorem binds_of_load (h : load statements = some m) : Binds statements m := by
  induction statements using List.reverseRecOn generalizing m with
  | nil =>
      obtain rfl := Option.some.inj h
      exact ⟨rfl, fun _ _ => rfl, rfl⟩
  | append_singleton statements s ih =>
      obtain ⟨before, hbefore, hstep⟩ := load_concat h
      have hbinds := ih hbefore
      cases s with
      | make line => exact Option.some.inj hstep ▸ hbinds.make line
      | define name line check =>
          rw [step_define] at hstep
          exact Option.some.inj hstep ▸ hbinds.define name line check
      | registrar anchor line => exact Option.some.inj hstep ▸ hbinds.registrar anchor line
      | add r func check => exact hbinds.add hstep

/-! ## What is collected -/

/-- The functions bound are those with a check. -/
theorem map_registration_filter {funcs : List Nat} {bound : List (Registration ω)}
    (h : funcs.map m.registered = bound.map some) :
    ((funcs.filterMap (m.objects[·]?)).filter (·.check.isSome)).map Func.registration =
      bound.map some := by
  induction funcs generalizing bound with
  | nil =>
      rw [← h]
      rfl
  | cons func funcs ih =>
      cases bound with
      | nil => cases h
      | cons registration bound =>
          obtain ⟨hfunc, hrest⟩ := List.cons.inj h
          obtain ⟨f, hf, hregistration⟩ := Option.bind_eq_some_iff.mp hfunc
          obtain ⟨check, hcheck, -⟩ := Option.map_eq_some_iff.mp hregistration
          rw [List.filterMap_cons_some hf, List.filter_cons_of_pos (by rw [hcheck]; rfl), List.map_cons,
            ih hrest, hregistration, List.map_cons]

/-- What is collected is the last registration under each name. -/
theorem collect_perm (h : Binds statements m) :
    ((collect m none).map Func.registration).Perm
      ((Dict.ofList (registrations [] statements)).items.map fun p => some p.2) := by
  have hvalues : m.vars.values.map m.registered =
      ((Dict.ofList (registrations [] statements)).items.map Prod.snd).map some := by
    have hsnd := congrArg (List.map Prod.snd) h.vars
    simpa [Dict.values, List.map_map, Function.comp_def] using hsnd
  have hfound := map_registration_filter hvalues
  rw [List.map_map] at hfound
  rw [← Function.comp_def, ← hfound]
  exact (List.mergeSort_perm _ _).map _

/-- They are collected in the order of their keys. -/
theorem sorted_collect (m : Module ω) :
    (collect m none).Pairwise fun f g => toLex (orderOf f) ≤ toLex (orderOf g) := by
  have hsorted := @List.pairwise_mergeSort (Func ω)
    (fun f g => decide (toLex (orderOf f) ≤ toLex (orderOf g)))
    (fun f g h hfg hgh => by simpa using le_trans (by simpa using hfg) (by simpa using hgh))
    (fun f g => by simpa using le_total (toLex (orderOf f)) (toLex (orderOf g)))
    ((m.vars.values.filterMap (m.objects[·]?)).filter (·.check.isSome))
  simpa [collect] using hsorted

/-- Everything is collected just when no name is bound twice. -/
theorem collected_iff_nodup (h : Binds statements m) :
    Collected statements m ↔ ((registrations [] statements).map Prod.fst).Nodup := by
  rw [← Dict.length_items_ofList_iff]
  constructor
  · intro hcollected
    simpa using ((collect_perm h).symm.trans hcollected.once).length_eq
  · intro hlen
    refine ⟨?_, sorted_collect m, fun _ => rfl⟩
    have hall := Dict.items_ofList_of_nodup (Dict.length_items_ofList_iff.mp hlen)
    have hperm := collect_perm h
    rwa [hall] at hperm

/-! ## The names -/

/-- The name says which check of which registrar. -/
theorem eq_of_key_eq {a b : Int} {i j : Nat} (h : key a i = key b j) : a = b ∧ i = j := by
  unfold key at h
  rw [List.append_assoc, List.append_assoc] at h
  have htail := List.append_cancel_left h
  have hdigits : '_' ∉ natText i := Nat.underscore_not_in_toDigits
  have hparts := (List.append_cons_inj_of_notMem (underscore_notMem_intText a) hdigits).mp htail
  exact ⟨intText_injective hparts.1, natText_injective hparts.2.2⟩

/-- The names of the generated checks, registrar by registrar. -/
def generated (anchors : List Int) (counts : Nat → Nat) : List Text :=
  (anchors.mapIdx fun r anchor => (List.range (counts r)).map (key anchor)).flatten

/-- A generated key is one that some registrar makes up. -/
theorem mem_generated {as : List Int} {counts : Nat → Nat} {name : Text} :
    name ∈ generated as counts ↔
      ∃ r anchor, as[r]? = some anchor ∧ ∃ i < counts r, key anchor i = name := by
  simp only [generated, List.mem_flatten, List.mem_mapIdx]
  constructor
  · rintro ⟨names, ⟨r, hr, rfl⟩, hname⟩
    obtain ⟨i, hi, hkey⟩ := List.mem_map.mp hname
    exact ⟨r, _, List.getElem?_eq_getElem hr, i, List.mem_range.mp hi, hkey⟩
  · rintro ⟨r, anchor, hr, i, hi, hkey⟩
    obtain ⟨hlt, hget⟩ := List.getElem?_eq_some_iff.mp hr
    refine ⟨_, ⟨r, hlt, rfl⟩, ?_⟩
    rw [hget]
    exact List.mem_map.mpr ⟨i, List.mem_range.mpr hi, hkey⟩

/-- A registrar that nothing was added to. -/
theorem generated_concat {as : List Int} {counts : Nat → Nat} (h : counts as.length = 0)
    (anchor : Int) : generated (as ++ [anchor]) counts = generated as counts := by
  rw [generated, List.mapIdx_concat, h, List.flatten_append]
  exact List.append_nil _

/-- One check more. -/
theorem generated_add {as : List Int} {r : Nat} {anchor : Int} (hr : as[r]? = some anchor)
    {counts counts' : Nat → Nat} (hmore : counts' r = counts r + 1)
    (hsame : ∀ q, q ≠ r → counts' q = counts q) :
    (generated as counts').Perm (key anchor (counts r) :: generated as counts) := by
  induction as generalizing r counts counts' with
  | nil => cases hr
  | cons a as ih =>
      simp only [generated, List.mapIdx_cons, List.flatten_cons]
      cases r with
      | zero =>
          obtain rfl := Option.some.inj hr
          have hrest : (fun i => counts' (i + 1)) = fun i => counts (i + 1) :=
            funext fun i => hsame (i + 1) (Nat.succ_ne_zero i)
          rw [hmore, List.range_succ, List.map_append, List.append_assoc]
          simp only [funext_iff] at hrest
          simp only [hrest]
          exact List.perm_middle
      | succ r =>
          rw [hsame 0 (Nat.succ_ne_zero r).symm]
          have hrest := @ih r hr (fun i => counts (i + 1)) (fun i => counts' (i + 1)) hmore
            (fun q hq => hsame (q + 1) fun h => hq (Nat.succ.inj h))
          exact (hrest.append_left _).trans List.perm_middle

/-- Each name is a function's own, or generated. -/
theorem names_perm (h : load statements = some m) :
    ((registrations [] statements).map Prod.fst).Perm
      (handWritten statements ++ generated (anchors statements) (adds statements)) := by
  induction statements using List.reverseRecOn generalizing m with
  | nil => exact .nil
  | append_singleton statements s ih =>
      obtain ⟨before, hbefore, hstep⟩ := load_concat h
      have hnames := ih hbefore
      have hbinds := binds_of_load hbefore
      have hhand : handWritten (statements ++ [s]) = handWritten statements ++ handWritten [s] :=
        List.filterMap_append
      rw [hhand, anchors_concat]
      cases s with
      | make line =>
          have hadds := @adds_concat_of_still _ (.make line : Statement ω) (fun _ => rfl) statements
          simpa [registrations_concat, Statement.registers, handWritten, anchors, hadds] using hnames
      | define name line check =>
          have hadds := @adds_concat_of_still _ (.define name line check : Statement ω) (fun _ => rfl)
            statements
          rw [hadds, List.append_assoc, registrations_concat, List.map_append]
          show (_ ++ [name]).Perm (_ ++ ([name] ++ generated (_ ++ []) _))
          rw [List.append_nil]
          refine (hnames.append_right [name]).trans ?_
          rw [List.append_assoc]
          exact List.perm_append_comm.append_left _
      | registrar anchor line =>
          have hadds := @adds_concat_of_still _ (.registrar anchor line : Statement ω) (fun _ => rfl)
            statements
          rw [hadds, registrations_concat, List.map_append]
          show (_ ++ []).Perm (_ ++ [] ++ generated (anchors statements ++ [anchor.getD line]) _)
          rw [generated_concat (hbinds.made _ (Nat.le_refl _)), List.append_nil, List.append_nil]
          exact hnames
      | add r func check =>
          obtain ⟨a, line, ha, -⟩ := hbinds.step_add hstep
          have hadded := @generated_add _ r a ha (adds statements)
            (adds (statements ++ [.add r func check])) (by simp [adds_concat, Statement.addsTo])
            (fun q hq => by simp [adds_concat, Statement.addsTo, hq.symm])
          rw [registrations_add ha, List.map_append]
          show (_ ++ [key a (adds statements r)]).Perm (_ ++ [] ++ generated (_ ++ []) _)
          rw [List.append_nil, List.append_nil]
          refine (hnames.append_right _).trans ?_
          rw [List.append_assoc]
          exact (List.perm_append_comm.trans hadded.symm).append_left _

/-- None comes twice unless two registrars of one anchor both make up keys. -/
theorem nodup_generated_iff {as : List Int} {counts : Nat → Nat} :
    (generated as counts).Nodup ↔ ∀ r s anchor, r ≠ s → as[r]? = some anchor →
      as[s]? = some anchor → counts r = 0 ∨ counts s = 0 := by
  rw [generated, List.nodup_flatten, List.pairwise_iff_getElem]
  constructor
  · rintro ⟨-, hdisjoint⟩
    have hlt (r s : Nat) (anchor : Int) (hrs : r < s) (hr : as[r]? = some anchor)
        (hs : as[s]? = some anchor) : counts r = 0 ∨ counts s = 0 := by
      obtain ⟨hrlt, hrget⟩ := List.getElem?_eq_some_iff.mp hr
      obtain ⟨hslt, hsget⟩ := List.getElem?_eq_some_iff.mp hs
      by_contra hboth
      -- both have bound the first name of the anchor
      have hapart := hdisjoint r s (by simpa using hrlt) (by simpa using hslt) hrs
      rw [List.getElem_mapIdx, List.getElem_mapIdx, hrget, hsget] at hapart
      have hfirst (q : Nat) (hq : counts q ≠ 0) :
          key anchor 0 ∈ (List.range (counts q)).map (key anchor) :=
        List.mem_map.mpr ⟨0, List.mem_range.mpr (Nat.pos_of_ne_zero hq), rfl⟩
      exact hapart (hfirst r fun h => hboth (.inl h)) (hfirst s fun h => hboth (.inr h))
    intro r s anchor hne hr hs
    rcases Nat.lt_or_gt_of_ne hne with hrs | hsr
    · exact hlt r s anchor hrs hr hs
    · exact (hlt s r anchor hsr hs hr).symm
  · intro hapart
    refine ⟨fun names hnames => ?_, fun r s hr hs hrs name hleft hright => ?_⟩
    · obtain ⟨r, hr, rfl⟩ := List.mem_mapIdx.mp hnames
      exact List.nodup_range.map fun i j h => (eq_of_key_eq h).2
    · rw [List.getElem_mapIdx] at hleft hright
      obtain ⟨i, hi, rfl⟩ := List.mem_map.mp hleft
      obtain ⟨j, hj, hkey⟩ := List.mem_map.mp hright
      have hanchor := (eq_of_key_eq hkey).1
      have hzero := hapart r s _ (Nat.ne_of_lt hrs) (List.getElem?_eq_getElem _)
        (by rw [← hanchor]; exact List.getElem?_eq_getElem _)
      rw [List.mem_range] at hi hj
      omega

/-- So no name is bound twice just when there is no clash. -/
theorem nodup_names_iff (h : load statements = some m) :
    ((registrations [] statements).map Prod.fst).Nodup ↔ NoClash statements := by
  rw [(names_perm h).nodup_iff, List.nodup_append', nodup_generated_iff]
  constructor
  · rintro ⟨hnames, hdistinct, hdisjoint⟩
    refine ⟨hdistinct, hnames, fun r anchor hr i hi hmem => ?_⟩
    exact hdisjoint hmem (mem_generated.mpr ⟨r, anchor, hr, i, hi, rfl⟩)
  · rintro ⟨hdistinct, hnames, hapart⟩
    refine ⟨hnames, hdistinct, fun name hmem hgenerated => ?_⟩
    obtain ⟨r, anchor, hr, i, hi, rfl⟩ := mem_generated.mp hgenerated
    exact hapart r anchor hr i hi hmem

/-- **Every registration once**: `collect` returns them all just when no two
registrars that add share an anchor, and no function written by hand takes a
name that is bound again. -/
theorem collected_iff (h : load statements = some m) :
    Collected statements m ↔ NoClash statements :=
  (collected_iff_nodup (binds_of_load h)).trans (nodup_names_iff h)

end

/-- A function added twice, once for each transport, and one by hand. -/
def twoNames : List (Statement Unit) :=
  [.make 7, .registrar none 40, .add 0 0 { name := "locks".toList, watch := () },
    .add 0 0 { name := "locks twice".toList, watch := () },
    .define "test_smoke".toList 12 { name := "smoke".toList, watch := () },
    .registrar (some 40) 90]

/-- Two registrars with one anchor, and a check of each. -/
def sharedAnchor : List (Statement Unit) :=
  [.make 7, .registrar (some 40) 50, .registrar (some 40) 60,
    .add 0 0 { name := "locks".toList, watch := () },
    .add 1 0 { name := "clears".toList, watch := () }]

/-- A second registrar that adds nothing may share the anchor. -/
theorem collected_twoNames : ∃ m, load twoNames = some m ∧ Collected twoNames m := by
  obtain ⟨m, hm⟩ : ∃ m, load twoNames = some m := Option.isSome_iff_exists.mp (by decide +kernel)
  have hadds (q : Nat) (hq : q ≠ 0) : adds twoNames q = 0 := by
    simp [adds, twoNames, Statement.addsTo, hq.symm]
  refine ⟨m, hm, (collected_iff hm).mpr ⟨fun r s anchor hne hr hs => ?_, by decide, ?_⟩⟩
  · by_cases hzero : r = 0
    · exact .inr (hadds s (hzero ▸ hne.symm))
    · exact .inl (hadds r hzero)
  · intro r anchor hr i hi hmem
    have hkey : key anchor i = "test_smoke".toList := List.mem_singleton.mp hmem
    have hhead : some '_' = some 't' := congrArg List.head? hkey
    exact absurd hhead (by decide)

/-- The first check of the second registrar takes the place of the first's. -/
theorem sharedAnchor_drops : ∃ m, load sharedAnchor = some m ∧ ¬ Collected sharedAnchor m := by
  obtain ⟨m, hm⟩ : ∃ m, load sharedAnchor = some m := Option.isSome_iff_exists.mp (by decide +kernel)
  refine ⟨m, hm, fun hcollected => ?_⟩
  have hone : (load sharedAnchor).map (fun m => (collect m none).length) = some 1 := by decide +kernel
  have htwo : (registrations [] sharedAnchor).length = 2 := by decide +kernel
  rw [hm, Option.map_some, Option.some.injEq] at hone
  have hlen := hcollected.once.length_eq
  rw [List.length_map, List.length_map, hone, htwo] at hlen
  exact absurd hlen (by decide)

end TestGear.Registrar
