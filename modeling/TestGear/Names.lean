import TestGear.Vxi11.Server

/-!
# TestGear.Names

The names by which the two front-ends are asked for an instrument.  The
VXI-11 server reads a device name from its front (`parse_device_name`) and
refuses what it cannot address; the HiSLIP server reads a sub-address from its
end (`parse_subaddress_pad`) and falls back to the default address.

* `sameInstrument_iff` — when one name means one instrument on both;
* `not_sameInstrument_inst0` — the default instrument is not at address 0.
-/

namespace TestGear.Names

open Vxi11 Vxi11.Server

/-! ## The parsers -/

/-- What follows `gpib`, cut at commas. -/
def gpibParts (name : Text) : Option (List Text) :=
  ("gpib".toList.isPrefixOf? name).map (·.splitOn ',')

/-- Parse a create_link device name. -/
def parseDeviceName (name : Text) (defaultPad : UInt8) : Except ErrorCode DeviceAddr :=
  let name := toAsciiLowercase (trim name)
  if name = "inst0".toList then .ok (.pad defaultPad)
  else if name = "gpib0".toList then .ok .interface
  else
    match gpibParts name with
    | none => .error .syntaxError
    | some parts =>
        match parseU8 (parts.headD []) with
        | none => .error .syntaxError
        | some interface =>
            if interface ≠ 0 then .error .deviceNotAccessible
            else
              match parts.tail with
              | [] => .error .syntaxError
              | padStr :: more =>
                  match parseU8 padStr with
                  | none => .error .syntaxError
                  | some pad =>
                      if 30 < pad then .error .invalidAddress
                      else
                        match more with
                        -- a secondary address
                        | _ :: _ => .error .invalidAddress
                        | [] => .ok (.pad pad)

/-- Without the blanks around it and the NULs behind. -/
def bare (sub : Text) : Text := (trim sub).rdropWhile (· == '\x00')

/-- Parse a HiSLIP subaddress into an optional GPIB primary address. -/
def parseSubaddressPad (sub : Text) : Option UInt8 :=
  let s := bare sub
  if s = [] ∨ toAsciiLowercase s = "hislip0".toList ∨ toAsciiLowercase s = "gpib0".toList then none
  else
    let tail := (s.splitOnP fun c => c == ',' || c == ':').getLastD s
    let digits := tail.rtakeWhile Char.isDigit
    if digits = [] then none
    else
      match parseU8 digits with
      | some n => if n ≤ 30 then some n else none
      | none => none

/-- `--pads`: the first is the default. -/
def defaultPad (pads : List UInt8) : UInt8 := pads.headD 0

/-- The address of the device a HiSLIP session is bound to. -/
def deviceFor (pads : List UInt8) (subaddr : Text) : Option UInt8 :=
  some ((parseSubaddressPad subaddr).getD (defaultPad pads))

/-! ## The HiSLIP side -/

/-- The digits a name ends in. -/
def endDigits (name : Text) : Text := (bare name).rtakeWhile Char.isDigit

/-- The number a name ends in, if it ends in one. -/
def endNumber (name : Text) : Option Nat :=
  if endDigits name = [] then none else some (decimal (endDigits name))

/-- The separators are no digits, so the last part ends in the digits the name
does. -/
theorem endDigits_tail (sub : Text) :
    (((bare sub).splitOnP fun c => c == ',' || c == ':').getLastD (bare sub)).rtakeWhile Char.isDigit =
      endDigits sub := by
  rw [List.getLastD_eq_getLast?, getLast?_splitOnP, Option.getD_some, endDigits]
  refine rtakeWhile_rtakeWhile (fun c hc => ?_) (bare sub)
  by_contra hsep
  rcases or_iff_not_imp_left.mpr (by simpa using hsep : ¬ c = ',' → c = ':') with rfl | rfl
  · exact absurd hc (by decide)
  · exact absurd hc (by decide)

/-- **A sub-address** that is not reserved means the number it ends in, if
there is an instrument at such an address. -/
theorem parseSubaddressPad_eq {sub : Text} (hne : bare sub ≠ [])
    (hhislip : toAsciiLowercase (bare sub) ≠ "hislip0".toList)
    (hgpib : toAsciiLowercase (bare sub) ≠ "gpib0".toList) :
    parseSubaddressPad sub =
      (endNumber sub).bind fun n => if n ≤ 30 then some (UInt8.ofNat n) else none := by
  simp only [parseSubaddressPad, hne, hhislip, hgpib, or_self, if_false, endDigits_tail, endNumber]
  by_cases hd : endDigits sub = []
  · rw [if_pos hd, if_pos hd]
    rfl
  · rw [if_neg hd, if_neg hd, parseU8_of_isDigit hd fun c hc => List.mem_rtakeWhile_imp hc]
    generalize decimal (endDigits sub) = n
    simp only [Option.bind_some]
    by_cases hlt : n < 256
    · have hle : UInt8.ofNat n ≤ 30 ↔ n ≤ 30 := by
        rw [UInt8.le_iff_toNat_le, UInt8.toNat_ofNat_of_lt' hlt]
        rfl
      simp only [hlt, hle, if_true]
    · rw [if_neg hlt, if_neg (by omega)]

/-- Nothing reserved has a comma. -/
theorem parseSubaddressPad_of_comma {sub : Text} (h : ',' ∈ toAsciiLowercase (trim sub)) :
    parseSubaddressPad sub =
      (endNumber sub).bind fun n => if n ≤ 30 then some (UInt8.ofNat n) else none := by
  have hbare : ',' ∈ toAsciiLowercase (bare sub) := by
    have hsplit : toAsciiLowercase (trim sub) = toAsciiLowercase (bare sub) ++
        toAsciiLowercase ((trim sub).rtakeWhile (· == '\x00')) := by
      rw [toAsciiLowercase, toAsciiLowercase, toAsciiLowercase, ← List.map_append, bare,
        List.rdropWhile_append_rtakeWhile]
    rw [hsplit, List.mem_append] at h
    refine h.resolve_right fun hmem => ?_
    obtain ⟨c, hc, hlower⟩ := List.mem_map.mp hmem
    have hnul : c = '\x00' := by simpa using List.mem_rtakeWhile_imp hc
    rw [hnul] at hlower
    exact absurd hlower (by decide)
  refine parseSubaddressPad_eq ?_ ?_ ?_
  · rintro hnil
    rw [hnil] at hbare
    cases hbare
  · intro hname
    rw [hname] at hbare
    exact absurd hbare (by decide)
  · intro hname
    rw [hname] at hbare
    exact absurd hbare (by decide)

/-- A name that ends in digits ends in nothing that is stripped. -/
theorem endNumber_of_digits {name pre digits : Text} {c : Char}
    (hname : toAsciiLowercase (trim name) = pre ++ c :: digits) (hc : c.isDigit = false)
    (hne : digits ≠ []) (hdigits : ∀ d ∈ digits, d.isDigit = true) :
    bare name = trim name ∧ endNumber name = some (decimal digits) := by
  have htrim : (trim name).rtakeWhile Char.isDigit = digits := by
    rw [← rtakeWhile_isDigit_toAsciiLowercase, hname]
    exact rtakeWhile_append_cons hc hdigits
  have hbare : bare name = trim name := by
    rw [bare, List.rdropWhile_eq_self_iff]
    intro hne' hnul
    have hlast : ¬ ((trim name).getLast hne').isDigit = true := by
      rw [eq_of_beq hnul]
      decide
    have hnil : (trim name).rtakeWhile Char.isDigit = [] :=
      List.rtakeWhile_eq_nil_iff.mpr fun _ => hlast
    exact hne (htrim.symm.trans hnil)
  exact ⟨hbare, by rw [endNumber, endDigits, hbare, htrim, if_neg hne]⟩

/-- An address as `parse` takes it ends in its number, sign or not. -/
theorem endNumber_of_parseU8 {name pre padStr : Text} {pad : UInt8}
    (hname : toAsciiLowercase (trim name) = pre ++ ',' :: padStr) (hpad : parseU8 padStr = some pad) :
    endNumber name = some pad.toNat := by
  obtain ⟨digits, hstr, hne, hdigits, hvalue⟩ := parseU8_eq_some hpad
  rw [← hvalue]
  rcases hstr with rfl | rfl
  · exact (endNumber_of_digits hname (by decide) hne hdigits).2
  · have hsigned : toAsciiLowercase (trim name) = (pre ++ [',']) ++ '+' :: digits := by
      simpa using hname
    exact (endNumber_of_digits hsigned (by decide) hne hdigits).2

/-- `inst0` is an address to HiSLIP. -/
theorem parseSubaddressPad_inst0 {name : Text} (h : toAsciiLowercase (trim name) = "inst0".toList) :
    parseSubaddressPad name = some 0 := by
  have hname : toAsciiLowercase (trim name) = "ins".toList ++ 't' :: ['0'] := h
  obtain ⟨hbare, hnumber⟩ := endNumber_of_digits hname (by decide) (by decide) (by simp)
  have hne : bare name ≠ [] := by
    intro hnil
    rw [← hbare, hnil] at h
    exact absurd h (by decide)
  rw [parseSubaddressPad_eq hne (by rw [hbare, h]; decide) (by rw [hbare, h]; decide), hnumber]
  rfl

/-! ## The VXI-11 side -/

/-- The name reads `gpib0,<pad>`, with `more` behind it. -/
def Spells (name : Text) (pad : UInt8) (more : List Text) : Prop :=
  ∃ interface padStr, gpibParts (toAsciiLowercase (trim name)) = some (interface :: padStr :: more) ∧
    parseU8 interface = some 0 ∧ parseU8 padStr = some pad

theorem gpibParts_eq_some {name : Text} {parts : List Text} (h : gpibParts name = some parts) :
    name = "gpib".toList ++ [','].intercalate parts := by
  obtain ⟨rest, hrest, rfl⟩ := Option.map_eq_some_iff.mp h
  rw [List.intercalate_splitOn, List.append_eq_of_isPrefixOf?_eq_some hrest]

theorem Spells.comma_mem {name : Text} {pad : UInt8} {more : List Text} (h : Spells name pad more) :
    ',' ∈ toAsciiLowercase (trim name) := by
  obtain ⟨interface, padStr, hparts, -, -⟩ := h
  rw [gpibParts_eq_some hparts]
  cases more <;> simp [List.intercalate]

theorem Spells.endNumber {name : Text} {pad : UInt8} (h : Spells name pad []) :
    endNumber name = some pad.toNat := by
  obtain ⟨interface, padStr, hparts, -, hpad⟩ := h
  have hname : toAsciiLowercase (trim name) = ("gpib".toList ++ interface) ++ ',' :: padStr := by
    rw [gpibParts_eq_some hparts]
    simp [List.intercalate]
  exact endNumber_of_parseU8 hname hpad

/-- What becomes of a name that spells an address. -/
theorem Spells.parseDeviceName {name : Text} {pad : UInt8} {more : List Text}
    (h : Spells name pad more) (defaultPad : UInt8) :
    parseDeviceName name defaultPad =
      if 30 < pad ∨ more ≠ [] then .error .invalidAddress else .ok (.pad pad) := by
  obtain ⟨interface, padStr, hparts, hinterface, hpad⟩ := h
  have hinst : toAsciiLowercase (trim name) ≠ "inst0".toList := by
    intro hname
    rw [hname] at hparts
    cases hparts
  have hgpib : toAsciiLowercase (trim name) ≠ "gpib0".toList := by
    intro hname
    rw [hname] at hparts
    cases hparts
  simp only [Names.parseDeviceName, hinst, hgpib, if_false, hparts, List.headD_cons, hinterface,
    ne_eq, not_true_eq_false, List.tail_cons, hpad]
  by_cases hp : 30 < pad
  · simp [hp]
  · cases more <;> simp [hp]

/-- A name resolves to an address, or is refused as one that cannot be, only if
it is `inst0` or spells an address. -/
theorem parseDeviceName_cases {name : Text} {defaultPad : UInt8} {answer : Except ErrorCode DeviceAddr}
    (h : parseDeviceName name defaultPad = answer)
    (hanswer : (∃ pad, answer = .ok (.pad pad)) ∨ answer = .error .invalidAddress) :
    (toAsciiLowercase (trim name) = "inst0".toList ∧ answer = .ok (.pad defaultPad)) ∨
      ∃ pad more, Spells name pad more := by
  simp only [parseDeviceName] at h
  split at h
  · next hinst => exact Or.inl ⟨hinst, h.symm⟩
  refine Or.inr ?_
  have hsyntax : .error .syntaxError ≠ answer := by
    rintro rfl
    simp at hanswer
  split at h
  · subst h
    simp at hanswer
  split at h
  · exact absurd h hsyntax
  next parts hparts =>
    split at h
    · exact absurd h hsyntax
    next interface hinterface =>
      split at h
      · subst h
        simp at hanswer
      next hzero =>
        split at h
        · exact absurd h hsyntax
        next padStr more htail =>
          split at h
          · exact absurd h hsyntax
          next pad hpad =>
            refine ⟨pad, more, parts.headD [], padStr, ?_, ?_, hpad⟩
            · rw [hparts, ← htail]
              cases parts with
              | nil => cases htail
              | cons part parts => rfl
            · rw [hinterface, not_not.mp hzero]

/-! ## One name, one instrument -/

/-- Both front-ends reach one instrument by this name, and what VXI-11 refuses
HiSLIP does not bind to an address other than the one spelled. -/
structure SameInstrument (pads : List UInt8) (name : Text) : Prop where
  resolved : ∀ pad, parseDeviceName name (defaultPad pads) = .ok (.pad pad) →
    deviceFor pads name = some pad
  refused : ∀ pad more, Spells name pad more →
    parseDeviceName name (defaultPad pads) = .error .invalidAddress →
    ∀ other, deviceFor pads name = some other → other ≤ 30 → other = pad

/-- The address a spelled name is bound to by HiSLIP. -/
theorem Spells.deviceFor {name : Text} {pad : UInt8} {more : List Text} (h : Spells name pad more)
    (pads : List UInt8) :
    deviceFor pads name = some (((Names.endNumber name).bind fun n =>
      if n ≤ 30 then some (UInt8.ofNat n) else none).getD (defaultPad pads)) := by
  rw [Names.deviceFor, parseSubaddressPad_of_comma h.comma_mem]

theorem resolved_iff (pads : List UInt8) (name : Text) :
    (∀ pad, parseDeviceName name (defaultPad pads) = .ok (.pad pad) →
        deviceFor pads name = some pad) ↔
      (toAsciiLowercase (trim name) = "inst0".toList → defaultPad pads = 0) := by
  constructor
  · intro h hinst
    have hpad := h (defaultPad pads) (by rw [parseDeviceName, if_pos hinst])
    rw [deviceFor, parseSubaddressPad_inst0 hinst] at hpad
    exact (Option.some.inj hpad).symm
  · intro h pad hok
    rcases parseDeviceName_cases hok (Or.inl ⟨pad, rfl⟩) with ⟨hinst, hpad⟩ | ⟨pad', more, hspells⟩
    · cases hpad
      rw [deviceFor, parseSubaddressPad_inst0 hinst, h hinst]
      rfl
    · rw [hspells.parseDeviceName] at hok
      split at hok
      · cases hok
      next hvalid =>
        cases hok
        obtain ⟨hle, hmore⟩ := not_or.mp hvalid
        rw [not_not.mp hmore] at hspells
        have hle' : pad.toNat ≤ 30 := by simpa [UInt8.lt_iff_toNat_lt] using hle
        rw [hspells.deviceFor, hspells.endNumber, Option.bind_some, if_pos hle', UInt8.ofNat_toNat]
        rfl

/-- Where a refused name is not bound to another address. -/
theorem refused_iff {pads : List UInt8} {name : Text} {pad : UInt8} {more : List Text}
    (h : Spells name pad more) :
    (∀ other, deviceFor pads name = some other → other ≤ 30 → other = pad) ↔
      (∀ n, endNumber name = some n → n ≤ 30 → n = pad.toNat) ∧
        ((∀ n, endNumber name = some n → 30 < n) → 30 < defaultPad pads ∨ defaultPad pads = pad) := by
  rw [h.deviceFor pads]
  simp only [Option.some.injEq, forall_eq']
  by_cases hn : ∃ n, endNumber name = some n ∧ n ≤ 30
  · obtain ⟨n, hnumber, hle⟩ := hn
    have hpad : UInt8.ofNat n = pad ↔ n = pad.toNat := by
      rw [← UInt8.toNat_inj, UInt8.toNat_ofNat_of_lt' (lt_of_le_of_lt hle (by decide))]
    have hvalid : UInt8.ofNat n ≤ 30 := by
      rw [UInt8.le_iff_toNat_le, UInt8.toNat_ofNat_of_lt' (lt_of_le_of_lt hle (by decide))]
      exact hle
    simp [hnumber, hle, hpad, hvalid]
  · have hnone : ((endNumber name).bind fun n => if n ≤ 30 then some (UInt8.ofNat n) else none) =
        none := by
      cases hnumber : endNumber name with
      | none => rfl
      | some n => exact if_neg fun hle => hn ⟨n, hnumber, hle⟩
    have hlarge : ∀ n, endNumber name = some n → 30 < n := fun n hnumber =>
      not_le.mp fun hle => hn ⟨n, hnumber, hle⟩
    have hsmall : ∀ n, endNumber name = some n → n ≤ 30 → n = pad.toNat := fun n hnumber hle =>
      absurd ⟨n, hnumber, hle⟩ hn
    rw [hnone, Option.getD_none, and_iff_right hsmall, imp_iff_right hlarge,
      imp_iff_not_or, UInt8.not_le]

/-- **One instrument per name** exactly if the default one, which `inst0` means
to VXI-11, is at address 0, and a name that VXI-11 refuses — an address above
30, or one with a secondary address — ends in the number of its primary
address, or in none at which an instrument can be while the default address is
the primary one, or none either. -/
theorem sameInstrument_iff (pads : List UInt8) (name : Text) :
    SameInstrument pads name ↔
      (toAsciiLowercase (trim name) = "inst0".toList → defaultPad pads = 0) ∧
        ∀ pad more, Spells name pad more → (30 < pad ∨ more ≠ []) →
          (∀ n, endNumber name = some n → n ≤ 30 → n = pad.toNat) ∧
            ((∀ n, endNumber name = some n → 30 < n) →
              30 < defaultPad pads ∨ defaultPad pads = pad) := by
  rw [← resolved_iff pads name]
  constructor
  · intro h
    refine ⟨h.resolved, fun pad more hspells hinvalid => ?_⟩
    rw [← refused_iff hspells]
    exact h.refused pad more hspells (by rw [hspells.parseDeviceName, if_pos hinvalid])
  · intro ⟨hresolved, hrefused⟩
    refine ⟨hresolved, fun pad more hspells herror => ?_⟩
    rw [refused_iff hspells]
    refine hrefused pad more hspells ?_
    by_contra hvalid
    rw [hspells.parseDeviceName, if_neg hvalid] at herror
    cases herror

/-- With the only instrument at 22, `inst0` is it on VXI-11, and nothing on
HiSLIP. -/
theorem not_sameInstrument_inst0 : ¬ SameInstrument [22] "inst0".toList := by
  intro h
  exact absurd (h.resolved 22 (by decide +kernel)) (by decide +kernel)

end TestGear.Names
