import TestGear.Regex
import TestGear.Harness

/-!
# TestGear.SpecRules

`spec_rules.py`: the inventory of the statements in a specification.
`parseVxibus` goes through the lines of a document with a cursor that remembers
the last section heading; behind a line such as `RULE 3.2.3` an inner loop takes
the body, and the cursor goes on where that loop stopped.

* `bodyLoop_eq` — the body is the paragraph that follows, up to twelve lines of
  it: the inner loop stops at a rule line and at a blank one, but at no heading;
* `not_isRuleLine_of_sectionOf` — no line is both.
-/

namespace TestGear.SpecRules

open Harness (isSpace)
open Regex

/-! ## Patterns -/

/-- The zeros of the decimal digits of Unicode 15.0, each the first of ten. -/
def decimalZeros : List Nat :=
  [0x30, 0x660, 0x6F0, 0x7C0, 0x966, 0x9E6, 0xA66, 0xAE6, 0xB66, 0xBE6, 0xC66, 0xCE6, 0xD66, 0xDE6,
    0xE50, 0xED0, 0xF20, 0x1040, 0x1090, 0x17E0, 0x1810, 0x1946, 0x19D0, 0x1A80, 0x1A90, 0x1B50,
    0x1BB0, 0x1C40, 0x1C50, 0xA620, 0xA8D0, 0xA900, 0xA9D0, 0xA9F0, 0xAA50, 0xABF0, 0xFF10, 0x104A0,
    0x10D30, 0x11066, 0x110F0, 0x11136, 0x111D0, 0x112F0, 0x11450, 0x114D0, 0x11650, 0x116C0,
    0x11730, 0x118E0, 0x11950, 0x11C50, 0x11D50, 0x11DA0, 0x11F50, 0x16A60, 0x16AC0, 0x16B50,
    0x1D7CE, 0x1D7D8, 0x1D7E2, 0x1D7EC, 0x1D7F6, 0x1E140, 0x1E2F0, 0x1E4F0, 0x1E950, 0x1FBF0]

/-- `\d`. -/
def isDecimal (c : Char) : Bool := decimalZeros.any fun first => first ≤ c.toNat && c.toNat < first + 10

/-- `[A-Z]`. -/
def isUpperLetter (c : Char) : Bool := 'A' ≤ c && c ≤ 'Z'

/-- `[a-z]`. -/
def isLowerLetter (c : Char) : Bool := 'a' ≤ c && c ≤ 'z'

def isLetter (c : Char) : Bool := isUpperLetter c || isLowerLetter c

/-- `\s*`. -/
def spaces : Regex Char := star true (one isSpace)

def dot : Regex Char := one (· == '.')

/-- The four words a statement can be headed with. -/
def kinds : List Text :=
  ["RULE".toList, "OBSERVATION".toList, "RECOMMENDATION".toList, "PERMISSION".toList]

/-- `^\s*(RULE|OBSERVATION|RECOMMENDATION|PERMISSION)\s+`
`([A-Z]?\.?\d[\d.]*[A-Za-z]?(?:-[a-z])?)\s*:?\s*$`. -/
def vxibusRe : Regex Char :=
  seqs [start, spaces, group 1 (alts (kinds.map word)), plus (one isSpace),
    group 2 (seqs [opt (one isUpperLetter), opt dot, one isDecimal,
      star true (one fun c => isDecimal c || c == '.'), opt (one isLetter),
      opt (seqs [one (· == '-'), one isLowerLetter])]),
    spaces, opt (one (· == ':')), spaces, stop]

/-- `^((?:[A-Z]\.)?\d+(?:\.\d+)+)\.?\s+([A-Za-z_][^.]*?(?:\.(?!\.)[^.]*?)*)\s*$`. -/
def vxibusSectionRe : Regex Char :=
  seqs [start,
    group 1 (seqs [opt (seqs [one isUpperLetter, dot]), plus (one isDecimal),
      plus (seqs [dot, plus (one isDecimal)])]),
    opt dot, plus (one isSpace),
    group 2 (seqs [one fun c => isLetter c || c == '_', star false (one (· != '.')),
      star true (seqs [dot, notAhead dot, star false (one (· != '.'))])]),
    spaces, stop]

/-! ## Text -/

/-- The characters at which `str.splitlines` breaks. -/
def isLineBreak (c : Char) : Bool :=
  let n := c.toNat
  (0x0A ≤ n && n ≤ 0x0D) || (0x1C ≤ n && n ≤ 0x1E) || n == 0x85 || n == 0x2028 || n == 0x2029

/-- `str.splitlines` behind the beginning `line` of a line.  A carriage return
with its line feed is one break, and the last line need not end in one. -/
def splitlinesFrom (line : Text) : Text → List Text
  | [] => if line = [] then [] else [line]
  | '\r' :: '\n' :: cs => line :: splitlinesFrom [] cs
  | c :: cs => if isLineBreak c then line :: splitlinesFrom [] cs else splitlinesFrom (line ++ [c]) cs

def splitlines (text : Text) : List Text := splitlinesFrom [] text

def strip (line : Text) : Text := (line.dropWhile isSpace).rdropWhile isSpace

/-- `str.title` of ASCII text, behind a letter or not. -/
def titleFrom (letter : Bool) : Text → Text
  | [] => []
  | c :: cs =>
      (if letter then c.toLower else c.toUpper) :: titleFrom c.isAlpha cs

def title (t : Text) : Text := titleFrom false t

/-- `" ".join(body)`. -/
def join (body : List Text) : Text := [' '].intercalate body

/-! ## Lines -/

/-- Does `VXIBUS_RE` match the line? -/
def isRuleLine (line : Text) : Bool := (match? vxibusRe line).isSome

/-- The number of a section heading line.  A dot leader makes it an entry of
the table of contents. -/
def sectionOf (line : Text) : Option Text :=
  match match? vxibusSectionRe line with
  | some heading => if "...".toList <:+: line then none else some (heading.group 1)
  | none => none

/-! ## The parser -/

/-- One statement of the inventory. -/
structure Statement where
  spec : Text
  kind : Text
  id : Text
  cite : Text
  sectionNumber : Text
  text : Text
deriving DecidableEq, Repr

/-- The inner loop: the body, and the lines from where it stopped. -/
def bodyLoop : (lines body : List Text) → List Text × List Text
  | [], body => (body, [])
  | line :: lines, body =>
      if body.length < 12 then
        if isRuleLine line then
          (body, line :: lines)
        else
          let stripped := strip line
          if stripped ≠ [] then
            bodyLoop lines (body ++ [stripped])
          else if body ≠ [] then
            (body, line :: lines)
          else
            bodyLoop lines body
      else
        (body, line :: lines)

theorem length_bodyLoop_le (lines body : List Text) :
    (bodyLoop lines body).2.length ≤ lines.length := by
  induction lines generalizing body with
  | nil => exact Nat.le_refl _
  | cons line lines ih =>
      simp only [bodyLoop, List.length_cons]
      have hmore (body : List Text) := Nat.le_succ_of_le (ih body)
      split_ifs
      · exact Nat.le_refl _
      · exact hmore _
      · exact Nat.le_refl _
      · exact hmore _
      · exact Nat.le_refl _

/-- The statement that the match `m` of a rule line heads. -/
def statement (spec sectionNumber : Text) (m : Thread Char) (body : List Text) : Statement :=
  let kind := m.group 1
  let ident := (m.group 2).rdropWhile (· = '.')
  { spec := spec
    kind := kind
    id := ident
    cite := if kind ≠ "RULE".toList then spec ++ ' ' :: title kind ++ ' ' :: ident
      else spec ++ ' ' :: ident
    sectionNumber := sectionNumber
    text := join body }

/-- The outer loop, with the section it remembers. -/
def parseFrom (spec sectionNumber : Text) : List Text → List Statement
  | [] => []
  | line :: lines =>
      let sectionNumber := (sectionOf line).getD sectionNumber
      match match? vxibusRe line with
      | none => parseFrom spec sectionNumber lines
      | some m =>
          statement spec sectionNumber m (bodyLoop lines []).1 ::
            parseFrom spec sectionNumber (bodyLoop lines []).2
termination_by lines => lines.length
decreasing_by
  · exact Nat.lt_succ_self _
  · exact Nat.lt_succ_of_le (length_bodyLoop_le lines [])

theorem parseFrom_other {line : Text} (h : match? vxibusRe line = none) (spec sectionNumber : Text)
    (lines : List Text) : parseFrom spec sectionNumber (line :: lines) =
      parseFrom spec ((sectionOf line).getD sectionNumber) lines := by
  rw [parseFrom, h]

theorem parseFrom_rule {line : Text} {m : Thread Char} (h : match? vxibusRe line = some m)
    (spec sectionNumber : Text) (lines : List Text) :
    parseFrom spec sectionNumber (line :: lines) =
      statement spec ((sectionOf line).getD sectionNumber) m (bodyLoop lines []).1 ::
        parseFrom spec ((sectionOf line).getD sectionNumber) (bodyLoop lines []).2 := by
  rw [parseFrom, h]

def parseVxibus (text spec : Text) : List Statement := parseFrom spec ['?'] (splitlines text)

/-! ## Rule lines and headings -/

theorem not_isSpace_of_isDecimal {c : Char} (h : isDecimal c = true) : isSpace c = false := by
  obtain ⟨first, hfirst, hc⟩ := List.any_eq_true.mp h
  obtain ⟨hlow, hhigh⟩ : first ≤ c.toNat ∧ c.toNat < first + 10 := by simpa using hc
  have hnumbers : ∀ first ∈ decimalZeros, 0x30 ≤ first ∧ (first ≤ 0x7B ∨ 0xA1 ≤ first) ∧
      (first ≤ 0x1676 ∨ 0x1681 ≤ first) ∧ (first ≤ 0x1FF6 ∨ 0x3001 ≤ first) := by decide
  have hplace := hnumbers first hfirst
  simp only [isSpace, isWhitespace]
  generalize c.toNat = n at *
  grind

/-- The four words begin with no digit, and no dot is their second letter. -/
theorem exists_of_mem_kinds {kind : Text} (h : kind ∈ kinds) :
    ∃ x y more, kind = x :: y :: more ∧ isDecimal x = false ∧ isSpace x = false ∧ y ≠ '.' := by
  fin_cases h <;> exact ⟨_, _, _, rfl, by decide, by decide, by decide⟩

/-- What a rule line begins with. -/
theorem exists_of_isRuleLine {line : Text} (h : isRuleLine line = true) :
    ∃ margin, ∃ kind ∈ kinds, ∃ rest, (∀ c ∈ margin, isSpace c = true) ∧
      line = margin ++ kind ++ rest := by
  obtain ⟨m, hm⟩ := Option.isSome_iff_exists.mp h
  obtain ⟨w, hw, hline⟩ := exists_of_match? hm
  obtain ⟨_, rfl, w₁, hw₁, rfl⟩ := mem_language_seqs_cons.mp hw
  obtain ⟨margin, hmargin, w₂, hw₂, rfl⟩ := mem_language_seqs_cons.mp hw₁
  obtain ⟨kind, hkind, w₃, -, rfl⟩ := mem_language_seqs_cons.mp hw₂
  obtain ⟨r, hr, hkind⟩ := mem_language_alts.mp hkind
  obtain ⟨k, hk, rfl⟩ := List.mem_map.mp hr
  obtain rfl := mem_language_word.mp hkind
  refine ⟨margin, kind, hk, w₃ ++ m.rest, forall_of_mem_language_star hmargin, ?_⟩
  simpa using hline

/-- What a section heading line begins with: a digit, or a letter and a dot. -/
theorem exists_of_sectionOf {line number : Text} (h : sectionOf line = some number) :
    ∃ c rest, line = c :: rest ∧
      (isDecimal c = true ∨ isUpperLetter c = true ∧ ∃ rest', rest = '.' :: rest') := by
  rw [sectionOf] at h
  split at h
  swap
  · cases h
  next m hm =>
  obtain ⟨w, hw, hline⟩ := exists_of_match? hm
  obtain ⟨_, rfl, w₁, hw₁, rfl⟩ := mem_language_seqs_cons.mp hw
  obtain ⟨number, hnumber, w₂, -, rfl⟩ := mem_language_seqs_cons.mp hw₁
  obtain ⟨letter, hletter, w₃, hw₃, rfl⟩ := mem_language_seqs_cons.mp hnumber
  obtain ⟨digits, hdigits, w₄, -, rfl⟩ := mem_language_seqs_cons.mp hw₃
  obtain ⟨_, ⟨d, hd, rfl⟩, ds, rfl⟩ := mem_language_plus hdigits
  rcases mem_language_opt.mp hletter with hletter | rfl
  · obtain ⟨_, ⟨c, hc, rfl⟩, w₅, hw₅, rfl⟩ := mem_language_seqs_cons.mp hletter
    obtain ⟨_, ⟨c', hc', rfl⟩, _, rfl, rfl⟩ := mem_language_seqs_cons.mp hw₅
    obtain rfl := beq_iff_eq.mp hc'
    exact ⟨c, _, hline, .inr ⟨hc, _, rfl⟩⟩
  · exact ⟨d, _, hline, .inl hd⟩

theorem isSpace_of_sectionOf {number : Text} (h : sectionOf (c :: cs) = some number) :
    isSpace c = false := by
  obtain ⟨_, _, ⟨⟩, hdecimal | ⟨hletter, -⟩⟩ := exists_of_sectionOf h
  · exact not_isSpace_of_isDecimal hdecimal
  · obtain ⟨hlow, hhigh⟩ : 65 ≤ c.toNat ∧ c.toNat ≤ 90 := by
      simp only [isUpperLetter, Bool.and_eq_true, decide_eq_true_eq] at hletter
      exact hletter
    simp only [isSpace, isWhitespace]
    generalize c.toNat = n at *
    grind

/-- **No line is both** a section heading and a rule line. -/
theorem not_isRuleLine_of_sectionOf {line number : Text} (h : sectionOf line = some number) :
    isRuleLine line = false := by
  by_contra hrule
  obtain ⟨margin, kind, hkind, rest, hmargin, hline⟩ := exists_of_isRuleLine (by simpa using hrule)
  obtain ⟨c, cs, rfl, hfront⟩ := exists_of_sectionOf h
  cases margin with
  | cons d margin =>
      obtain ⟨rfl, -⟩ := List.cons.inj hline
      have hc := isSpace_of_sectionOf h
      rw [hmargin c List.mem_cons_self] at hc
      cases hc
  | nil =>
      obtain ⟨x, y, more, rfl, hx, -, hy⟩ := exists_of_mem_kinds hkind
      obtain ⟨rfl, rfl⟩ := List.cons.inj hline
      rcases hfront with hdecimal | ⟨-, rest', hdot⟩
      · rw [hx] at hdecimal
        cases hdecimal
      · exact hy (List.cons.inj hdot).1

/-! ## The body -/

theorem strip_eq_nil_iff (line : Text) : strip line = [] ↔ ∀ c ∈ line, isSpace c = true := by
  rw [← List.dropWhile_eq_nil_iff]
  refine ⟨fun h => ?_, fun h => by rw [strip, h, List.rdropWhile_nil]⟩
  by_contra hne
  have hhead := List.head_dropWhile_not isSpace hne
  rw [strip, List.rdropWhile_eq_nil_iff] at h
  rw [h _ (List.head_mem hne)] at hhead
  cases hhead

def isBlankLine (line : Text) : Bool := (strip line).isEmpty

/-- Lines that belong to a body. -/
def isTextLine (line : Text) : Bool := !isRuleLine line && !isBlankLine line

/-- The paragraph that follows, as far as the inner loop looks. -/
def paragraph (lines : List Text) : List Text :=
  ((lines.dropWhile isBlankLine).takeWhile isTextLine).take 12

theorem not_isRuleLine_of_isBlankLine {line : Text} (h : isBlankLine line = true) :
    isRuleLine line = false := by
  by_contra hrule
  obtain ⟨margin, kind, hkind, rest, -, rfl⟩ := exists_of_isRuleLine (by simpa using hrule)
  have hspaces := (strip_eq_nil_iff _).mp (List.isEmpty_iff.mp h)
  obtain ⟨x, y, more, rfl, -, hspace, -⟩ := exists_of_mem_kinds hkind
  rw [hspaces x (by simp)] at hspace
  cases hspace

theorem not_isBlankLine_of_sectionOf {line number : Text} (h : sectionOf line = some number) :
    isBlankLine line = false := by
  by_contra hblank
  obtain ⟨c, cs, rfl, -⟩ := exists_of_sectionOf h
  have hspaces := (strip_eq_nil_iff _).mp (List.isEmpty_iff.mp (Bool.not_eq_false _ ▸ hblank))
  have hc := isSpace_of_sectionOf h
  rw [hspaces c List.mem_cons_self] at hc
  cases hc

/-- Once the body has begun, it goes on to the next rule line or blank line. -/
theorem bodyLoop_of_ne_nil (lines : List Text) {body : List Text} (h : body ≠ []) :
    bodyLoop lines body =
      (body ++ ((lines.takeWhile isTextLine).take (12 - body.length)).map strip,
        lines.drop ((lines.takeWhile isTextLine).take (12 - body.length)).length) := by
  induction lines generalizing body with
  | nil => simp [bodyLoop]
  | cons line lines ih =>
      simp only [bodyLoop]
      by_cases hfull : body.length < 12
      swap
      · rw [if_neg hfull, Nat.sub_eq_zero_of_le (Nat.le_of_not_lt hfull)]
        simp
      rw [if_pos hfull]
      by_cases hrule : isRuleLine line = true
      · simp [hrule, isTextLine]
      by_cases hblank : strip line = []
      · simp [hrule, hblank, h, isTextLine, isBlankLine]
      · have htext : isTextLine line = true := by simp [isTextLine, isBlankLine, hrule, hblank]
        have hroom : 12 - body.length = 12 - (body ++ [strip line]).length + 1 := by
          rw [List.length_append, List.length_singleton]
          omega
        rw [if_neg hrule, if_pos hblank, ih (List.append_ne_nil_of_right_ne_nil _ (List.cons_ne_nil _ _)),
          List.takeWhile_cons_of_pos htext, hroom, List.take_succ_cons, List.map_cons,
          List.append_assoc]
        rfl

/-- **What the inner loop takes**: it passes over blank lines, and the body is
the paragraph behind them. -/
theorem bodyLoop_eq (lines : List Text) :
    bodyLoop lines [] = ((paragraph lines).map strip,
      (lines.dropWhile isBlankLine).drop (paragraph lines).length) := by
  induction lines with
  | nil => rfl
  | cons line lines ih =>
      simp only [bodyLoop]
      by_cases hblank : isBlankLine line = true
      · have hrule := not_isRuleLine_of_isBlankLine hblank
        have hstrip : strip line = [] := List.isEmpty_iff.mp hblank
        simp [hrule, hstrip, ih, paragraph, hblank]
      have hstrip : strip line ≠ [] := fun hstrip => hblank (List.isEmpty_iff.mpr hstrip)
      rw [paragraph, List.dropWhile_cons_of_neg hblank]
      by_cases hrule : isRuleLine line = true
      · simp [hrule, isTextLine]
      · have htext : isTextLine line = true := by simp [isTextLine, hrule, hblank]
        simp [hrule, hstrip, bodyLoop_of_ne_nil, htext]

end TestGear.SpecRules
