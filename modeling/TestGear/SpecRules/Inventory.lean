import TestGear.SpecRules

/-!
# TestGear.SpecRules.Inventory

What an inventory should be, as opposed to how it is parsed: one statement for
each rule line (`sites`), filed under the last section heading before it, with a
text of lines of its own (`Filed`).

The body of a statement goes on over a section heading, and then the cursor
never comes to that heading.

* `inventory_iff` — the inventory is right exactly if no section heading stands
  in a paragraph that follows a rule line.
-/

namespace TestGear.SpecRules

open Regex

/-! ## What to expect -/

/-- A rule line, and the lines before and behind it. -/
structure Site where
  before : List Text
  line : Text
  after : List Text

/-- The rule lines among `lines`, in order. -/
def sitesFrom (before : List Text) : (lines : List Text) → List Site
  | [] => []
  | line :: lines =>
      if isRuleLine line then ⟨before, line, lines⟩ :: sitesFrom (before ++ [line]) lines
      else sitesFrom (before ++ [line]) lines

def sites (lines : List Text) : List Site := sitesFrom [] lines

/-- The number of the last section heading line. -/
def lastSection (lines : List Text) : Text := ((lines.filterMap sectionOf).getLast?).getD ['?']

/-- Neither a rule line nor a section heading line. -/
def isPlainLine (line : Text) : Bool := !isRuleLine line && (sectionOf line).isNone

/-- The lines a statement can be made of. -/
def Site.own (s : Site) : List Text := s.after.takeWhile isPlainLine

/-- The statement's kind and number are those of its rule line. -/
def Headed (s : Site) (st : Statement) : Prop :=
  ∃ m, match? vxibusRe s.line = some m ∧ m.groups.lookup 1 = some st.kind ∧
    ∃ number, m.groups.lookup 2 = some number ∧ st.id = number.rdropWhile (· = '.')

/-- A text made of some of a statement's own lines. -/
def Site.Holds (s : Site) (text : Text) : Prop :=
  ∃ used : List Text, used.Sublist s.own ∧ (∀ line ∈ used, isBlankLine line = false) ∧
    text = join (used.map strip)

/-- A statement filed as it should be. -/
structure Filed (s : Site) (st : Statement) : Prop where
  headed : Headed s st
  section_eq : st.sectionNumber = lastSection s.before
  holds : s.Holds st.text

/-- The inventory of a document: one statement for each rule line, in order. -/
def Inventory (text : Text) (out : List Statement) : Prop :=
  List.Forall₂ Filed (sites (splitlines text)) out

/-- No section heading in a paragraph that follows a rule line. -/
def ParagraphsClear (lines : List Text) : Prop :=
  ∀ s ∈ sites lines, ∀ line ∈ paragraph s.after, sectionOf line = none

instance (lines : List Text) : Decidable (ParagraphsClear lines) :=
  inferInstanceAs (Decidable (∀ s ∈ sites lines, ∀ line ∈ paragraph s.after, sectionOf line = none))

/-! ## The lines passed over -/

/-- What the inner loop leaves behind: blank lines, and the body. -/
def skipped (lines : List Text) : List Text := lines.takeWhile isBlankLine ++ paragraph lines

theorem skipped_append (lines : List Text) : skipped lines ++ (bodyLoop lines []).2 = lines := by
  have hprefix : paragraph lines <+: lines.dropWhile isBlankLine :=
    (List.take_prefix _ _).trans (List.takeWhile_prefix _)
  rw [skipped, bodyLoop_eq, List.append_assoc, List.prefix_iff_eq_append.mp hprefix,
    List.takeWhile_append_dropWhile]

theorem isTextLine_of_mem_paragraph {lines : List Text} {line : Text} (h : line ∈ paragraph lines) :
    isRuleLine line = false ∧ isBlankLine line = false := by
  simpa [isTextLine] using List.mem_takeWhile_imp (List.mem_of_mem_take h)

theorem not_isRuleLine_of_mem_skipped {lines : List Text} {line : Text}
    (h : line ∈ skipped lines) : isRuleLine line = false := by
  rcases List.mem_append.mp h with h | h
  · exact not_isRuleLine_of_isBlankLine (List.mem_takeWhile_imp h)
  · exact (isTextLine_of_mem_paragraph h).1

theorem sectionOf_eq_none_of_isBlankLine {line : Text} (h : isBlankLine line = true) :
    sectionOf line = none := by
  cases hs : sectionOf line with
  | none => rfl
  | some number => rw [not_isBlankLine_of_sectionOf hs] at h; cases h

/-- Blank lines add no heading. -/
theorem sectionOf_eq_none_of_blanks (lines : List Text) {own : List Text}
    (h : ∀ line ∈ own, sectionOf line = none) :
    ∀ line ∈ lines.takeWhile isBlankLine ++ own, sectionOf line = none := by
  intro line hline
  rcases List.mem_append.mp hline with hline | hline
  · exact sectionOf_eq_none_of_isBlankLine (List.mem_takeWhile_imp hline)
  · exact h line hline

/-- Lines without a rule line hold no statement. -/
theorem sitesFrom_append {passed : List Text} (h : ∀ line ∈ passed, isRuleLine line = false)
    (before lines : List Text) :
    sitesFrom before (passed ++ lines) = sitesFrom (before ++ passed) lines := by
  induction passed generalizing before with
  | nil => rw [List.append_nil, List.nil_append]
  | cons line passed ih =>
      obtain ⟨hline, h⟩ := List.forall_mem_cons.mp h
      rw [List.cons_append, sitesFrom, hline, if_neg Bool.false_ne_true, ih h, List.append_assoc,
        List.singleton_append]

/-- Behind a rule line, the next statement's lines begin where the body ends. -/
theorem sitesFrom_bodyLoop (before lines : List Text) :
    sitesFrom before lines = sitesFrom (before ++ skipped lines) (bodyLoop lines []).2 := by
  conv_lhs => rw [← skipped_append lines]
  exact sitesFrom_append (fun line => not_isRuleLine_of_mem_skipped) before _

theorem lastSection_concat (lines : List Text) (line : Text) :
    lastSection (lines ++ [line]) = (sectionOf line).getD (lastSection lines) := by
  rw [lastSection, List.filterMap_append]
  cases h : sectionOf line with
  | none => simp [h, lastSection]
  | some number => simp [h]

theorem lastSection_append {passed : List Text} (h : ∀ line ∈ passed, sectionOf line = none)
    (lines : List Text) : lastSection (lines ++ passed) = lastSection lines := by
  have hnone : passed.filterMap sectionOf = [] := List.filterMap_eq_nil_iff.mpr h
  rw [lastSection, List.filterMap_append, hnone, List.append_nil, lastSection]

/-! ## The statements -/

/-- **No statement is lost**: each rule line heads one, with the paragraph
behind it for a text. -/
theorem parseFrom_headed (spec sectionNumber : Text) (before lines : List Text) :
    List.Forall₂ (fun s st => Headed s st ∧ st.text = join ((paragraph s.after).map strip))
      (sitesFrom before lines) (parseFrom spec sectionNumber lines) := by
  fun_induction parseFrom spec sectionNumber lines generalizing before with
  | case1 sectionNumber => exact .nil
  | case2 sectionNumber line lines current hm ih =>
      have hrule : isRuleLine line = false := by rw [isRuleLine, hm]; rfl
      rw [sitesFrom, hrule, if_neg Bool.false_ne_true]
      exact ih _
  | case3 sectionNumber line lines current m hm ih =>
      have hrule : isRuleLine line = true := by rw [isRuleLine, hm]; rfl
      rw [sitesFrom, if_pos hrule, sitesFrom_bodyLoop]
      refine .cons ⟨⟨m, hm, lookup_group rfl hm, _, lookup_group rfl hm, rfl⟩, ?_⟩ (ih _)
      rw [bodyLoop_eq]
      rfl

/-- Where the paragraphs hold no headings, the cursor sees them all. -/
theorem parseFrom_sections (spec : Text) {sectionNumber : Text} {before lines : List Text}
    (h : sectionNumber = lastSection before)
    (hclear : ∀ s ∈ sitesFrom before lines, ∀ line ∈ paragraph s.after, sectionOf line = none) :
    List.Forall₂ (fun s st => st.sectionNumber = lastSection s.before) (sitesFrom before lines)
      (parseFrom spec sectionNumber lines) := by
  fun_induction parseFrom spec sectionNumber lines generalizing before with
  | case1 sectionNumber => exact .nil
  | case2 sectionNumber line lines current hm =>
      rename_i ih
      have hrule : isRuleLine line = false := by rw [isRuleLine, hm]; rfl
      rw [sitesFrom, hrule, if_neg Bool.false_ne_true] at hclear ⊢
      exact ih (by rw [lastSection_concat, ← h]) hclear
  | case3 sectionNumber line lines current m hm =>
      rename_i ih
      have hrule : isRuleLine line = true := by rw [isRuleLine, hm]; rfl
      have hline : sectionOf line = none := by
        cases hs : sectionOf line with
        | none => rfl
        | some number => rw [not_isRuleLine_of_sectionOf hs] at hrule; cases hrule
      have hcurrent : current = lastSection before := by
        show (sectionOf line).getD sectionNumber = _
        rw [hline, Option.getD_none, h]
      rw [sitesFrom, if_pos hrule] at hclear ⊢
      obtain ⟨hparagraph, hclear⟩ := List.forall_mem_cons.mp hclear
      have hskipped := sectionOf_eq_none_of_blanks lines hparagraph
      rw [sitesFrom_bodyLoop] at hclear ⊢
      refine .cons hcurrent (ih ?_ hclear)
      rw [skipped, lastSection_append hskipped, lastSection_concat, hline, Option.getD_none, hcurrent]

/-! ## The texts -/

theorem length_join (body : List Text) : (join body).length = (body.map (·.length + 1)).sum - 1 := by
  induction body with
  | nil => rfl
  | cons x body ih =>
      cases body with
      | nil => simp [join]
      | cons y body =>
          rw [join, List.intercalate_cons_cons, List.length_append, List.length_append, ← join, ih]
          simp
          omega

theorem isPlainLine_of_mem_skipped {lines : List Text} {line : Text} (h : line ∈ skipped lines)
    (hs : sectionOf line = none) : isPlainLine line = true := by
  simp [isPlainLine, not_isRuleLine_of_mem_skipped h, hs]

/-- The first heading in a paragraph ends the lines before the next heading. -/
theorem takeWhile_isPlainLine {lines own rest : List Text} {line number : Text}
    (hparagraph : paragraph lines = own ++ line :: rest) (hown : ∀ l ∈ own, sectionOf l = none)
    (hs : sectionOf line = some number) :
    lines.takeWhile isPlainLine = lines.takeWhile isBlankLine ++ own := by
  have hlines : lines = (lines.takeWhile isBlankLine ++ own) ++
      line :: (rest ++ (bodyLoop lines []).2) := by
    have h := (skipped_append lines).symm
    rw [skipped, hparagraph] at h
    simpa using h
  have hplain : ∀ l ∈ lines.takeWhile isBlankLine ++ own, isPlainLine l = true := by
    intro l hl
    have hmem : l ∈ skipped lines := by
      rw [skipped, hparagraph, ← List.append_assoc]
      exact List.mem_append_left _ hl
    exact isPlainLine_of_mem_skipped hmem (sectionOf_eq_none_of_blanks lines hown l hl)
  calc lines.takeWhile isPlainLine
      = ((lines.takeWhile isBlankLine ++ own) ++
          line :: (rest ++ (bodyLoop lines []).2)).takeWhile isPlainLine := congrArg _ hlines
    _ = lines.takeWhile isBlankLine ++ own := by
        rw [List.takeWhile_append_of_pos hplain, List.takeWhile_cons_of_neg (by simp [isPlainLine, hs]),
          List.append_nil]

/-- The lines that are not blank, of blank ones and others. -/
theorem sublist_of_not_isBlankLine {used blanks lines : List Text}
    (hused : used.Sublist (blanks ++ lines)) (hblanks : ∀ line ∈ blanks, isBlankLine line = true)
    (h : ∀ line ∈ used, isBlankLine line = false) : used.Sublist lines := by
  have hself : used.filter (!isBlankLine ·) = used :=
    List.filter_eq_self.mpr fun line hline => by simp [h line hline]
  have hnone : blanks.filter (!isBlankLine ·) = [] :=
    List.filter_eq_nil_iff.mpr fun line hline => by simp [hblanks line hline]
  have hfilter := hused.filter (!isBlankLine ·)
  rw [hself, List.filter_append, hnone, List.nil_append] at hfilter
  exact hfilter.trans List.filter_sublist

/-- A line more makes a text longer than all that can be made of the others. -/
theorem length_join_lt {used own rest : List Text} {line : Text} (hused : used.Sublist own)
    (hline : isBlankLine line = false) :
    (join (used.map strip)).length < (join ((own ++ line :: rest).map strip)).length := by
  have hle : ((used.map strip).map (·.length + 1)).sum ≤ ((own.map strip).map (·.length + 1)).sum :=
    ((hused.map strip).map _).sum_le_sum fun _ _ => Nat.zero_le _
  have hpos : 0 < (strip line).length := by
    refine List.length_pos_iff.mpr fun hstrip => ?_
    rw [isBlankLine, hstrip] at hline
    cases hline
  rw [length_join, length_join, List.map_append, List.map_append, List.sum_append, List.map_cons,
    List.map_cons, List.sum_cons]
  omega

/-- **A statement's text**, the paragraph, is made of its own lines exactly if
no heading is among them. -/
theorem holds_paragraph_iff (s : Site) :
    s.Holds (join ((paragraph s.after).map strip)) ↔
      ∀ line ∈ paragraph s.after, sectionOf line = none := by
  constructor
  · rintro ⟨used, hused, hblank, htext⟩
    cases hfind : (paragraph s.after).find? fun line => (sectionOf line).isSome with
    | none =>
        intro line hline
        simpa using List.find?_eq_none.mp hfind line hline
    | some line =>
        -- all lines of the text would have to stand before this heading
        obtain ⟨hs, own, rest, hparagraph, hown⟩ := List.find?_eq_some_iff_append.mp hfind
        obtain ⟨number, hnumber⟩ := Option.isSome_iff_exists.mp hs
        rw [Site.own, takeWhile_isPlainLine hparagraph (by simpa using hown) hnumber] at hused
        have hsub := sublist_of_not_isBlankLine hused (fun _ => List.mem_takeWhile_imp) hblank
        have hlt := @length_join_lt used own rest line hsub (not_isBlankLine_of_sectionOf hnumber)
        rw [← hparagraph, htext] at hlt
        exact absurd hlt (Nat.lt_irrefl _)
  · intro hclear
    refine ⟨paragraph s.after, ?_, fun line hline => (isTextLine_of_mem_paragraph hline).2, rfl⟩
    have hplain : ∀ line ∈ skipped s.after, isPlainLine line = true := fun line hline =>
      isPlainLine_of_mem_skipped hline (sectionOf_eq_none_of_blanks s.after hclear line hline)
    have hown : s.own = skipped s.after ++ (bodyLoop s.after []).2.takeWhile isPlainLine := by
      rw [← List.takeWhile_append_of_pos hplain, skipped_append, Site.own]
    rw [hown, skipped]
    exact (List.sublist_append_right _ _).trans (List.sublist_append_left _ _)

/-! ## The inventory -/

/-- One statement for each rule line, whatever the paragraphs hold. -/
theorem parseVxibus_headed (text spec : Text) :
    List.Forall₂ (fun s st => Headed s st ∧ st.text = join ((paragraph s.after).map strip))
      (sites (splitlines text)) (parseVxibus text spec) :=
  parseFrom_headed spec ['?'] [] (splitlines text)

theorem clear_of_inventory {text spec : Text} (h : Inventory text (parseVxibus text spec)) :
    ParagraphsClear (splitlines text) := by
  obtain ⟨hlength, hheaded⟩ := List.forall₂_iff_get.mp (parseVxibus_headed text spec)
  obtain ⟨-, hfiled⟩ := List.forall₂_iff_get.mp h
  intro s hs
  obtain ⟨i, hi, rfl⟩ := List.mem_iff_getElem.mp hs
  have hholds := (hfiled i hi (hlength ▸ hi)).holds
  rw [(hheaded i hi (hlength ▸ hi)).2] at hholds
  exact (holds_paragraph_iff _).mp hholds

theorem inventory_of_clear {text : Text} (h : ParagraphsClear (splitlines text)) (spec : Text) :
    Inventory text (parseVxibus text spec) := by
  obtain ⟨hlength, hheaded⟩ := List.forall₂_iff_get.mp (parseVxibus_headed text spec)
  obtain ⟨-, hsections⟩ := List.forall₂_iff_get.mp (parseFrom_sections spec rfl h)
  refine List.forall₂_iff_get.mpr ⟨hlength, fun i hi hi' => ?_⟩
  obtain ⟨hhead, htext⟩ := hheaded i hi hi'
  refine ⟨hhead, hsections i hi hi', ?_⟩
  rw [htext]
  exact (holds_paragraph_iff _).mpr (h _ (List.get_mem _ _))

/-- **When the inventory is right**: exactly if no section heading line stands
in a paragraph that follows a rule line. -/
theorem inventory_iff (text spec : Text) :
    Inventory text (parseVxibus text spec) ↔ ParagraphsClear (splitlines text) :=
  ⟨clear_of_inventory, fun h => inventory_of_clear h spec⟩

example : ParagraphsClear (splitlines
    "RULE 3.2.1\n  The device SHALL answer.\n\n3.3 Errors\nRULE 3.3.1\n".toList) := by
  decide +kernel

/-- A heading that follows the body of a rule with no blank line between. -/
def headingBehindBody : Text :=
  "RULE 3.2.1\n  The device SHALL answer.\n3.3 Errors\n\nRULE 3.3.1\n  Errors SHALL be queued.\n".toList

/-- The heading ends up in the text of the first statement, and the second is
filed as if there were none. -/
theorem not_inventory_headingBehindBody :
    (parseVxibus headingBehindBody "VPP-4.3".toList).map (fun st => (st.cite, st.sectionNumber, st.text)) =
      [("VPP-4.3 3.2.1".toList, ['?'], "The device SHALL answer. 3.3 Errors".toList),
        ("VPP-4.3 3.3.1".toList, ['?'], "Errors SHALL be queued.".toList)] ∧
      ¬ Inventory headingBehindBody (parseVxibus headingBehindBody "VPP-4.3".toList) := by
  constructor
  · have hlines : splitlines headingBehindBody = ["RULE 3.2.1".toList,
        "  The device SHALL answer.".toList, "3.3 Errors".toList, [], "RULE 3.3.1".toList,
        "  Errors SHALL be queued.".toList] := by decide +kernel
    have hfirst : match? vxibusRe "RULE 3.2.1".toList =
        some ⟨"1.2.3 ELUR".toList, [], [(2, "3.2.1".toList), (1, "RULE".toList)]⟩ := by decide +kernel
    have hbody : bodyLoop ["  The device SHALL answer.".toList, "3.3 Errors".toList, [],
        "RULE 3.3.1".toList, "  Errors SHALL be queued.".toList] [] =
        (["The device SHALL answer.".toList, "3.3 Errors".toList],
          [[], "RULE 3.3.1".toList, "  Errors SHALL be queued.".toList]) := by decide +kernel
    have hblank : match? vxibusRe [] = none := by decide +kernel
    have hsecond : match? vxibusRe "RULE 3.3.1".toList =
        some ⟨"1.3.3 ELUR".toList, [], [(2, "3.3.1".toList), (1, "RULE".toList)]⟩ := by decide +kernel
    have hbody' : bodyLoop ["  Errors SHALL be queued.".toList] [] =
        (["Errors SHALL be queued.".toList], []) := by decide +kernel
    rw [parseVxibus, hlines, parseFrom_rule hfirst, hbody, parseFrom_other hblank,
      parseFrom_rule hsecond, hbody', parseFrom]
    decide +kernel
  · intro h
    have hclear := clear_of_inventory h
    revert hclear
    decide +kernel

end TestGear.SpecRules
