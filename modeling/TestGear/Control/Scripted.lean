import TestGear.Control.Alike

/-!
# TestGear.Control.Scripted

Scripted answers.  `set_response` files an answer under the whole query,
trimmed and in upper case; a unit is looked up by its header alone.  The two
agree on a query that is nothing but a header, and on no other
(`scripts_iff`).
-/

namespace TestGear.Instrument

/-- A query that is one program message unit. -/
structure IsUnit (query : Text) : Prop where
  nonblank : trim query ≠ []
  noSeparator : ';' ∉ query
  noNewline : '\n' ∉ query

/-- The key an answer is filed under. -/
def scriptKey (query : Text) : Text := toAsciiUppercase (trim query)

/-- The answer filed for a query. -/
def Device.scripted (dev : Device) (query : Text) : Option Text :=
  dev.responses.lookup (scriptKey query)

/-- A query is answered with its script, and nothing else happens. -/
structure Answered (text : Text) (dev dev' : Device) : Prop where
  output : dev'.output = dev.output ++ asBytes text ++ [0x0A]
  errors : dev'.errors = dev.errors
  sre : dev'.sre = dev.sre
  ese : dev'.ese = dev.ese
  esr : dev'.esr = dev.esr
  userStb : dev'.userStb = dev.userStb

/-- What scripting a query promises. -/
structure Scripts (query : Text) : Prop where
  answers : ∀ (dev : Device) text, dev.input = [] →
    Answered text dev ((dev.setResponse query (some text)).receive (asBytes query) true)
  forgets : ∀ (dev : Device) response, dev.input = [] →
    (dev.setResponse query none).scripted query = none ∧
    ((dev.setResponse query response).setResponse query none).receive (asBytes query) true =
      (dev.setResponse query none).receive (asBytes query) true ∧
    (dev.scripted query = none → dev.setResponse query none = dev)
  others : ∀ (dev : Device) response other, scriptKey other ≠ scriptKey query →
    (dev.setResponse query response).scripted other = dev.scripted other
  /-- A unit with another header does what it did. -/
  undisturbed : ∀ (dev : Device) response other, IsUnit other → dev.input = [] →
    toAsciiUppercase (Device.headAndArg (trim other)).1 ≠ scriptKey query →
    ((dev.setResponse query response).receive (asBytes other) true).face =
      (dev.receive (asBytes other) true).face

/-! ## Filing -/

theorem scripted_setResponse (dev : Device) (query : Text) (response : Option Text) (other : Text) :
    (dev.setResponse query response).scripted other =
      if scriptKey other = scriptKey query then response else dev.scripted other :=
  lookup_setResponse dev query response (scriptKey other)

/-- Taking an answer away again leaves nothing of it. -/
theorem setResponse_none (dev : Device) (query : Text) (response : Option Text) :
    (dev.setResponse query response).setResponse query none = dev.setResponse query none := by
  cases response with
  | none => simp [Device.setResponse, List.filter_filter]
  | some text => simp [Device.setResponse, List.filter_filter]

/-- Taking away what is not there changes nothing. -/
theorem setResponse_absent {dev : Device} {query : Text} (h : dev.scripted query = none) :
    dev.setResponse query none = dev := by
  have hothers : dev.responses.filter (fun entry => entry.1 ≠ toAsciiUppercase (trim query)) =
      dev.responses := by
    rw [List.filter_eq_self]
    intro entry hmem
    have hne := List.lookup_eq_none_iff.mp h entry hmem
    simp only [ne_eq, decide_not, Bool.not_eq_eq_eq_not, Bool.not_true, decide_eq_false_iff_not]
    intro heq
    simp [scriptKey, heq] at hne
  simp only [Device.setResponse, hothers]

/-! ## Looking up -/

theorem units_isUnit {query : Text} (h : IsUnit query) :
    units (messageUnits (asBytes query)) = [trim query] := by
  have hone : query.splitOnP (· = ';') = [query] := by
    refine List.splitOnP_eq_singleton fun c hc => ?_
    simp only [decide_eq_false_iff_not]
    rintro rfl
    exact h.noSeparator hc
  have hblank : blank query = false := by simpa [trim_eq_nil_iff] using h.nonblank
  rw [units_messageUnits, fromUtf8Lossy_asBytes, hone, units_singleton, hblank]
  rfl

/-- Writing a query executes it. -/
theorem receive_isUnit {query : Text} (h : IsUnit query) {dev : Device} (hi : dev.input = []) :
    dev.receive (asBytes query) true = (dev.executeUnit (trim query)).noteMss := by
  have hdev : { dev with input := [] } = dev := by rw [← hi]
  have hcomplete : dev.complete (asBytes query) = dev.executeUnit (trim query) := by
    rw [Device.complete, hdev, foldl_execute, units_isUnit h]
    rfl
  simp only [Device.receive, Bool.true_or, if_true, hi, List.nil_append, hcomplete]

theorem face_setResponse (dev : Device) (query : Text) (response : Option Text) :
    (dev.setResponse query response).face = dev.face := by
  cases response <;> rfl

/-- An answer is found by the units of its header only. -/
theorem face_receive_setResponse {query other : Text} (h : IsUnit other) {dev : Device}
    (hi : dev.input = []) (hne : toAsciiUppercase (Device.headAndArg (trim other)).1 ≠ scriptKey query)
    (response : Option Text) :
    ((dev.setResponse query response).receive (asBytes other) true).face =
      (dev.receive (asBytes other) true).face := by
  have hinput : (dev.setResponse query response).input = [] := by cases response <;> exact hi
  have hface := face_setResponse dev query response
  have hlookup : (dev.setResponse query response).responses.lookup
      (toAsciiUppercase (Device.headAndArg (trim other)).1) =
        dev.responses.lookup (toAsciiUppercase (Device.headAndArg (trim other)).1) := by
    rw [lookup_setResponse]
    exact if_neg hne
  have hnote (d e : Device) (hde : d.face = e.face) : d.noteMss.face = e.noteMss.face := by
    show (d.face.noteMss).face = (e.face.noteMss).face
    rw [hde]
  rw [receive_isUnit h hi, receive_isUnit h hinput]
  refine hnote _ _ ?_
  simp only [Device.executeUnit, hlookup]
  split
  · next canned hcanned =>
      show ((dev.setResponse query response).face.reply canned).face = (dev.face.reply canned).face
      rw [hface]
  · rw [Device.perform_face, hface, ← Device.perform_face]

/-- A unit without blanks is its own header. -/
theorem headAndArg_of_not_isWhitespace {unit : Text} (h : ∀ c ∈ unit, isWhitespace c = false) :
    Device.headAndArg unit = (unit, []) := by
  have hnone : unit.dropWhile (!isWhitespace ·) = [] := by
    rw [List.dropWhile_eq_nil_iff]
    intro c hc
    simp [h c hc]
  simp only [Device.headAndArg, splitOnce, hnone]

/-- A unit with a blank in it is looked up under another key. -/
theorem header_ne_scriptKey {query : Text} (hne : trim query ≠ [])
    (h : ∃ c ∈ trim query, isWhitespace c = true) :
    toAsciiUppercase (Device.headAndArg (trim query)).1 ≠ scriptKey query := by
  obtain ⟨c, hc, hspace⟩ := h
  intro heq
  have hmem : c.toUpper ∈ toAsciiUppercase (Device.headAndArg (trim query)).1 := by
    rw [heq]
    exact List.mem_map_of_mem hc
  obtain ⟨d, hd, hupper⟩ := List.mem_map.mp hmem
  have hplain := ((headAndArg_head rfl hne).2 d hd).1
  rw [← isWhitespace_toUpper, hupper, isWhitespace_toUpper, hspace] at hplain
  cases hplain

/-- Scripted under its header, a query is answered. -/
theorem answered_of_header {query : Text} (h : IsUnit query)
    (hplain : ∀ c ∈ trim query, isWhitespace c = false) (dev : Device) (text : Text)
    (hi : dev.input = []) :
    (dev.setResponse query (some text)).receive (asBytes query) true =
      ((dev.setResponse query (some text)).reply text).noteMss := by
  have hlookup : (dev.setResponse query (some text)).responses.lookup
      (toAsciiUppercase (trim query)) = some text := by
    rw [lookup_setResponse, if_pos rfl]
  have hinput : (dev.setResponse query (some text)).input = [] := hi
  rw [receive_isUnit h hinput]
  simp only [Device.executeUnit, headAndArg_of_not_isWhitespace hplain, hlookup]

/-- What a fresh device makes of a query it does not find in its script does not
depend on the answer filed for it. -/
theorem output_of_not_header {query : Text} (h : IsUnit query)
    (hblank : ∃ c ∈ trim query, isWhitespace c = true) (s t : Text) :
    ((Device.setResponse {} query (some s)).receive (asBytes query) true).output =
      ((Device.setResponse {} query (some t)).receive (asBytes query) true).output := by
  have hone (text : Text) :
      ((Device.setResponse {} query (some text)).receive (asBytes query) true).output =
        (Device.perform {} (Device.headAndArg (trim query)).1 (Device.headAndArg (trim query)).2
          (Command.ofHeader (toAsciiUppercase (Device.headAndArg (trim query)).1))).face.output := by
    have hlookup : (Device.setResponse {} query (some text)).responses.lookup
        (toAsciiUppercase (Device.headAndArg (trim query)).1) = none := by
      rw [lookup_setResponse]
      exact if_neg (header_ne_scriptKey h.nonblank hblank)
    rw [receive_isUnit h rfl]
    simp only [Device.executeUnit, hlookup]
    have hface := congrArg Device.output (Device.perform_face (Device.setResponse {} query (some text))
      (Device.headAndArg (trim query)).1 (Device.headAndArg (trim query)).2
      (Command.ofHeader (toAsciiUppercase (Device.headAndArg (trim query)).1)))
    exact hface
  rw [hone s, hone t]

/-- **Scripted answers** answer the query they were set for just when it has no
blank inside: no argument. -/
theorem scripts_iff {query : Text} (h : IsUnit query) :
    Scripts query ↔ ∀ c ∈ trim query, isWhitespace c = false := by
  constructor
  · intro hscripts c hc
    by_contra hspace
    have hsame := output_of_not_header h ⟨c, hc, by simpa using hspace⟩ "A".toList "B".toList
    rw [(hscripts.answers {} "A".toList rfl).output, (hscripts.answers {} "B".toList rfl).output] at hsame
    exact absurd hsame (by decide)
  · intro hplain
    refine ⟨fun dev text hi => ?_, fun dev response _ => ⟨?_, ?_, setResponse_absent⟩,
      fun dev response other hne => ?_,
      fun dev response other hother hi hne => face_receive_setResponse hother hi hne response⟩
    · rw [answered_of_header h hplain dev text hi]
      exact ⟨rfl, rfl, rfl, rfl, rfl, rfl⟩
    · rw [scripted_setResponse, if_pos rfl]
    · rw [setResponse_none]
    · rw [scripted_setResponse, if_neg hne]

/-- A query with an argument. -/
def measureRange : Text := "MEAS:VOLT? 10".toList

theorem isUnit_measureRange : IsUnit measureRange := ⟨by decide +kernel, by decide, by decide⟩

/-- Its script is never found: the header is undefined. -/
theorem measureRange_unanswered : IsUnit measureRange ∧ ¬ Scripts measureRange := by
  refine ⟨isUnit_measureRange, fun h => ?_⟩
  have hout := (h.answers {} "1.5".toList rfl).output
  exact absurd hout (by decide +kernel)

theorem scripts_header : IsUnit " meas:volt?".toList ∧ Scripts " meas:volt?".toList := by
  have h : IsUnit " meas:volt?".toList := ⟨by decide +kernel, by decide, by decide⟩
  have hplain : ((trim " meas:volt?".toList).all fun c => !isWhitespace c) = true := by rfl
  exact ⟨h, (scripts_iff h).mpr fun c hc => by simpa using List.all_eq_true.mp hplain c hc⟩

end TestGear.Instrument
