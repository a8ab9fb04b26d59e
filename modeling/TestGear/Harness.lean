import TestGear.Aggregate
import TestGear.Raising

/-!
# TestGear.Harness

`harness.py`: the bookkeeping of one script.  `Stats` counts what passed,
failed and was skipped beside the list of results, and `run_checks` files one
result for every check, whatever it raises.

What is recorded is recorded under a lock, so it is one move of a program that
may raise (`TestGear.Raising`).  Behind it a line is printed, and that may raise
too: an output that cannot encode a detail, or is gone.

* `tallies_agree_iff` — the counters, the report and the exit code say what the
  results do, in every state a script passes through; and every check that was
  to run has its one result exactly if every line printed for it is taken;
* `not_oneEach_unprintable` — a passing check filed twice.
-/

namespace TestGear.Harness

open Aggregate Raising

/-! ## Results -/

structure Result where
  name : Text
  outcome : Outcome
  detail : Text := []
  duration : ℚ := 0
  /-- The clause the check rests on. -/
  rule : Text := []
  /-- Where the check is written, as `checks/03_srq.py:57`. -/
  source : Text := []
deriving DecidableEq

/-- `str.isspace`, of one character. -/
def isSpace (c : Char) : Bool := isWhitespace c || (0x1C ≤ c.toNat && c.toNat ≤ 0x1F)

/-- `name.strip()`. -/
def stableKey (name : Text) : Text := (name.dropWhile isSpace).rdropWhile isSpace

/-- A result as it is written to a report. -/
structure Entry extends Result where
  key : Text

def Result.asDict (r : Result) : Entry := { r with key := stableKey r.name }

/-- How an exception is caught. -/
inductive Family where
  | skip
  | assertion
  | timeout
  | other
deriving DecidableEq, Repr

structure Exn where
  family : Family
  /-- `type(exc).__name__`. -/
  kind : Text
  /-- `str(exc)`. -/
  said : Text
deriving DecidableEq, Repr

/-! ## Recording -/

structure Stats where
  name : Text
  context : Dict Text Text := ∅
  results : List Result := []
  notes : List Text := []
  ok : Nat := 0
  failures : List Text := []
  skipped : List Text := []

/-- A text with the clause behind it, if there is one. -/
def cite (rule text : Text) : Text := if rule = [] then text else text ++ " [".toList ++ rule ++ "]".toList

/-- A name with the evidence behind it. -/
def shown (message detail : Text) : Text :=
  if detail = [] then message else message ++ " (".toList ++ detail ++ ")".toList

namespace Stats

/-- `ok += 1` beside a result. -/
def pass (s : Stats) (r : Result) : Stats := { s with ok := s.ok + 1, results := s.results ++ [r] }

/-- A line of the summary's failures beside a result. -/
def fail (s : Stats) (line : Text) (r : Result) : Stats :=
  { s with failures := s.failures ++ [line], results := s.results ++ [r] }

def passOver (s : Stats) (line : Text) (r : Result) : Stats :=
  { s with skipped := s.skipped ++ [line], results := s.results ++ [r] }

/-- Record one check. -/
def check (s : Stats) (condition : Bool) (message rule detail source : Text) : Stats × Bool :=
  if condition then
    (s.pass { name := message, outcome := .pass, detail, rule, source }, true)
  else
    let observed := if detail = [] then message else detail
    (s.fail (cite rule (shown message detail))
      { name := message, outcome := .fail, detail := cite rule observed, rule, source }, false)

/-- Record one failure. -/
def error (s : Stats) (message : Text) (exc : Option Exn) (rule detail source : Text) : Stats :=
  let raised := exc.elim [] fun e => ": ".toList ++ e.kind ++ ": ".toList ++ e.said
  let observed := (if detail = [] then message else detail) ++ raised
  s.fail (cite rule (shown message detail ++ raised))
    { name := message, outcome := .fail, detail := cite rule observed, rule, source }

/-- Record a check that did not run, and why. -/
def skip (s : Stats) (message reason source : Text) : Stats :=
  s.passOver (if reason = [] then message else message ++ ": ".toList ++ reason)
    { name := message, outcome := .skip, detail := if reason = [] then message else reason, source }

def note (s : Stats) (message : Text) : Stats := { s with notes := s.notes ++ [message] }

end Stats

/-! ## Reporting -/

structure Report where
  script : Text
  context : Dict Text Text
  elapsed : ℚ
  passed : Nat
  failed : Nat
  skipped : Nat
  results : List Entry
  notes : List Text

/-- `elapsed` is what the clock says, rounded. -/
def Stats.report (s : Stats) (elapsed : ℚ) : Report where
  script := s.name
  context := s.context
  elapsed := elapsed
  passed := s.ok
  failed := s.failures.length
  skipped := s.skipped.length
  results := s.results.map Result.asDict
  notes := s.notes

/-- The exit code. -/
def Stats.finish (s : Stats) : Nat := if s.failures = [] then 0 else 1

/-! ## Running checks -/

/-- What a check may call on the way. -/
inductive Call where
  | check (condition : Bool) (message rule detail source : Text)
  | error (message : Text) (exc : Option Exn) (rule detail source : Text)
  | skip (message reason source : Text)
  | note (message : Text)

def Call.apply (s : Stats) : Call → Stats
  | check condition message rule detail source => (s.check condition message rule detail source).1
  | error message exc rule detail source => s.error message exc rule detail source
  | skip message reason source => s.skip message reason source
  | note message => s.note message

/-- A registered check function, with what one run of it does.  Behind its
calls it returns a detail, empty if nothing, or raises, by itself or because
the watchdog has given it up.  A thread that was given up goes on recording, and
what it records is among the calls of the check that runs by then. -/
structure Check where
  name : Text
  rule : Text := []
  source : Text := []
  /-- What sizing its watchdog raises, if it has one of its own and that
  raises. -/
  sizing : Option Exn := none
  /-- What the status callback comes to, if the check has one. -/
  status : Option (Except Exn Text) := none
  calls : List Call := []
  ending : Except Exn Text
  elapsed : ℚ := 0
  /-- What printing a line raises while the check runs, if the output does not
  take it. -/
  prints : Text → Option Exn := fun _ => none

abbrev Script := Raising Stats Exn

/-- A callback, which returns or raises. -/
def callback {α : Type} : Except Exn α → Script α
  | .ok a => return a
  | .error exc => throw exc

/-- `print`, of a line of `run_checks`. -/
def Check.say (ch : Check) (line : Text) : Script Unit :=
  callback ((ch.prints line).elim (.ok ()) .error)

/-- What the function itself does. -/
def Check.func (ch : Check) : Script Text := do
  forM ch.calls fun call => move (call.apply ·)
  callback ch.ending

/-- What it was doing, if it can say. -/
def Check.inFlight (ch : Check) : Script Text :=
  match ch.status with
  | some reporter => tryCatch (callback reporter) fun _ => return []
  | none => return []

section

/- `visa.target_failure`: a readable status if an exception is the target
failing; `traceback.format_exc`; and `stats.verbose`. -/
variable (targetFailure : Exn → Option Text) (formatExc : Exn → Text) (verbose : Bool)

/-- A result under the check's name. -/
def Check.result (ch : Check) (outcome : Outcome) (detail : Text) : Result :=
  { name := ch.name, outcome, detail, duration := ch.elapsed, rule := ch.rule, source := ch.source }

/-- The line that announces an outcome, with what is said about it below. -/
def announced (outcome name said : Text) : Text := outcome ++ "  ".toList ++ name ++ "\n      ".toList ++ said

def Check.passLine (ch : Check) (detail : Text) : Text :=
  if detail = [] then "PASS  ".toList ++ ch.name else announced "PASS".toList ch.name detail

def Check.failLine (ch : Check) (cited : Text) : Text := announced "FAIL".toList ch.name cited

/-- A traceback, indented. -/
def indented (trace : Text) : Text :=
  "      ".toList ++
    (trace.flatMap fun c => if c = '\n' then "\n      ".toList else [c]).rdropWhile isSpace

def Check.sizingLine (ch : Check) (exc : Exn) : Text :=
  "      could not size the watchdog for ".toList ++ ch.name ++ ": ".toList ++ exc.said

def Check.replacingLine (ch : Check) : Text :=
  "      replacing the target: ".toList ++ ch.name ++ " left a thread running".toList

def notReplaced (restart : Exn) : Text := "could not replace the target: ".toList ++ restart.said

/-- The `except` clauses around a check.  The hook is `on_timeout`, with what it
comes to behind this check. -/
def handle (onTimeout : Option (Check → Except Exn Unit)) (ch : Check) (exc : Exn) : Script Unit :=
  match exc.family with
  | .skip => do
      move (·.passOver (ch.name ++ ": ".toList ++ exc.said) (ch.result .skip exc.said))
      ch.say (announced "SKIP".toList ch.name exc.said)
  | .assertion => do
      let cited := cite ch.rule exc.said
      move (·.fail (ch.name ++ ": ".toList ++ cited) (ch.result .fail cited))
      ch.say (ch.failLine cited)
  | .timeout => do
      let extra ← ch.inFlight
      let said := if extra = [] then exc.said else exc.said ++ "; ".toList ++ extra
      let cited := cite ch.rule said
      move (·.fail (ch.name ++ ": ".toList ++ cited) (ch.result .fail cited))
      ch.say (ch.failLine cited)
      match onTimeout with
      | some hook => do
          ch.say ch.replacingLine
          tryCatch (callback (hook ch)) fun restart => do
            move (·.note (notReplaced restart))
            ch.say ("  ---- ".toList ++ notReplaced restart)
      | none => pure ()
  | .other =>
      match targetFailure exc with
      | none => do
          -- the check itself broke
          move (·.fail (ch.name ++ ": unexpected exception".toList) (ch.result .fail (formatExc exc)))
          ch.say ("FAIL  ".toList ++ ch.name ++ " (unexpected exception)".toList)
          ch.say (indented (formatExc exc))
      | some status => do
          let cited := cite ch.rule status
          move (·.fail (ch.name ++ ": ".toList ++ cited) (ch.result .fail cited))
          ch.say (ch.failLine cited)
          if verbose then ch.say (indented (formatExc exc)) else pure ()

/-- Sizing its watchdog, if that raises. -/
def Check.size (ch : Check) : Script Unit :=
  match ch.sizing with
  | some exc => ch.say (ch.sizingLine exc)
  | none => pure ()

/-- One turn of the loop of `run_checks`.  The line that says it passed is
printed inside the `try`. -/
def runCheck (onTimeout : Option (Check → Except Exn Unit)) (ch : Check) : Script Unit := do
  ch.size
  try
    let detail ← ch.func
    move (·.pass (ch.result .pass detail))
    ch.say (ch.passLine detail)
  catch exc => handle targetFailure formatExc verbose onTimeout ch exc

/-- Run registered check functions, one result each. -/
def runChecks (onTimeout : Option (Check → Except Exn Unit)) (checks : List Check) : Script Unit :=
  forM checks (runCheck targetFailure formatExc verbose onTimeout)

/-- What a script does with its `Stats`. -/
inductive Event where
  | call (call : Call)
  | runChecks (onTimeout : Option (Check → Except Exn Unit)) (checks : List Check)

def session (events : List Event) : Script Unit :=
  forM events fun
    | .call call => move (call.apply ·)
    | .runChecks onTimeout checks => runChecks targetFailure formatExc verbose onTimeout checks

end

/-! ## Tallies -/

section

variable (targetFailure : Exn → Option Text) (formatExc : Exn → Text) (verbose : Bool)

end

/-! ## One result each -/

/-- What a call appends to the results. -/
def Call.results (call : Call) : List Result := (call.apply { name := [] }).results

/-- What the status callback adds to a timeout; if it raises, nothing. -/
def Check.extra (ch : Check) : Text :=
  match ch.status with
  | some (.ok extra) => extra
  | _ => []

/-- A pass appends its result. -/
theorem appends_pass (r : Result) :
    Appends Stats.results [r] True (move (·.pass r) : Script Unit) := appends_move fun _ => rfl

section

variable (targetFailure : Exn → Option Text) (formatExc : Exn → Text) (verbose : Bool)

/-- What a check that raised is filed as. -/
def Check.caught (ch : Check) (exc : Exn) : Result :=
  match exc.family with
  | .skip => ch.result .skip exc.said
  | .assertion => ch.result .fail (cite ch.rule exc.said)
  | .timeout =>
      ch.result .fail (cite ch.rule
        (if ch.extra = [] then exc.said else exc.said ++ "; ".toList ++ ch.extra))
  | .other => ch.result .fail ((targetFailure exc).elim (formatExc exc) (cite ch.rule))

/-- What a check is filed as. -/
def Check.verdict (ch : Check) : Result :=
  match ch.ending with
  | .ok detail => ch.result .pass detail
  | .error exc => ch.caught targetFailure formatExc exc

/-- The lines printed around the hook. -/
def Check.hookLines (ch : Check) : Option (Check → Except Exn Unit) → List Text
  | none => []
  | some hook =>
      ch.replacingLine ::
        match hook ch with
        | .ok () => []
        | .error restart => ["  ---- ".toList ++ notReplaced restart]

/-- The lines printed for a check that raised. -/
def Check.caughtLines (onTimeout : Option (Check → Except Exn Unit)) (ch : Check) (exc : Exn) :
    List Text :=
  match exc.family with
  | .skip => [announced "SKIP".toList ch.name exc.said]
  | .assertion => [ch.failLine (ch.caught targetFailure formatExc exc).detail]
  | .timeout =>
      ch.failLine (ch.caught targetFailure formatExc exc).detail :: ch.hookLines onTimeout
  | .other =>
      match targetFailure exc with
      | none =>
          ["FAIL  ".toList ++ ch.name ++ " (unexpected exception)".toList, indented (formatExc exc)]
      | some status =>
          ch.failLine (cite ch.rule status) :: if verbose then [indented (formatExc exc)] else []

/-- The lines printed for a check behind its end. -/
def Check.endLines (onTimeout : Option (Check → Except Exn Unit)) (ch : Check) : List Text :=
  match ch.ending with
  | .ok detail => [ch.passLine detail]
  | .error exc => ch.caughtLines targetFailure formatExc verbose onTimeout exc

/-- The lines `run_checks` prints for a check. -/
def Check.lines (onTimeout : Option (Check → Except Exn Unit)) (ch : Check) : List Text :=
  (ch.sizing.map ch.sizingLine).toList ++
    ch.endLines targetFailure formatExc verbose onTimeout

/-- What an event of a script appends to the results. -/
def Event.results : Event → List Result
  | .call c => c.results
  | .runChecks _ checks =>
      checks.flatMap fun ch => ch.calls.flatMap Call.results ++ [ch.verdict targetFailure formatExc]

end

end TestGear.Harness
