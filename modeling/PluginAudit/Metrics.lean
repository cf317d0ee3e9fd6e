import PluginAudit.Decimal.Shortest
import PluginAudit.Table

/-!
Counters of scans and their text for a metrics collector: families in order of their names, the
series of a family in order of their label values, and a family without series left out.
-/

namespace PluginAudit

/-- Counts by label values, in increasing order. -/
abbrev Tally := List (List String × Nat)

def Tally.add (labels : List String) (n : Nat) : Tally → Tally
  | [] => [(labels, n)]
  | (other, m) :: rest =>
    if labels = other then (other, m + n) :: rest
    else if labels < other then (labels, n) :: (other, m) :: rest
    else (other, m) :: Tally.add labels n rest

/-- How long combinations took: how many observations reach each bound, and the sum in seconds. -/
structure Timing where
  labels : List String
  reached : List Nat
  count : Nat
  sum : Double

structure Metrics where
  files : Nat := 0
  findings : Tally := []
  suppressed : Tally := []
  lintRuns : Tally := []
  timings : List Timing := []

namespace Metrics

inductive Reason where
  | dependency
  | rule
  | severity
  | baseline
deriving DecidableEq, Repr

def Reason.label : Reason → String
  | .dependency => "ignore_dependency_errors"
  | .rule => "suppress_rule"
  | .severity => "severity_filter"
  | .baseline => "baseline"

/-! ### Counting -/

/-- Counts analysed files; a number that is not positive counts nothing. -/
def addFiles (m : Metrics) (n : Int) : Metrics := { m with files := m.files + n.toNat }

def addFinding (m : Metrics) (kind severity : String) : Metrics :=
  { m with findings := m.findings.add [kind, severity] 1 }

/-- Counts dropped findings; a number that is not positive counts nothing. -/
def addSuppressed (m : Metrics) (reason : String) (n : Int) : Metrics :=
  if n ≤ 0 then m else { m with suppressed := m.suppressed.add [reason] n.toNat }

def addLint (m : Metrics) (outcome : String) : Metrics :=
  { m with lintRuns := m.lintRuns.add [outcome] 1 }

/-- The upper bounds of the time classes in seconds, with their texts. -/
def bounds : List (Float × String) :=
  [(0.005, "0.005"), (0.01, "0.01"), (0.025, "0.025"), (0.05, "0.05"), (0.1, "0.1"), (0.25, "0.25"),
   (0.5, "0.5"), (1, "1"), (2.5, "2.5"), (5, "5"), (10, "10")]

def seconds (nanoseconds : Int) : Float :=
  Float.ofInt (nanoseconds.tdiv 1000000000) + Float.ofInt (nanoseconds.tmod 1000000000) / 1e9

def Timing.observe (t : Timing) (x : Float) : Timing :=
  { t with
    reached := (t.reached.zip bounds).map fun (n, bound, _) => if x ≤ bound then n + 1 else n
    count := t.count + 1
    sum := .ofFloat (t.sum.toFloat + x) }

/-- Adds an observation to the timings, which are in order of their labels. -/
def observeIn (labels : List String) (x : Float) : List Timing → List Timing
  | [] => [Timing.observe ⟨labels, bounds.map fun _ => 0, 0, .ofInt 0⟩ x]
  | t :: rest =>
    if labels = t.labels then Timing.observe t x :: rest
    else if labels < t.labels then
      Timing.observe ⟨labels, bounds.map fun _ => 0, 0, .ofInt 0⟩ x :: t :: rest
    else t :: observeIn labels x rest

def addTiming (m : Metrics) (php wp : String) (nanoseconds : Int) : Metrics :=
  { m with timings := observeIn [php, wp] (seconds nanoseconds) m.timings }

/-! ### Text -/

def escapeLabel (value : String) : String :=
  String.ofList (value.toList.flatMap fun c =>
    if c == '\\' then ['\\', '\\'] else if c == '"' then ['\\', '"']
    else if c == '\n' then ['\\', 'n'] else [c])

def labelText (labels : List (String × String)) : String :=
  if labels.isEmpty then ""
  else "\x7b" ++ ",".intercalate (labels.map fun (name, value) =>
    name ++ "=\"" ++ escapeLabel value ++ "\"") ++ "\x7d"

def sample (name : String) (labels : List (String × String)) (value : Double) : String :=
  name ++ labelText labels ++ " " ++ Decimal.write Decimal.plainStyle value ++ "\n"

def heading (name help type : String) : String :=
  "# HELP " ++ name ++ " " ++ help ++ "\n# TYPE " ++ name ++ " " ++ type ++ "\n"

/-- A family of counters; nothing if it has no series. -/
def counters (name help : String) (labels : List String) (tally : Tally) : String :=
  if tally.isEmpty then ""
  else heading name help "counter" ++ String.join (tally.map fun (values, n) =>
    sample name (labels.zip values) (.ofInt n))

def timingText (name : String) (t : Timing) : String :=
  let labels := ["php", "wp"].zip t.labels
  let bucket (bound : String) (n : Nat) :=
    sample (name ++ "_bucket") (labels ++ [("le", bound)]) (.ofInt n)
  String.join ((bounds.zip t.reached).map fun ((_, text), n) => bucket text n) ++
    bucket "+Inf" t.count ++ sample (name ++ "_sum") labels t.sum ++
    sample (name ++ "_count") labels (.ofInt t.count)

/-- The family of timings; nothing if there are none. -/
def timingsText (timings : List Timing) : String :=
  let name := "wpfatal_combination_seconds"
  if timings.isEmpty then ""
  else heading name "Time spent scanning one PHP and WordPress version combination." "histogram" ++
    String.join (timings.map (timingText name))

def text (m : Metrics) : String :=
  timingsText m.timings ++
  counters "wpfatal_files_scanned_total" "PHP files analyzed, counted once per version combination."
    [] [([], m.files)] ++
  counters "wpfatal_findings_suppressed_total" "Findings dropped before reporting." ["reason"]
    m.suppressed ++
  counters "wpfatal_findings_total" "Findings reported after filtering." ["kind", "severity"]
    m.findings ++
  counters "wpfatal_lint_invocations_total" "php -l invocations by outcome." ["outcome"] m.lintRuns

end Metrics

end PluginAudit
