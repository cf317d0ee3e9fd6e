import PluginAudit.CommandLine.Request

/-!
Understanding a command line. Flags are read first, then help is given, then the number of words is
checked, then the flags of every command, and last those of the command itself.
-/

namespace PluginAudit.CommandLine

inductive Cause where
  | help
  | unknownCommand (word : String)
  | flag (cause : FlagError)
  | tooManyWords (limit given : Nat)
  | noWords
  | unexpectedWord (word : String) (command : Command)
  | logLevel (value : String)
  | logFormat (value : String)
  | color (value : String)
  | format (cause : Report.Format.Error)
  | conflictingFilter
  | severity (cause : Severity.Error)
  | mode (cause : Mode.Error)
  | debounce
  | settings (cause : Settings.Error)
deriving DecidableEq

def suggestionText (word : String) : String :=
  match Command.suggestions word with
  | [] => ""
  | names => "\n\nDid you mean this?\n" ++ String.join (names.map fun n => "\t" ++ n ++ "\n")

def Cause.message : Cause → String
  | .help => "help requested"
  | .unknownCommand word =>
    "unknown command " ++ Text.quote word ++ " for " ++ Text.quote Command.top.path ++
      suggestionText word
  | .flag cause => cause.message
  | .tooManyWords limit given =>
    "accepts at most " ++ Decimal.natText limit ++ " arg(s), received " ++ Decimal.natText given
  | .noWords => "requires at least 1 arg(s), only received 0"
  | .unexpectedWord word command =>
    "unknown command " ++ Text.quote word ++ " for " ++ Text.quote command.path
  | .logLevel value => "invalid --log-level: " ++ value
  | .logFormat value => "invalid --log-format: " ++ value
  | .color value => "invalid --color: " ++ value
  | .format cause => cause.message
  | .conflictingFilter => "cannot use both --show-all-errors and --fatal-only"
  | .severity cause => cause.message
  | .mode cause => cause.message
  | .debounce => "--debounce must be > 0"
  | .settings cause => cause.message

structure Refusal where
  command : Command
  cause : Cause
deriving DecidableEq

/-! ### Values of flags -/

def trimmed (items : List String) : List String := (items.map Text.trim).filter (· != "")

def lowered (items : List String) : List String := (trimmed items).map Text.lower

def trimmedText (s : Settled) (name : String) : String := Text.trim ((s.text? name).getD "")

def globals (s : Settled) : Except Cause Invocation := do
  let level := if (s.switch? ["verbose"]).getD false then "debug" else
    (s.text? "log-level").getD "info"
  let some logLevel := logLevel? level | throw (.logLevel level)
  let form := (s.text? "log-format").getD "text"
  let some logFormat := [LogFormat.text, .json].find? (·.name == Text.lower (Text.trim form))
    | throw (.logFormat form)
  let choice := (s.text? "color").getD "auto"
  let some color :=
    [ColorChoice.auto, .always, .never].find? (·.name == Text.lower (Text.trim choice))
    | throw (.color choice)
  let color := if (s.switch? ["no-colors"]).getD false then .never else color
  return { logLevel, logFormat, color }

def formatOf (s : Settled) (standard : String) : Except Cause Report.Format :=
  (Report.Format.parse ((s.text? "format").getD standard)).mapError .format

def severitiesOf (s : Settled) : Except Cause (Option (List Severity)) := do
  let all := (s.switch? ["show-all-errors", "all"]).getD false
  let fatal := (s.switch? ["fatal-only"]).getD false
  if all && fatal then throw .conflictingFilter
  match s.texts? "severity" with
  | some words => some <$> (Severity.parseList (",".intercalate words)).mapError .severity
  | none => return if all then some [.error, .warning] else if fatal then some [.error] else none

def modeOf (s : Settled) : Except Cause (Option Mode) :=
  match s.text? "reporting-mode" with
  | some word => some <$> (Mode.parse word).mapError .mode
  | none => return none

def layerOf (s : Settled) : Except Cause Settings.Layer := do
  let severities ← severitiesOf s
  let mode ← modeOf s
  let layer : Settings.Layer :=
    { phpVersions := (s.texts? "php").map trimmed
      wpVersions := (s.texts? "wp").map trimmed
      severities, mode
      exclusionConfig := (s.text? "exclusion-config").map Text.trim
      forceEcosystems := (s.texts? "force-ecosystem").map lowered
      disableDetection := s.switch? ["disable-ecosystem-detection"]
      ignoreDependencies := s.switch? ["ignore-dependency-errors"]
      includes := (s.texts? "include").map trimmed
      excludes := (s.texts? "exclude").map trimmed
      detectors := (s.texts? "detectors").map lowered
      workers := s.whole? "workers"
      lintEnabled := (s.switch? ["no-lint"]).map (!·)
      lintBinary := (s.text? "php-binary").map Text.trim
      lintTimeout := s.span? "lint-timeout"
      lintRate := s.real? "lint-rate"
      probeRuntime := s.switch? ["probe-runtime"]
      maxEcosystemFiles := s.whole? "max-ecosystem-scan-files"
      suppress := (s.texts? "suppress").map trimmed
      cacheEnabled := s.switch? ["cache"]
      cachePath := (s.text? "cache-path").map Text.trim }
  layer.validate.mapError .settings
  return layer

/-! ### Commands -/

def pathOf (words : List String) : String := words.headD "."

def scanRequest (task : Task) (debounce : Int) (s : Settled) (words : List String) :
    Except Cause Request := do
  let format ← formatOf s "pretty"
  let settings ← layerOf s
  return {
    task, path := pathOf words, format, config := trimmedText s "config"
    scan :=
      { settings, debounce
        baseline := trimmedText s "baseline"
        saveBaseline := trimmedText s "save-baseline"
        baselineKey := trimmedText s "baseline-key"
        metricsFile := trimmedText s "metrics-file" } }

def standardDebounce : Int := 500000000

def watchRequest (s : Settled) (words : List String) : Except Cause Request :=
  let debounce := (s.span? "debounce").getD standardDebounce
  if debounce ≤ 0 then .error .debounce else scanRequest .watch debounce s words

def ecosystemsRequest (s : Settled) (words : List String) : Except Cause Request := do
  let format ← formatOf s "table"
  let settings : Settings.Layer :=
    { forceEcosystems := (s.texts? "force-ecosystem").map lowered
      maxEcosystemFiles := s.whole? "max-ecosystem-scan-files" }
  settings.validate.mapError .settings
  return { task := .ecosystems, path := pathOf words, format, config := trimmedText s "config"
           scan := { settings } }

def exclusionsRequest (task : Task) (format : Report.Format) (s : Settled) :
    Except Cause Request := do
  let mode ← modeOf s
  return { task, format
           exclusions :=
             { config := trimmedText s "exclusion-config"
               mode := mode.getD .fatalOnly
               output := trimmedText s "output" } }

def checkWords (c : Command) (words : List String) : Except Cause Unit :=
  match c with
  | .scan | .watch | .ecosystems =>
    if 1 < words.length then .error (.tooManyWords 1 words.length) else .ok ()
  | .exclusionStats | .exclusionExport | .version => match words with
    | [] => .ok ()
    | word :: _ => .error (.unexpectedWord word c)
  | .complete => if words.isEmpty then .error .noWords else .ok ()
  | .top | .exclusions | .help => .ok ()

/-- The request of a command; one that only writes about commands leaves the request as it is
without any words. -/
def requestOf (c : Command) (s : Settled) (words : List String) : Except Cause Request :=
  match c with
  | .scan => scanRequest .scan 0 s words
  | .watch => watchRequest s words
  | .ecosystems => ecosystemsRequest s words
  | .exclusionStats => do exclusionsRequest .exclusionStats (← formatOf s "table") s
  | .exclusionExport => exclusionsRequest .exclusionExport .pretty s
  | .version => .ok { task := .version }
  | .top | .exclusions | .help | .complete => .ok {}

/-- A word that names no command where one is needed. -/
def strayWord? (c : Command) (words : List String) : Option String :=
  if c = .top then (candidates c.flags words).head? else none

def helpTopic? (words : List String) : Option Command :=
  let (topic, rest) := Command.top.locate words
  if topic = .complete ∨ (strayWord? topic rest).isSome then none else some topic

def readCommand (c : Command) (words : List String) : Except Refusal Invocation := do
  let refuse {α : Type} (r : Except Cause α) : Except Refusal α := r.mapError (⟨c, ·⟩)
  let (settled, words) ←
    if c = .complete then pure ([], words)
    else refuse ((readOptions (Command.helpFlag :: c.flags) words).mapError .flag)
  if (Settled.switch? settled ["help"]).getD false || !c.isRunnable then throw ⟨c, .help⟩
  refuse (checkWords c words)
  let invocation ← refuse (globals settled)
  if c = .help then
    match helpTopic? words with
    | some topic => throw ⟨topic, .help⟩
    | none => return invocation
  let request ← refuse (requestOf c settled words)
  return { invocation with request }

def parse (words : List String) : Except Refusal Invocation :=
  let (c, rest) := Command.top.locate words
  match strayWord? c rest with
  | some word => .error ⟨c, .unknownCommand word⟩
  | none => readCommand c rest

end PluginAudit.CommandLine
