import PluginAudit.Detector.Basic
import PluginAudit.Lint
import PluginAudit.Source.Embedded

/-!
Syntax: the diagnostics of the runtime's own check, where there is one, and two heuristics for
missing semicolons and unmatched brackets on lines of code.
-/

namespace PluginAudit.Detector.Syntax

open Pattern Source

/-! ### The runtime's check -/

/-- A way to check a file: the diagnostics, or a failure. -/
abbrev Linter := String → Except Lint.Error (List Lint.Diagnostic)

def ofDiagnostic (path : String) (d : Lint.Diagnostic) : Finding :=
  match d.kind with
  | .parse => ⟨.syntaxError, d.message, path, d.line, .error,
      "Fix the syntax error in the specified line", []⟩
  | .fatal => ⟨.fatalSyntaxError, d.message, path, d.line, .error,
      "Fix the fatal syntax error in the specified line", []⟩

/-- The findings of checks that are known already. -/
structure Memo where
  known : Table (List Finding) := []
deriving DecidableEq

/-- The findings of the check of a file, made at most once, in whatever way it is run. A failed
check has none; it is remembered unless the run was cancelled. -/
def checkedBy {m : Type → Type} [Monad m]
    (linter : Option (String → m (Except Lint.Error (List Lint.Diagnostic)))) (live : Bool)
    (memo : Memo) (path : String) : m (Memo × List Finding) :=
  match linter with
  | none => pure (memo, [])
  | some lint =>
    match Table.get? path memo.known with
    | some findings => pure (memo, findings)
    | none => do
      match ← lint path with
      | .error _ => return (if live then ⟨Table.insert path [] memo.known⟩ else memo, [])
      | .ok diagnostics =>
        let findings := diagnostics.map (ofDiagnostic path)
        return (⟨Table.insert path findings memo.known⟩, findings)

def checked (linter : Option Linter) (live : Bool) (memo : Memo) (path : String) :
    Memo × List Finding :=
  Id.run (checkedBy linter live memo path)

/-! ### Heuristics -/

def headWords : List String :=
  ["if", "else", "elseif", "while", "for", "foreach", "switch", "case", "default", "try", "catch",
   "finally", "do", "match", "function", "fn", "class", "interface", "trait", "enum", "namespace",
   "use", "abstract", "final", "readonly", "public", "private", "protected", "static", "declare",
   "goto"]

def controlHead : Pattern := .cat [textStart, words headWords, wordEdge]

def heredocStart : Pattern :=
  .cat [literal "<<<", spaces, opt (anyOf "\"'"), wordRun, opt (anyOf "\"'"), spaces, textEnd]

def hookCall : Pattern :=
  .cat [wordEdge,
    oneOf [.seq (literal "add_") (words ["action", "filter"]), literal "do_action",
      literal "apply_filters", .seq (literal "wp_enqueue_") (words ["script", "style"])],
    spaces, literal "("]

def openCall : Pattern := .cat [wordRun, spaces, literal "(", star (noneOf ")"), textEnd]

def assignment : Pattern :=
  .cat [textStart, literal "$", wordRun, spaces,
    star (.cat [literal "[", star (noneOf "]"), literal "]", spaces]),
    .seq (opt (anyOf ".+-*/")) (literal "="), spaces, noneOf "=>"]

def output : Pattern :=
  .cat [textStart, words ["echo", "print", "throw", "return"], spaces1, .set CharSet.space.compl]

def trailingOperator : Pattern :=
  .cat [oneOf [anyOf ".+-*/=?%&|^<>!",
      .seq wordEdge (words ["and", "or", "xor", "new", "instanceof"])],
    spaces, textEnd]

def leadingContinuation : Pattern :=
  .seq textStart (oneOf [anyOf ".?:+-*/%&|)]", literal "->", literal "=>",
    .seq (words ["and", "or", "xor"]) wordEdge])

def statementStart : Pattern :=
  .seq textStart (oneOf [.seq (literal "$") wordRun, .seq (literal "echo") wordEdge,
    .seq (literal "print") wordEdge, .seq (literal "return") wordEdge,
    .cat [identifier, spaces, literal "("]])

def closingOnly : Pattern :=
  .cat [textStart, plus (anyOf ")]\x7d"), spaces, opt (literal ";"), textEnd]

def openingOnly : Pattern := .cat [textStart, plus (anyOf "([\x7b"), textEnd]

def arrayStart : Pattern := .cat [wordEdge, literal "array", spaces, literal "("]

def codeTag : Pattern :=
  oneOf [.cat [textStart, literal "<?", opt (words ["php", "="])], .seq (literal "?>") textEnd]

/-- A line of code with its number, as it is and cleaned, both trimmed. -/
structure CodeLine where
  number : Nat
  raw : List Char
  cleaned : List Char

def codeLines (f : File) : List CodeLine :=
  f.codeLines.filterMap fun (number, line) =>
    if isCommentLine line then none
    else
      let cleaned := Text.trimChars (clean line)
      if cleaned.isEmpty then none else some ⟨number, Text.trimChars line, cleaned⟩

def endsIn (s : List Char) (chars : String) : Bool := s.getLast?.any chars.toList.contains

def startsIn (s : List Char) (chars : String) : Bool := s.head?.any chars.toList.contains

def countIn (s : List Char) (chars : String) : Nat := s.countP chars.toList.contains

/-- Whether a statement that starts on a line goes on with the next one. -/
def continues (cleaned : List Char) : Bool :=
  if codeTag.test cleaned then false
  else if endsIn cleaned ",([" || trailingOperator.test cleaned then true
  else if endsIn cleaned ";\x7b\x7d" then false
  else decide (countIn cleaned ")]" < countIn cleaned "([")

def oddQuotes (raw : List Char) : Bool :=
  let stripped := stripStrings raw
  stripped.count '"' % 2 == 1 || stripped.count '\'' % 2 == 1

def lacksSemicolon (line : CodeLine) (next : List Char) : Bool :=
  let text := line.cleaned
  if codeTag.test text || Text.occursIn "?>".toList line.raw || controlHead.test text ||
    heredocStart.test line.raw || endsIn text ";\x7b\x7d[](," || startsIn text ")]\x7d" ||
    hookCall.test text || openCall.test text || trailingOperator.test text ||
    (!next.isEmpty && leadingContinuation.test next) || oddQuotes line.raw then false
  else assignment.test text || output.test text

/-- Whether a complete statement has one to three brackets too many or too few. -/
def lacksBracket (line : CodeLine) : Bool :=
  let text := line.cleaned
  let opened := countIn text "([\x7b"
  let closed := countIn text ")]\x7d"
  let gap := (opened - closed) + (closed - opened)
  if gap == 0 || gap > 3 then false
  else if closingOnly.test text || openingOnly.test text || endsIn text "," ||
    startsIn text ")]\x7d" || endsIn text "([\x7b" || controlHead.test text ||
    arrayStart.test text ||
    oddQuotes line.raw then false
  else endsIn text ";" && statementStart.test text

def lineFindings (path : String) (continued : Bool) (line : CodeLine) (next : List Char) :
    List Finding :=
  if continued || isScript line.raw || isStyle line.raw then []
  else
    (if lacksSemicolon line next then
      [⟨.missingSemicolon, "Possible missing semicolon", path, line.number, .warning,
        "Add semicolon at the end of the statement", []⟩] else []) ++
    (if lacksBracket line then
      [⟨.unmatchedBrackets, "Possible unmatched brackets", path, line.number, .warning,
        "Check bracket matching in this line", []⟩] else [])

def heuristics (path : String) (continued : Bool) : List CodeLine → List Finding
  | [] => []
  | line :: lines =>
    lineFindings path continued line ((lines.head?.map (·.cleaned)).getD []) ++
      heuristics path (continues line.cleaned) lines

def checkLines (f : File) : List Finding := heuristics f.path false (codeLines f)

def detect (linter : Option Linter) (live : Bool) (memo : Memo) (f : File) : Memo × List Finding :=
  let (memo, findings) := checked linter live memo f.path
  (memo, findings ++ checkLines f)

end PluginAudit.Detector.Syntax
