import PluginAudit.Pattern.Search
import PluginAudit.Text.Blank

/-!
The state of a scan that reads a file line by line and has to know which lines are no code: the
lines of block comments, heredoc bodies and embedded scripts.
-/

namespace PluginAudit.Source

/-- What a line is part of. At the top of a file it is plain code. -/
structure LineState where
  comment : Bool := false
  /-- Inside a heredoc with the marker that ends it. -/
  heredoc : Option (List Char) := none
  script : Bool := false
deriving DecidableEq

/-! ### Heredocs -/

/-- White space after which a heredoc marker may stand. -/
def isCodeSpace (c : Char) : Bool := CharSet.space.mem c

def isMarkerChar (c : Char) : Bool := CharSet.wordChar.mem c

/-- A marker that is followed by `close` and nothing but white space. -/
def closedMarker? (close : List Char) (s : List Char) : Option (List Char) :=
  let marker := s.takeWhile isMarkerChar
  let rest := s.dropWhile isMarkerChar
  if marker.isEmpty || !close.isPrefixOf rest then none
  else if (rest.drop close.length).all isCodeSpace then some marker
  else none

/-- The marker after the three angle brackets that open a heredoc, bare or between quotes. -/
def markerAfter? (s : List Char) : Option (List Char) :=
  match s.dropWhile isCodeSpace with
  | '"' :: rest => closedMarker? ['"'] rest
  | '\'' :: rest => closedMarker? ['\''] rest
  | rest => closedMarker? [] rest

/-- The marker of the heredoc that a line opens at its end. -/
def heredocMarker? : List Char → Option (List Char)
  | [] => none
  | c :: rest =>
    match (if ['<', '<', '<'].isPrefixOf (c :: rest) then markerAfter? (rest.drop 2) else none) with
    | some marker => some marker
    | none => heredocMarker? rest

/-- Whether a line consists of the marker, possibly with a semicolon, and white space. -/
def endsHeredoc (marker line : List Char) : Bool :=
  let trimmed := Text.trimChars line
  let bare := if trimmed.getLast? = some ';' then trimmed.dropLast else trimmed
  Text.trimChars bare == marker

/-! ### Comments and scripts -/

def lastOpener? : List Char → Option (List Char)
  | [] => none
  | c :: rest =>
    match lastOpener? rest with
    | some found => some found
    | none => if ['/', '*'].isPrefixOf (c :: rest) then some (c :: rest) else none

def closesComment (line : List Char) : Bool :=
  Text.occursIn ['*', '/'] line

def opensComment (line : List Char) : Bool :=
  match lastOpener? line with
  | some rest => !closesComment rest
  | none => false

def scriptOpening : Pattern :=
  .cat [.literalAnyCase "<script", .star (.noneOf ">"), .literal ">"]

def scriptClosing : Pattern := .literalAnyCase "</script>"

namespace LineState

def skippable (s : LineState) : Bool := s.comment || s.heredoc.isSome

/-- Takes up what a line does to heredocs. Nothing opens inside a comment. -/
def updateHeredoc (s : LineState) (line : List Char) : LineState :=
  match s.heredoc with
  | some marker => if endsHeredoc marker line then { s with heredoc := none } else s
  | none => if s.comment then s else { s with heredoc := heredocMarker? line }

def updateComment (s : LineState) (line : List Char) : LineState :=
  if s.comment then { s with comment := !closesComment line }
  else { s with comment := opensComment line }

/-- Takes up the script tags of a line; a closing tag wins over an opening one. -/
def updateScript (s : LineState) (line : List Char) : LineState :=
  if scriptClosing.test line then { s with script := false }
  else if scriptOpening.test line then { s with script := true }
  else s

def update (s : LineState) (line : List Char) : LineState :=
  let s := s.updateHeredoc line
  let s := if s.heredoc.isSome then s else s.updateComment line
  s.updateScript line

end LineState

def statesFrom (s : LineState) : List (List Char) → List (LineState × List Char)
  | [] => []
  | line :: lines =>
    let s := s.update line
    (s, line) :: statesFrom s lines

/-- Each line of a file with its number, counted from one, and its state. -/
def numberedStates (lines : List (List Char)) : List (Nat × LineState × List Char) :=
  ((statesFrom {} lines).zipIdx 1).map fun ((s, line), number) => (number, s, line)

end PluginAudit.Source
