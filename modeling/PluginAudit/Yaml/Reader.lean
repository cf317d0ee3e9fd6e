import PluginAudit.Decimal.Radix
import PluginAudit.Table
import PluginAudit.Text.Blank
import PluginAudit.Yaml.Character
import PluginAudit.Yaml.Node

/-!
Reading the first document of a YAML text. Blocks are told apart by the column where their entries
start; inside brackets lines do not matter. Every reading function takes a bound on its nesting,
which the length of the text supplies.
-/

namespace PluginAudit.Yaml

/-- Where the reading stands: the text left, the column and line of its start, and the nodes named
so far. -/
structure Position where
  rest : List Char
  column : Nat := 0
  line : Nat := 0
  anchors : Table Node := []

abbrev Reading := StateT Position Option

def remaining : Reading (List Char) := return (← get).rest

def pass (n : Nat) : Reading Unit :=
  modify fun p => { p with rest := p.rest.drop n, column := p.column + n }

def require (condition : Bool) : Reading Unit :=
  if condition then pure () else failure

/-! ### Gaps -/

/-- The position after blanks, comments and line breaks. Tabs are passed only where `tabs` is set;
outside brackets that ends with the line. -/
def afterGap (flow : Bool) : (tabs comment : Bool) → Nat → Nat → List Char → List Char × Nat × Nat
  | _, _, column, line, [] => ([], column, line)
  | tabs, comment, column, line, c :: rest =>
    if isBreak c then
      if c == '\r' && rest.head? == some '\n' then afterGap flow tabs comment column line rest
      else afterGap flow flow false 0 (line + 1) rest
    else if comment then afterGap flow tabs true (column + 1) line rest
    else if c == ' ' || (tabs && c == '\t') then afterGap flow tabs false (column + 1) line rest
    else if c == '#' then afterGap flow tabs true (column + 1) line rest
    else (c :: rest, column, line)

def skipGap (flow tabs : Bool) : Reading Unit :=
  modify fun p =>
    let (rest, column, line) := afterGap flow tabs false p.column p.line p.rest
    { p with rest, column, line }

def skipBlanks : Reading Unit := do
  pass ((← remaining).takeWhile isGap).length

def atEnd : Reading Bool := do
  let p ← get
  return p.rest.isEmpty || (p.column == 0 && atMarker p.rest)

/-! ### Scalars -/

/-- The words of a plain scalar on one line, with what follows. A gap is kept only between words. -/
def plainWords (flow : Bool) (word gap : List Char) : List Char → List Char × List Char
  | [] => (word, [])
  | c :: rest =>
    if isBreak c then (word, gap.reverse ++ c :: rest)
    else if isGap c then plainWords flow word (c :: gap) rest
    else if c == '#' && !gap.isEmpty then (word, gap.reverse ++ c :: rest)
    else if (c == ':' && endsWord rest) || (flow && isFlowMark c) then
      (word, gap.reverse ++ c :: rest)
    else plainWords flow (c :: (gap ++ word)) [] rest

/-- Line breaks and the blanks around them: how many breaks, and the position after them. -/
def afterBreaks (breaks column line : Nat) : List Char → Nat × List Char × Nat × Nat
  | [] => (breaks, [], column, line)
  | c :: rest =>
    if isBreak c then
      if c == '\r' && rest.head? == some '\n' then afterBreaks breaks column line rest
      else afterBreaks (breaks + 1) 0 (line + 1) rest
    else if isGap c then afterBreaks breaks (column + 1) line rest
    else (breaks, c :: rest, column, line)

def foldedBreaks (breaks : Nat) : List Char :=
  if breaks ≤ 1 then [' '] else List.replicate (breaks - 1) '\n'

/-- The lines of a plain scalar; each line after the first starts at column `indent` or later. -/
def plainLines (flow : Bool) (indent : Nat) : Nat → List Char → Reading (List Char)
  | 0, _ => failure
  | fuel + 1, before => do
    let p ← get
    let (word, rest) := plainWords flow [] [] p.rest
    let text := before ++ word.reverse
    let used := p.rest.length - rest.length
    set { p with rest, column := p.column + used }
    let (breaks, next, column, line) := afterBreaks 0 (p.column + used) p.line rest
    if breaks == 0 || next.isEmpty || next.head? == some '#' ||
        (!flow && column < indent) || (column == 0 && atMarker next) then return text
    else if next.head? == some ':' && endsWord (next.drop 1) then return text
    else if flow && (next.head?.any isFlowMark) then return text
    else
      modify fun p => { p with rest := next, column, line }
      plainLines flow indent fuel (text ++ foldedBreaks breaks)

def singleQuoted : Nat → List Char → Reading (List Char)
  | 0, _ => failure
  | fuel + 1, text => do
    let p ← get
    match p.rest with
    | [] => failure
    | '\'' :: '\'' :: _ => pass 2; singleQuoted fuel ('\'' :: text)
    | '\'' :: _ => pass 1; return text.reverse
    | c :: rest =>
      if isGap c || isBreak c then
        let (breaks, next, column, line) := afterBreaks 0 p.column p.line (c :: rest)
        require !(column == 0 && atMarker next)
        set { p with rest := next, column, line }
        if breaks == 0 then
          singleQuoted fuel (((c :: rest).take (rest.length + 1 - next.length)).reverse ++ text)
        else singleQuoted fuel ((foldedBreaks breaks).reverse ++ text)
      else pass 1; singleQuoted fuel (c :: text)

def doubleQuoted : Nat → List Char → Reading (List Char)
  | 0, _ => failure
  | fuel + 1, text => do
    let p ← get
    match p.rest with
    | [] => failure
    | '"' :: _ => pass 1; return text.reverse
    | '\\' :: c :: rest =>
      if isBreak c then
        let (breaks, next, column, line) := afterBreaks 0 p.column p.line (c :: rest)
        require !(column == 0 && atMarker next)
        set { p with rest := next, column, line }
        doubleQuoted fuel (List.replicate (breaks - 1) '\n' ++ text)
      else match simpleEscape? c, escapeWidth? c with
        | some code, _ => pass 2; doubleQuoted fuel (Char.ofNat code :: text)
        | none, some width =>
          match Decimal.natIn? 16 (rest.take width) with
          | some code =>
            require (width ≤ rest.length && code.isValidChar)
            pass (2 + width); doubleQuoted fuel (Char.ofNat code :: text)
          | none => failure
        | none, none => failure
    | c :: rest =>
      if isGap c || isBreak c then
        let (breaks, next, column, line) := afterBreaks 0 p.column p.line (c :: rest)
        require !(column == 0 && atMarker next)
        set { p with rest := next, column, line }
        if breaks == 0 then
          doubleQuoted fuel (((c :: rest).take (rest.length + 1 - next.length)).reverse ++ text)
        else doubleQuoted fuel ((foldedBreaks breaks).reverse ++ text)
      else pass 1; doubleQuoted fuel (c :: text)

/-! ### Block scalars -/

/-- What happens to the line breaks at the end of a block scalar. -/
inductive Chomping where
  | strip
  | clip
  | keep
deriving DecidableEq

/-- The marks after the opening of a block scalar: chomping and a given indentation. -/
def blockMarks : List Char → Chomping × Nat × Nat
  | s =>
    let chomp? (c : Char) : Option Chomping :=
      if c == '-' then some .strip else if c == '+' then some .keep else none
    let digit? (c : Char) : Option Nat := if '1' ≤ c ∧ c ≤ '9' then some (c.toNat - 48) else none
    match s with
    | a :: b :: _ =>
      match chomp? a, digit? a with
      | some chomping, _ => match digit? b with
        | some n => (chomping, n, 2)
        | none => (chomping, 0, 1)
      | none, some n => match chomp? b with
        | some chomping => (chomping, n, 2)
        | none => (.clip, n, 1)
      | none, none => (.clip, 0, 0)
    | [a] => match chomp? a, digit? a with
      | some chomping, _ => (chomping, 0, 1)
      | none, some n => (.clip, n, 1)
      | none, none => (.clip, 0, 0)
    | [] => (.clip, 0, 0)

/-- A text as the lines it is made of, each without its break. -/
def rawLines (line : List Char) : List Char → List (List Char)
  | [] => [line.reverse]
  | c :: rest =>
    if isBreak c then
      if c == '\r' && rest.head? == some '\n' then rawLines line rest
      else line.reverse :: rawLines [] rest
    else rawLines (c :: line) rest

/-- The indentation of a block scalar: that of its first line with content, and at least `least`. -/
def blockIndent (least : Nat) (lines : List (List Char)) : Nat :=
  let depth (line : List Char) := (line.takeWhile (· == ' ')).length
  let blank := lines.takeWhile fun line => line.length == depth line
  let first := (lines.drop blank.length).head?.map depth
  max least ((first.toList ++ blank.map depth).foldl max 0)

def blockLines (indent : Nat) (lines : List (List Char)) : List (List Char) :=
  lines.takeWhile fun line =>
    let depth := (line.takeWhile (· == ' ')).length
    depth ≥ indent || depth == line.length

/-- The text of the lines of a block scalar, folded unless it is literal: `pending` are the breaks
before the next line, and `loose` tells whether the line before starts with a blank. -/
def blockText (literal : Bool) (pending : Nat) (first loose : Bool) :
    List (List Char) → List Char × Nat
  | [] => ([], pending)
  | line :: lines =>
    if line.isEmpty then
      let (text, left) := blockText literal (pending + 1) first loose lines
      (text, left)
    else
      let spaced := line.head?.any isGap
      let gap : List Char :=
        if first then List.replicate pending '\n'
        else if literal || loose || spaced then List.replicate pending '\n'
        else foldedBreaks pending
      let (text, left) := blockText literal 1 false spaced lines
      (gap ++ line ++ text, left)

/-- A block scalar inside a block at column `parent`. -/
def blockScalar (parent : Int) : Reading Node := do
  let literal := (← remaining).head? == some '|'
  pass 1
  let (chomping, given, used) := blockMarks (← remaining)
  pass used
  skipBlanks
  let p ← get
  require (match p.rest with
    | [] => true
    | c :: _ => isBreak c || c == '#')
  let head := p.rest.takeWhile (!isBreak ·)
  let body := p.rest.drop head.length
  match rawLines [] body with
  | [] => failure
  | _ :: lines =>
    let base : Nat := (max parent 0).toNat
    let least : Nat := max 1 (parent + 1).toNat
    let indent := if given = 0 then blockIndent least lines else base + given
    let own := blockLines indent lines
    let closed := own.length < lines.length
    let shown := (own.map (·.drop indent))
    let shown := if closed then shown else
      shown.dropLast ++ (shown.getLast?.toList.filter (!·.isEmpty))
    let (text, left) := blockText literal 0 true false shown
    let left := if closed || (own.getLast?.any (·.isEmpty)) then left else left - 1
    let tail := match chomping with
      | .strip => []
      | .clip => if text.isEmpty then [] else List.replicate (min left 1) '\n'
      | .keep => List.replicate left '\n'
    let next := (lines.drop own.length)
    let rest := ['\n'].intercalate next
    set { p with rest, column := 0, line := p.line + 1 + own.length }
    return .scalar "" .quoted (String.ofList (text ++ tail))

/-! ### Properties -/

def isNameChar (c : Char) : Bool := c.isAlphanum || c == '_' || c == '-'

def shortTag (tag : List Char) : String :=
  let long := "tag:yaml.org,2002:".toList
  if long.isPrefixOf tag then "!!" ++ String.ofList (tag.drop long.length) else String.ofList tag

def tagWord : Reading String := do
  let s ← remaining
  match s with
  | '!' :: '<' :: rest =>
    let inner := rest.takeWhile fun c => c != '>' && !isGap c && !isBreak c
    require ((rest.drop inner.length).head? == some '>' && !inner.isEmpty)
    pass (inner.length + 3)
    return shortTag inner
  | _ =>
    let word := s.takeWhile fun c => !isGap c && !isBreak c && !isFlowMark c
    pass word.length
    match word with
    | ['!'] => return ""
    | ['!', '!'] => failure
    | '!' :: '!' :: _ => return String.ofList word
    | _ =>
      require !((word.drop 1).contains '!')
      return String.ofList word

def anchorName : Reading String := do
  pass 1
  let name := (← remaining).takeWhile isNameChar
  pass name.length
  let after ← remaining
  require (!name.isEmpty && (endsWord after || after.head?.any fun c => isFlowMark c || c == '?' ||
    c == ':' || c == '%' || c == '@' || c.toNat == 0x60))
  return String.ofList name

def properties (flow : Bool) : Nat → String → String → Reading (String × String)
  | 0, tag, anchor => return (tag, anchor)
  | n + 1, tag, anchor => do
    match (← remaining).head? with
    | some '!' =>
      require (tag == "")
      let found ← tagWord
      require (endsWord (← remaining) || flow)
      skipBlanks
      properties flow n (if found == "" then tag else found) anchor
    | some '&' =>
      require (anchor == "")
      let name ← anchorName
      skipBlanks
      properties flow n tag name
    | _ => return (tag, anchor)

/-- A node with its properties, remembered under its anchor. -/
def finish (tag anchor : String) (n : Node) : Reading Node := do
  let n := if tag == "" then n else n.withTag tag
  if anchor != "" then modify fun p => { p with anchors := Table.insert anchor n p.anchors }
  return n

def aliasNode : Reading Node := do
  let name ← anchorName
  match Table.get? name (← get).anchors with
  | some n => return n
  | none => failure

/-! ### Brackets -/

mutual
/-- A node inside brackets; nothing if none starts here. -/
def flowNode (fuel : Nat) : Reading Node :=
  match fuel with
  | 0 => failure
  | fuel + 1 => do
    let (tag, anchor) ← properties true 2 "" ""
    skipGap true true
    require !(← atEnd)
    let s ← remaining
    match s.head? with
    | some '*' => aliasNode
    | some '[' => pass 1; finish tag anchor (.list (← flowItems fuel []))
    | some '\x7b' => pass 1; finish tag anchor (.map (← flowEntries fuel []))
    | some '\'' =>
      pass 1
      finish tag anchor (.scalar "" .quoted (String.ofList (← singleQuoted (s.length + 1) [])))
    | some '"' =>
      pass 1
      finish tag anchor (.scalar "" .quoted (String.ofList (← doubleQuoted (s.length + 1) [])))
    | _ =>
      if startsPlain true s then
        finish tag anchor
          (.scalar "" .plain (String.ofList (← plainLines true 0 (s.length + 1) [])))
      else finish tag anchor .nothing

def flowColon : Reading Bool := do
  skipGap true true
  if (← remaining).head? == some ':' then pass 1; return true else return false

def flowItems (fuel : Nat) (items : List Node) : Reading (List Node) :=
  match fuel with
  | 0 => failure
  | fuel + 1 => do
    skipGap true true
    match (← remaining).head? with
    | some ']' => pass 1; return items.reverse
    | some ',' => failure
    | some '\x7d' => failure
    | none => failure
    | some c =>
      let explicit := c == '?' && endsWord ((← remaining).drop 1)
      if explicit then pass 1; skipGap true true
      let key ← flowNode fuel
      let item ← if ← flowColon then
          skipGap true true
          pure (Node.map [(key, ← flowNode fuel)])
        else pure (if explicit then Node.map [(key, .nothing)] else key)
      skipGap true true
      match (← remaining).head? with
      | some ',' => pass 1; flowItems fuel (item :: items)
      | some ']' => pass 1; return (item :: items).reverse
      | _ => failure

def flowEntries (fuel : Nat) (entries : List (Node × Node)) : Reading (List (Node × Node)) :=
  match fuel with
  | 0 => failure
  | fuel + 1 => do
    skipGap true true
    match (← remaining).head? with
    | some '\x7d' => pass 1; return entries.reverse
    | some ',' => failure
    | some ']' => failure
    | none => failure
    | some c =>
      if c == '?' && endsWord ((← remaining).drop 1) then pass 1; skipGap true true
      let key ← flowNode fuel
      let value ← if ← flowColon then
          skipGap true true
          flowNode fuel
        else pure Node.nothing
      skipGap true true
      match (← remaining).head? with
      | some ',' => pass 1; flowEntries fuel ((key, value) :: entries)
      | some '\x7d' => pass 1; return ((key, value) :: entries).reverse
      | _ => failure
end

/-! ### Blocks -/

def atDash (s : List Char) : Bool := s.head? == some '-' && endsWord (s.drop 1)

def atColon (s : List Char) : Bool := s.head? == some ':' && endsWord (s.drop 1)

/-- A scalar or a bracketed node inside a block at column `parent`. -/
def blockLeaf (fuel : Nat) (parent : Int) : Reading (Option Node) := do
  let s ← remaining
  match s.head? with
  | some '*' => return some (← aliasNode)
  | some '[' => pass 1; return some (.list (← flowItems fuel []))
  | some '\x7b' => pass 1; return some (.map (← flowEntries fuel []))
  | some '\'' =>
    pass 1; return some (.scalar "" .quoted (String.ofList (← singleQuoted (s.length + 1) [])))
  | some '"' =>
    pass 1; return some (.scalar "" .quoted (String.ofList (← doubleQuoted (s.length + 1) [])))
  | _ =>
    if startsPlain false s then
      let text ← plainLines false (parent + 1).toNat (s.length + 1) []
      return some (.scalar "" .plain (String.ofList text))
    else return none

mutual
/-- The node that starts here, inside a block at column `parent`. Where `inline` is set it is the
rest of a line after a key, and no block starts there. -/
def blockNode (fuel : Nat) (parent : Int) (inline : Bool) : Reading Node :=
  match fuel with
  | 0 => failure
  | fuel + 1 => do
    let start ← get
    if !inline && atDash start.rest then
      return .list (← blockItems fuel start.column [])
    else if !inline && start.rest.head? == some '?' && endsWord (start.rest.drop 1) then
      return .map (← blockEntries fuel start.column [])
    else
      let (tag, anchor) ← properties false 2 "" ""
      let marked := tag != "" || anchor != "" || start.rest.head? == some '!'
      let p ← get
      if marked && (p.rest.isEmpty || p.rest.head?.any (fun c => isBreak c || c == '#')) then
        skipGap false true
        let q ← get
        if (← atEnd) || (q.column : Int) ≤ parent then
          if !(← atEnd) && (q.column : Int) == parent && atDash q.rest && inline then
            finish tag anchor (.list (← blockItems fuel q.column []))
          else finish tag anchor .nothing
        else finish tag anchor (← blockNode fuel parent false)
      else if p.rest.head? == some '|' || p.rest.head? == some '>' then
        finish tag anchor (← blockScalar parent)
      else
        match ← blockLeaf fuel parent with
        | none =>
          require (atColon p.rest && !inline)
          let key ← finish tag anchor .nothing
          return .map (← blockEntriesFrom fuel start.column key [])
        | some leaf =>
          let q ← get
          let after := q.rest.dropWhile isGap
          if q.line == start.line && atColon after then
            require !inline
            skipBlanks
            let key ← finish tag anchor leaf
            return .map (← blockEntriesFrom fuel start.column key [])
          else
            require !(atColon after)
            finish tag anchor leaf

def blockItems (fuel : Nat) (column : Nat) (items : List Node) : Reading (List Node) :=
  match fuel with
  | 0 => failure
  | fuel + 1 => do
    let start ← get
    pass 1
    skipGap false false
    let p ← get
    let item ← if (← atEnd) || (p.line != start.line && p.column ≤ column) then pure Node.nothing
      else blockNode fuel column false
    skipGap false true
    let q ← get
    if (← atEnd) || q.column < column then return (item :: items).reverse
    else
      require (q.column == column && q.line != start.line)
      if atDash q.rest then blockItems fuel column (item :: items)
      else return (item :: items).reverse

def blockEntries (fuel : Nat) (column : Nat) (entries : List (Node × Node)) :
    Reading (List (Node × Node)) :=
  match fuel with
  | 0 => failure
  | fuel + 1 => do
    let start ← get
    if start.rest.head? == some '?' && endsWord (start.rest.drop 1) then
      pass 1
      skipGap false false
      let p ← get
      let key ← if (← atEnd) || (p.line != start.line && p.column ≤ column) then pure Node.nothing
        else blockNode fuel column false
      skipGap false true
      let q ← get
      if !(← atEnd) && q.column == column && atColon q.rest then
        blockEntriesFrom fuel column key entries
      else blockEntriesAfter fuel column ((key, .nothing) :: entries)
    else
      let (tag, anchor) ← properties false 2 "" ""
      let key ← match ← blockLeaf fuel column with
        | some leaf => finish tag anchor leaf
        | none => finish tag anchor .nothing
      let q ← get
      require (q.line == start.line)
      skipBlanks
      require (atColon (← remaining))
      blockEntriesFrom fuel column key entries

/-- The entries of a map at a column from the colon after a key on. -/
def blockEntriesFrom (fuel : Nat) (column : Nat) (key : Node) (entries : List (Node × Node)) :
    Reading (List (Node × Node)) :=
  match fuel with
  | 0 => failure
  | fuel + 1 => do
    let start ← get
    pass 1
    skipGap false true
    let p ← get
    let value ← if ← atEnd then pure Node.nothing
      else if p.line == start.line then blockNode fuel column true
      else if p.column > column then blockNode fuel column false
      else if p.column == column && atDash p.rest then
        pure (Node.list (← blockItems fuel column []))
      else pure Node.nothing
    blockEntriesAfter fuel column ((key, value) :: entries)

/-- What follows an entry of a map at a column: another entry, or the end of the map. -/
def blockEntriesAfter (fuel : Nat) (column : Nat) (entries : List (Node × Node)) :
    Reading (List (Node × Node)) :=
  match fuel with
  | 0 => failure
  | fuel + 1 => do
    skipGap false true
    let p ← get
    if (← atEnd) || p.column < column then return entries.reverse
    else
      require (p.column == column && !atDash p.rest)
      blockEntries fuel column entries
end

/-! ### Documents -/

def wordsOf (line : List Char) : List (List Char) :=
  ((Text.splitOnChar ' ' (line.map fun c => if c == '\t' then ' ' else c)).filter
    (!·.isEmpty)).takeWhile
    (·.head? != some '#')

def isHandle (word : List Char) : Bool :=
  word.head? == some '!' && word.getLast? == some '!' && (word.drop 1).dropLast.all isNameChar

/-- Whether a directive is understood: a version, which has to be 1.1, or the meaning of a
handle. -/
def isDirective (line : List Char) : Bool :=
  match wordsOf line with
  | [name, version] => name == "%YAML".toList && version == "1.1".toList
  | [name, handle, _] => name == "%TAG".toList && isHandle handle
  | _ => false

def directiveKey (line : List Char) : List (List Char) := (wordsOf line).dropLast

/-- Passes the mark of a document's start and the directives before it, and tells whether the mark
was there. It has to be there after directives, whose keys so far are given. -/
def documentStart : Nat → List (List (List Char)) → Reading Bool
  | 0, _ => failure
  | fuel + 1, directives => do
    skipGap false false
    let p ← get
    if p.column == 0 && p.rest.head? == some '%' then
      let line := p.rest.takeWhile (!isBreak ·)
      require (isDirective line && !(directives.contains (directiveKey line)))
      pass line.length
      documentStart fuel (directiveKey line :: directives)
    else if p.column == 0 && atMarker p.rest then
      require (p.rest.head? == some '-')
      pass 3
      return true
    else
      require directives.isEmpty
      return false

def document (fuel : Nat) : Reading (Option Node) := do
  let opened ← documentStart fuel []
  let start ← get
  skipGap false opened
  if ← atEnd then return if opened then some .nothing else none
  let p ← get
  let n ← blockNode fuel (-1) (opened && p.line == start.line &&
    !(p.rest.head? == some '|' || p.rest.head? == some '>'))
  skipGap false true
  require (← atEnd)
  return some n

/-- The first document of a text: none if the text has no document, and a failure if it is not
YAML. -/
def parse? (text : List Char) : Option (Option Node) :=
  let text := if text.head?.any (·.toNat == 0xFEFF) then text.drop 1 else text
  if !text.all isAllowed then none
  else (document (8 * text.length + 64) { rest := text }).map (·.1)

end PluginAudit.Yaml
