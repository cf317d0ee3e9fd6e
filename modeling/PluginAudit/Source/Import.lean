import PluginAudit.Source.LineState
import PluginAudit.Source.Name
import PluginAudit.Table

/-!
Imports: the names that the `use` statements of a file bring into scope. A statement lists names, or
members of one namespace between braces, each possibly with an alias and a word for its kind.
-/

namespace PluginAudit.Source

inductive ImportKind where
  | classLike
  | function
  | const
deriving DecidableEq, Repr

def ImportKind.word : ImportKind → String
  | .classLike => "class"
  | .function => "function"
  | .const => "const"

structure Import where
  kind : ImportKind
  name : String
  localName : String
  line : Nat
deriving DecidableEq, Repr

/-! ### Statements -/

/-- A statement found in a text: what it says after the keyword, what stands before that, and what
follows its semicolon. -/
structure UseStatement where
  before : List Char
  body : List Char
  rest : List Char
deriving DecidableEq

/-- Characters that may stand in a statement outside braces. -/
def isUseChar (c : Char) : Bool := c != ';' && c != '\x7b' && c != '('

/-- The braces that may follow the first part of a statement, up to the semicolon. -/
def useTail? : List Char → Option (List Char × List Char)
  | ';' :: rest => some ([], rest)
  | '\x7b' :: rest =>
    match rest.dropWhile (· != '\x7d') with
    | [] => none
    | _ :: after =>
      match after.dropWhile isCodeSpace with
      | ';' :: after => some ('\x7b' :: rest.takeWhile (· != '\x7d') ++ ['\x7d'], after)
      | _ => none
  | _ => none

/-- A statement at the start of a line. The keyword is followed by white space and by at least one
more character. -/
def useAt? (s : List Char) : Option UseStatement :=
  let gap := s.takeWhile isCodeSpace
  match s.dropWhile isCodeSpace with
  | 'u' :: 's' :: 'e' :: after =>
    let run := after.takeWhile isUseChar
    -- the body takes the last blank if there is nothing else
    let gap2 := run.dropLast.takeWhile isCodeSpace
    let body := run.drop gap2.length
    if gap2.isEmpty then none
    else match useTail? (after.dropWhile isUseChar) with
      | some (braces, rest) => some ⟨gap ++ ['u', 's', 'e'] ++ gap2, body ++ braces, rest⟩
      | none => none
  | _ => none

def newlines (s : List Char) : Nat := s.count '\n'

/-- The statements from a place on, each with the line its body starts on. -/
def useStatements : Nat → Nat → Bool → List Char → List (Nat × List Char)
  | 0, _, _, _ => []
  | fuel + 1, line, atStart, s =>
    match (if atStart then useAt? s else none) with
    | some found =>
      let taken := s.take (s.length - found.rest.length)
      (line + newlines found.before, found.body) ::
        useStatements fuel (line + newlines taken) false found.rest
    | none => match s with
      | [] => []
      | c :: rest => useStatements fuel (if c = '\n' then line + 1 else line) (c == '\n') rest

/-! ### Members -/

/-- Splits off a keyword and the blank after it, up to letter case. -/
def dropKeyword? (keyword : String) (part : List Char) : Option (List Char) :=
  if (part.take keyword.length).map Text.lowerChar == keyword.toList then
    match part.drop keyword.length with
    | ' ' :: rest => some (Text.trimChars rest)
    | _ => none
  else none

/-- The kind that the first word of a part names, and the rest of it. -/
def splitKind (fallback : ImportKind) (part : List Char) : ImportKind × List Char :=
  let part := Text.trimChars part
  match dropKeyword? "function" part with
  | some rest => (.function, rest)
  | none => match dropKeyword? "const" part with
    | some rest => (.const, rest)
    | none => (fallback, part)

/-- What follows the word `as` and the white space around it, if a text starts with them. -/
def afterAs? (s : List Char) : Option (List Char) :=
  if s.takeWhile isCodeSpace = [] then none
  else match s.dropWhile isCodeSpace with
    | a :: b :: rest =>
      if Text.foldChar a = 'a' ∧ Text.foldChar b = 's' ∧ rest.takeWhile isCodeSpace ≠ [] then
        some (rest.dropWhile isCodeSpace)
      else none
    | _ => none

/-- The name before the word `as` and the alias after it, with the characters read so far in
reverse. -/
def splitAlias (past : List Char) : List Char → List Char × List Char
  | [] => (past.reverse, [])
  | c :: rest =>
    match afterAs? (c :: rest) with
    | some localName => (past.reverse, localName)
    | none => splitAlias (c :: past) rest

def importOf? (base : String) (kind : ImportKind) (line : Nat) (part : List Char) :
    Option Import :=
  let (kind, part) := splitKind kind part
  let (name, localName) := splitAlias [] (Text.trimChars part)
  let name := String.ofList (Text.trimChars name)
  let localName := String.ofList (Text.trimChars localName)
  let name := normalName (if base != "" && name != "" then base ++ "\\" ++ name else name)
  if name = "" then none
  else
    let localName := if localName = "" then lastSegment name else localName
    if localName = "" then none else some ⟨kind, name, localName, line⟩

/-- What follows the last closing brace, in reverse, dropped together with the brace. -/
def beforeLastBrace? (s : List Char) : Option (List Char) :=
  match s.reverse.dropWhile (· != '\x7d') with
  | _ :: before => some before.reverse
  | [] => none

/-- The namespace before the braces of a statement and what stands between them. -/
def groupParts? (s : List Char) : Option (List Char × List Char) :=
  match s.dropWhile (· != '\x7b') with
  | [] => none
  | _ :: inside => (beforeLastBrace? inside).map fun inside => (s.takeWhile (· != '\x7b'), inside)

def importsOf (line : Nat) (statement : List Char) : List Import :=
  let (kind, statement) := splitKind .classLike (Text.trimChars statement)
  if statement.isEmpty then []
  else match groupParts? statement with
    | some (base, inside) =>
      let base := normalName (String.ofList base)
      (Text.splitOnChar ',' inside).filterMap (importOf? base kind line)
    | none => (Text.splitOnChar ',' statement).filterMap (importOf? "" kind line)

def imports (content : List Char) : List Import :=
  (useStatements (content.length + 1) 1 true content).flatMap fun (line, statement) =>
    importsOf line statement

/-! ### Look-up -/

structure ImportIndex where
  classes : Table String := []
  functions : Table String := []
  constants : Table String := []
deriving DecidableEq

namespace ImportIndex

/-- Adds an import; a later one with the same alias wins. -/
def add (index : ImportIndex) (i : Import) : ImportIndex :=
  let key := Text.lower i.localName
  match i.kind with
  | .classLike => { index with classes := Table.insert key i.name index.classes }
  | .function => { index with functions := Table.insert key i.name index.functions }
  | .const => { index with constants := Table.insert key i.name index.constants }

def ofContent (content : List Char) : ImportIndex :=
  (imports content).foldl add {}

def class? (index : ImportIndex) (name : String) : Option String :=
  Table.get? (Text.lower (normalName name)) index.classes

def function? (index : ImportIndex) (name : String) : Option String :=
  Table.get? (Text.lower (normalName name)) index.functions

end ImportIndex

end PluginAudit.Source
