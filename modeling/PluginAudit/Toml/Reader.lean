import PluginAudit.Decimal.Radix
import PluginAudit.Json.Reader
import PluginAudit.Toml.Value

/-!
Reading TOML documents. A key names one thing: it is assigned once, and a table is opened once.
-/

namespace PluginAudit.Toml

/-! ### Blanks and comments -/

def isBlank (c : Char) : Bool := c == ' ' || c == '\t'

def isPlain (c : Char) : Bool := c == '\t' || (c.toNat ≥ 0x20 && c.toNat != 0x7F)

def skipBlanks (s : List Char) : List Char := s.dropWhile isBlank

def skipComment? : List Char → Option (List Char)
  | '#' :: rest =>
    let after := rest.dropWhile isPlain
    match after with
    | [] | '\n' :: _ | '\r' :: '\n' :: _ => some after
    | _ => none
  | s => some s

/-- The rest after the end of a line, which is a line break or the end of the text. -/
def endLine? : List Char → Option (List Char)
  | [] => some []
  | '\n' :: rest => some rest
  | '\r' :: '\n' :: rest => some rest
  | _ => none

def skipLines : Nat → List Char → Option (List Char)
  | 0, _ => none
  | fuel + 1, s =>
    match skipComment? (skipBlanks s) with
    | some ('\n' :: rest) | some ('\r' :: '\n' :: rest) => skipLines fuel rest
    | other => other

/-! ### Texts -/

def numbered? (width : Nat) (s : List Char) : Option (Char × List Char) :=
  let digits := s.take width
  let n := digits.foldl (fun n c => n * 16 + (Json.hexValue? c).getD 0) 0
  if digits.length = width ∧ digits.all (fun c => (Json.hexValue? c).isSome) ∧ n.isValidChar then
    some (Char.ofNat n, s.drop width)
  else none

def escape? : List Char → Option (Char × List Char)
  | 'b' :: rest => some (Char.ofNat 8, rest)
  | 't' :: rest => some ('\t', rest)
  | 'n' :: rest => some ('\n', rest)
  | 'f' :: rest => some (Char.ofNat 12, rest)
  | 'r' :: rest => some ('\r', rest)
  | 'e' :: rest => some (Char.ofNat 27, rest)
  | '"' :: rest => some ('"', rest)
  | '\\' :: rest => some ('\\', rest)
  | 'u' :: rest => numbered? 4 rest
  | 'U' :: rest => numbered? 8 rest
  | _ => none

/-- A text on one line after its quote; escapes count in double quotes only. -/
def shortText (quote : Char) : Nat → List Char → List Char → Option (String × List Char)
  | 0, _, _ => none
  | fuel + 1, past, s =>
    match s with
    | [] => none
    | c :: rest =>
      if c = quote then some (String.ofList past.reverse, rest)
      else if c = '\\' ∧ quote = '"' then
        match escape? rest with
        | some (x, rest) => shortText quote fuel (x :: past) rest
        | none => none
      else if isPlain c then shortText quote fuel (c :: past) rest
      else none

/-- A text over lines after its three quotes. One or two quotes before the closing ones belong to
it; a backslash at the end of a line drops the white space that follows. -/
def longText (quote : Char) : Nat → List Char → List Char → Option (String × List Char)
  | 0, _, _ => none
  | fuel + 1, past, s =>
    match s with
    | [] => none
    | '\r' :: '\n' :: rest => longText quote fuel ('\n' :: '\r' :: past) rest
    | c :: rest =>
      if c = quote ∧ rest.take 2 = [quote, quote] then
        let extra := ((rest.drop 2).takeWhile (· == quote)).take 2
        some (String.ofList (past.reverse ++ extra), (rest.drop 2).drop extra.length)
      else if c = '\\' ∧ quote = '"' then
        match skipBlanks rest with
        | '\n' :: _ | '\r' :: '\n' :: _ =>
          longText quote fuel past
            (rest.dropWhile fun c => isBlank c || c == '\n' || c == '\r')
        | _ =>
          match escape? rest with
          | some (x, rest) => longText quote fuel (x :: past) rest
          | none => none
      else if isPlain c ∨ c = '\n' then longText quote fuel (c :: past) rest
      else none

def text? (s : List Char) : Option (String × List Char) :=
  let fuel := s.length + 1
  let long (quote : Char) (rest : List Char) : Option (String × List Char) :=
    let rest := match rest with
      | '\n' :: after => after
      | '\r' :: '\n' :: after => after
      | rest => rest
    longText quote fuel [] rest
  match s with
  | '"' :: '"' :: '"' :: rest => long '"' rest
  | '\'' :: '\'' :: '\'' :: rest => long '\'' rest
  | '"' :: rest => shortText '"' fuel [] rest
  | '\'' :: rest => shortText '\'' fuel [] rest
  | _ => none

/-! ### Keys -/

def isKeyChar (c : Char) : Bool := c.isAlphanum || c == '_' || c == '-'

def simpleKey? (s : List Char) : Option (String × List Char) :=
  match s with
  | '"' :: rest => shortText '"' (s.length + 1) [] rest
  | '\'' :: rest => shortText '\'' (s.length + 1) [] rest
  | s =>
    let (name, rest) := s.span isKeyChar
    if name.isEmpty then none else some (String.ofList name, rest)

/-- A key with its dots, and what follows it and the blanks after it. -/
def key : Nat → List Char → Option (List String × List Char)
  | 0, _ => none
  | fuel + 1, s =>
    match simpleKey? (skipBlanks s) with
    | none => none
    | some (name, rest) =>
      match skipBlanks rest with
      | '.' :: rest => (key fuel rest).map fun (names, rest) => (name :: names, rest)
      | rest => some ([name], rest)

/-! ### Numbers -/

/-- Digits with single underscores between them, without those. -/
def digits? (isDigit : Char → Bool) (s : List Char) : Option (List Char) :=
  if s.isEmpty || !s.all (fun c => isDigit c || c == '_') || s.head? == some '_' ||
    s.getLast? == some '_' || (s.zip (s.drop 1)).any (· == ('_', '_')) then none
  else some (s.filter (· != '_'))

def signed : List Char → Bool × List Char
  | '-' :: rest => (true, rest)
  | '+' :: rest => (false, rest)
  | s => (false, s)

def decimal? (s : List Char) : Option (List Char) :=
  match digits? Char.isDigit s with
  | some ds => if 1 < ds.length && ds.head? == some '0' then none else some ds
  | none => none

def whole? (s : List Char) : Option Int :=
  let inRange (n : Int) : Option Int := if Decimal.fitsInt n then some n else none
  let inBase (base : Nat) (isDigit : Char → Bool) (rest : List Char) : Option Int :=
    (digits? isDigit rest).bind fun ds =>
      inRange (ds.foldl (fun n c => n * base + (Json.hexValue? c).getD 0) 0 : Nat)
  match s with
  | '0' :: 'x' :: rest => inBase 16 (fun c => (Json.hexValue? c).isSome) rest
  | '0' :: 'o' :: rest => inBase 8 (fun c => '0' ≤ c && c ≤ '7') rest
  | '0' :: 'b' :: rest => inBase 2 (fun c => c == '0' || c == '1') rest
  | s =>
    let (negative, rest) := signed s
    (decimal? rest).bind fun ds =>
      let n : Int := Decimal.natOfDigits ds
      inRange (if negative then -n else n)

/-- A number with a fraction or an exponent, or one that is not finite. -/
def real? (s : List Char) : Option Double :=
  let (negative, body) := signed s
  let sign (x : Float) : Option Double := some (.ofFloat (if negative then -x else x))
  if body = "inf".toList then sign (1.0 / 0.0)
  else if body = "nan".toList then sign (0.0 / 0.0)
  else
    let (lead, rest) := body.span fun c => c.isDigit || c == '_'
    let (fraction, rest) := match rest with
      | '.' :: after =>
        let (ds, after) := after.span fun c => c.isDigit || c == '_'
        (some ds, after)
      | rest => (none, rest)
    let exponent : Option (Option (Bool × List Char)) := match rest with
      | [] => some none
      | c :: after => if c == 'e' || c == 'E' then some (some (signed after)) else none
    do
      let lead ← decimal? lead
      let fraction ← match fraction with
        | some ds => (digits? Char.isDigit ds).map ('.' :: ·)
        | none => some []
      let exponent ← exponent
      let tail ← match exponent with
        | some (negative, ds) =>
          (digits? Char.isDigit ds).map fun ds => 'e' :: (if negative then ['-'] else []) ++ ds
        | none => some []
      if fraction.isEmpty && tail.isEmpty then none
      else
        let x ← Decimal.readDouble? (lead ++ fraction ++ tail)
        sign x.toFloat

def looksLikeMoment (s : List Char) : Bool :=
  let digit (i : Nat) := s[i]?.any Char.isDigit
  (digit 0 && digit 1 && digit 2 && digit 3 && s[4]? == some '-') ||
    (digit 0 && digit 1 && s[2]? == some ':')

/-- Whether a word goes on after a blank: a date with a time. -/
def isDateBefore (s rest : List Char) : Bool :=
  s.length == 10 && s[4]? == some '-' && match rest with
    | ' ' :: a :: b :: ':' :: _ => a.isDigit && b.isDigit
    | _ => false

def word? (s : List Char) : Option Value :=
  if s = "true".toList then some (.flag true)
  else if s = "false".toList then some (.flag false)
  else if looksLikeMoment s then some (.moment (String.ofList s))
  else match whole? s with
    | some n => some (.whole n)
    | none => (real? s).map .real

def endsWord (c : Char) : Bool := " \t\r\n,]#\x7d".toList.contains c

/-! ### Values -/

mutual
def value : Nat → List Char → Option (Value × List Char)
  | 0, _ => none
  | fuel + 1, s =>
    match s with
    | [] => none
    | '"' :: _ | '\'' :: _ => (text? s).map fun (t, rest) => (.text t, rest)
    | '[' :: rest => (items fuel rest).map fun (vs, rest) => (.list vs, rest)
    | '\x7b' :: rest =>
      match skipBlanks rest with
      | '\x7d' :: rest => some (.table [], rest)
      | rest => (entries fuel rest).map fun (es, rest) => (.table es, rest)
    | s =>
      let (word, rest) := s.span (!endsWord ·)
      if isDateBefore word rest then
        let (time, rest) := (rest.drop 1).span (!endsWord ·)
        some (.moment (String.ofList (word ++ ' ' :: time)), rest)
      else (word? word).map fun v => (v, rest)

def items : Nat → List Char → Option (List Value × List Char)
  | 0, _ => none
  | fuel + 1, s =>
    match skipLines (s.length + 1) s with
    | none => none
    | some (']' :: rest) => some ([], rest)
    | some s =>
      match value fuel s with
      | none => none
      | some (v, rest) =>
        match skipLines (rest.length + 1) rest with
        | some (',' :: rest) => (items fuel rest).map fun (vs, rest) => (v :: vs, rest)
        | some (']' :: rest) => some ([v], rest)
        | _ => none

def entries : Nat → List Char → Option (List (List String × Value) × List Char)
  | 0, _ => none
  | fuel + 1, s =>
    match key (s.length + 1) s with
    | some (k, '=' :: rest) =>
      match value fuel (skipBlanks rest) with
      | none => none
      | some (v, rest) =>
        match skipBlanks rest with
        | ',' :: rest => (entries fuel rest).map fun (es, rest) => ((k, v) :: es, rest)
        | '\x7d' :: rest => some ([(k, v)], rest)
        | _ => none
    | _ => none
end

/-! ### Statements -/

/-- A statement at the start of a text, with what follows it on its line. -/
def statement? (s : List Char) : Option (Statement × List Char) :=
  let fuel := 2 * s.length + 2
  match s with
  | '[' :: '[' :: rest =>
    match key fuel rest with
    | some (path, ']' :: ']' :: rest) => some (.item path, rest)
    | _ => none
  | '[' :: rest =>
    match key fuel rest with
    | some (path, ']' :: rest) => some (.table path, rest)
    | _ => none
  | s =>
    match key fuel s with
    | some (k, '=' :: rest) =>
      (value fuel (skipBlanks rest)).map fun (v, rest) => (.assign k v, rest)
    | _ => none

def statements : Nat → List Char → Option (List Statement)
  | 0, _ => none
  | fuel + 1, s =>
    match skipLines (s.length + 1) s with
    | none => none
    | some [] => some []
    | some s =>
      match statement? s with
      | none => none
      | some (st, rest) =>
        match (skipComment? (skipBlanks rest)).bind endLine? with
        | none => none
        | some rest => (statements fuel rest).map (st :: ·)

/-! ### Names -/

inductive Mark where
  | value
  /-- A table that a dotted key or the path of a header implies. -/
  | implied (dotted : Bool)
  | opened
  | tables
deriving DecidableEq

structure Names where
  marks : List (List String × Mark) := []
  current : List String := []

namespace Names

def find? (n : Names) (path : List String) : Option Mark := n.marks.lookup path

def mark (n : Names) (path : List String) (m : Mark) : Names :=
  { n with marks := (path, m) :: n.marks.filter (·.1 != path) }

def leads (path : List String) : List (List String) :=
  ((List.range path.length).drop 1).map path.take

def imply? (dotted : Bool) (n : Names) (path : List String) : Option Names :=
  match n.find? path with
  | none => some (n.mark path (.implied dotted))
  | some .value => none
  | some .opened => if dotted then none else some n
  | some .tables => if dotted then none else some n
  | some (.implied _) => some n

def close (n : Names) : Names :=
  { n with marks := n.marks.map fun (path, m) =>
      (path, if m = .implied true then .opened else m) }

def forget (n : Names) (path : List String) : Names :=
  { n with marks := n.marks.filter fun (p, _) =>
    !(path.length < p.length && p.take path.length == path) }

/-- Takes in a statement, unless it names something twice. -/
def step? (n : Names) : Statement → Option Names
  | .table path => do
    let n ← (leads path).foldlM (imply? false) n.close
    match n.find? path with
    | none | some (.implied _) => some { n.mark path .opened with current := path }
    | _ => none
  | .item path => do
    let n ← (leads path).foldlM (imply? false) n.close
    match n.find? path with
    | none | some .tables => some { (n.forget path).mark path .tables with current := path }
    | _ => none
  | .assign key _ => do
    let whole := n.current ++ key
    let inner := (leads whole).filter (n.current.length < ·.length)
    let n ← inner.foldlM (imply? true) n
    match n.find? whole with
    | none => some (n.mark whole .value)
    | some _ => none

end Names

/-- Whether inline tables in a value name everything once. -/
def isConsistent : Nat → Value → Bool
  | 0, _ => false
  | fuel + 1, v =>
    match v with
    | .list items => items.all (isConsistent fuel)
    | .table es =>
      (es.foldlM (fun n (k, v) => Names.step? n (.assign k v)) ({} : Names)).isSome &&
        es.all fun (_, v) => isConsistent fuel v
    | _ => true

def parse? (s : List Char) : Option (List Statement) := do
  let found ← statements (s.length + 1) s
  let _ ← found.foldlM Names.step? ({} : Names)
  if found.all (fun st => match st with
    | .assign _ v => isConsistent (s.length + 1) v
    | _ => true) then some found else none

end PluginAudit.Toml
