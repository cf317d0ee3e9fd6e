import PluginAudit.Decimal.Shortest

/-!
Records of fields with commas between them. A field in quotes may hold commas, line ends and,
written twice, quotes.
-/

namespace PluginAudit.Csv

/-- A place in a text: a line, and a column in bytes. -/
structure Spot where
  line : Nat
  column : Nat
deriving DecidableEq

inductive Error where
  | ended
  | bareQuote (start : Nat) (at' : Spot)
  | strayQuote (start : Nat) (at' : Spot)
deriving DecidableEq

def spotText (start : Nat) (s : Spot) : String :=
  (if start = s.line then "" else "record on line " ++ Decimal.natText start ++ "; ") ++
    "parse error on line " ++ Decimal.natText s.line ++ ", column " ++ Decimal.natText s.column ++
    ": "

def Error.message : Error → String
  | .ended => "EOF"
  | .bareQuote start s => spotText start s ++ "bare \" in non-quoted field"
  | .strayQuote start s => spotText start s ++ "extraneous or missing \" in quoted-field"

def width (s : List Char) : Nat := s.foldr (fun c n => c.utf8Size + n) 0

/-- The lines of a text with their ends; a return before an end, or before the end of the text, is
dropped. -/
def linesOf : List Char → List (List Char)
  | [] => []
  | ['\r'] => [[]]
  | '\r' :: '\n' :: rest => ['\n'] :: linesOf rest
  | '\n' :: rest => ['\n'] :: linesOf rest
  | c :: rest =>
    match rest, linesOf rest with
    | [], _ => [[c]]
    | _, [] => [[c]]
    | _, line :: lines => (c :: line) :: lines

def isEnd (line : List Char) : Bool := line.isEmpty || line == ['\n']

/-- What is left to read: the rest of a line, the lines after it, and where that is. -/
structure Rest where
  line : List Char
  more : List (List Char)
  taken : Nat
  spot : Spot

def plainField (start : Nat) (r : Rest) : Except Error (List Char × Option Rest) :=
  let (field, after) := r.line.span (· != ',')
  let body := if after.isEmpty && field.getLast? == some '\n' then field.dropLast else field
  if body.contains '"' then
    .error (.bareQuote start ⟨r.taken, r.spot.column + width (body.takeWhile (· != '"'))⟩)
  else match after with
    | [] => .ok (body, none)
    | _ :: rest =>
      .ok (body, some { r with
        line := rest, spot := { r.spot with column := r.spot.column + width field + 1 } })

/-- A field in quotes after its first quote, with what has been read of it in reverse, and whether a
comma follows it. Fuel bounds the pieces of the field. -/
def quotedField (start : Nat) : Nat → List Char → Rest → Except Error (List Char × Option Rest)
  | 0, _, r => .error (.strayQuote start r.spot)
  | fuel + 1, past, r =>
    let (piece, after) := r.line.span (· != '"')
    let past := piece.reverse ++ past
    match after with
    | _ :: rest =>
      let column := r.spot.column + width piece + 1
      match rest with
      | '"' :: rest => quotedField start fuel ('"' :: past) { r with
          line := rest, spot := { r.spot with column := column + 1 } }
      | ',' :: rest => .ok (past.reverse, some { r with
          line := rest, spot := { r.spot with column := column + 1 } })
      | rest => if isEnd rest then .ok (past.reverse, none)
        else .error (.strayQuote start ⟨r.taken, column - 1⟩)
    | [] =>
      if piece.isEmpty then .error (.strayQuote start r.spot)
      else match r.more with
        | [] => quotedField start fuel past { r with
            line := [], taken := r.taken + 1,
            spot := { r.spot with column := r.spot.column + width piece } }
        | line :: more => quotedField start fuel past
            { line, more, taken := r.taken + 1, spot := ⟨r.spot.line + 1, 1⟩ }

def fields (start : Nat) : Nat → Rest → Except Error (List (List Char))
  | 0, _ => .ok []
  | fuel + 1, r => do
    let (field, next) ← match r.line with
      | '"' :: line => quotedField start fuel [] { r with
          line, spot := { r.spot with column := r.spot.column + 1 } }
      | _ => plainField start r
    match next with
    | none => return [field]
    | some r => return field :: (← fields start fuel r)

/-- The fields of the first record of a text; empty lines before it are skipped. -/
def readRecord (s : List Char) : Except Error (List String) :=
  let lines := linesOf s
  let skipped := (lines.takeWhile isEnd).length
  match lines.drop skipped with
  | [] => .error .ended
  | line :: more =>
    let start := skipped + 1
    (fields start (2 * s.length + 3) ⟨line, more, start, ⟨start, 1⟩⟩).map (·.map String.ofList)

end PluginAudit.Csv
