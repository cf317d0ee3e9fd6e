/-!
Text in columns. The cells of a line end at tabs; what follows the last tab is not a cell of a
column. Lines that follow each other share a column as long as they have a cell in it, and the cells
of a shared column are filled up with blanks to the same width.
-/

namespace PluginAudit.Text

def columnGap : Nat := 2

def splitBy (p : Char → Bool) : List Char → List (List Char)
  | [] => [[]]
  | c :: rest =>
    if p c then [] :: splitBy p rest
    else match splitBy p rest with
      | [] => [[c]]
      | part :: parts => (c :: part) :: parts

def hasCell (column : Nat) (line : List (List Char)) : Bool := column + 1 < line.length

def fillCell (column width : Nat) (line : List (List Char)) : List (List Char) :=
  line.modify column fun cell => cell ++ List.replicate (width - cell.length) ' '

def columnWidth (column : Nat) (lines : List (List (List Char))) : Nat :=
  lines.foldl (fun width line => max width ((line.getD column []).length + columnGap)) 0

def fillColumn (lines : List (List (List Char))) (column : Nat) : List (List (List Char)) :=
  (lines.splitBy fun a b => hasCell column a == hasCell column b).flatMap fun run =>
    if run.any (hasCell column) then run.map (fillCell column (columnWidth column run)) else run

def alignLines (lines : List (List (List Char))) : List (List Char) :=
  let columns := lines.foldl (fun n line => max n line.length) 0
  ((List.range columns).foldl fillColumn lines).map List.flatten

/-- Lays a text out in columns. A form feed ends a line and all columns. -/
def alignColumns (s : List Char) : List Char :=
  let blocks := (splitBy (· == '\x0c') s).map fun block =>
    ['\n'].intercalate
      (alignLines ((splitBy (· == '\n') block).map (splitBy fun c => c == '\t' || c == '\x0b')))
  ['\n'].intercalate blocks

end PluginAudit.Text
