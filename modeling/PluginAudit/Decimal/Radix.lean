import PluginAudit.Decimal.Numeral

/-!
Numerals with a mark for their base: `0x` for sixteen, `0o` or a leading zero for eight, `0b` for
two. Single underscores may stand between digits and right after the mark.
-/

namespace PluginAudit.Decimal

def digitIn? (base : Nat) (c : Char) : Option Nat :=
  let value :=
    if '0' ≤ c ∧ c ≤ '9' then c.toNat - 48
    else if 'a' ≤ c ∧ c ≤ 'z' then c.toNat - 87
    else if 'A' ≤ c ∧ c ≤ 'Z' then c.toNat - 55
    else 36
  if value < base then some value else none

def natIn? (base : Nat) (digits : List Char) : Option Nat :=
  if digits.isEmpty then none
  else digits.foldl (fun n c => do return (← n) * base + (← digitIn? base c)) (some 0)

/-- Whether each underscore stands between two digits; `before` tells whether a digit, or a mark for
the base, stands right before the text. -/
def underscoresFit : Bool → List Char → Bool
  | _, [] => true
  | before, ['_'] => before && false
  | before, '_' :: c :: rest => before && c != '_' && underscoresFit true (c :: rest)
  | _, _ :: rest => underscoresFit true rest

def markedNat? (s : List Char) : Option Nat :=
  let plain (digits : List Char) := digits.filter (· != '_')
  match s with
  | '0' :: mark :: digits =>
    let base := match mark with
      | 'x' | 'X' => 16
      | 'o' | 'O' => 8
      | 'b' | 'B' => 2
      | _ => 0
    if base = 0 then
      if underscoresFit true (mark :: digits) then natIn? 8 (plain (mark :: digits)) else none
    else if underscoresFit true digits then natIn? base (plain digits)
    else none
  | s => if underscoresFit false s then natIn? 10 (plain s) else none

def markedInt? (s : List Char) : Option Int :=
  match s with
  | '-' :: rest => (markedNat? rest).map fun n => -(n : Int)
  | '+' :: rest => (markedNat? rest).map fun n => (n : Int)
  | s => (markedNat? s).map fun n => (n : Int)

end PluginAudit.Decimal
