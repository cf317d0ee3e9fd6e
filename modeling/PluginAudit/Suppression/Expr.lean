import PluginAudit.Suppression.Datum
import PluginAudit.Suppression.Token

/-!
Expressions of the rule language and how they are read. Binary operators lean to the left; a sign
before a numeral belongs to it; signs and negations in pairs cancel out. Calls such as `has(e.f)`
and `e.all(x, p)` are forms of their own.
-/

namespace PluginAudit.Suppression

inductive Operator where
  | eq | ne | lt | le | gt | ge | add | sub | mul | div | mod | index | within
deriving DecidableEq, Repr

inductive Quantifier where
  | all | exists | existsOne
deriving DecidableEq, Repr

inductive Expr where
  | lit (d : Datum)
  | name (s : String)
  | select (e : Expr) (field : String)
  | has (e : Expr) (field : String)
  | call (function : String) (args : List Expr)
  | method (target : Expr) (function : String) (args : List Expr)
  | list (items : List Expr)
  | map (entries : List (Expr × Expr))
  | not (e : Expr)
  | neg (e : Expr)
  | binary (op : Operator) (a b : Expr)
  | both (a b : Expr)
  | either (a b : Expr)
  | choose (test yes no : Expr)
  | quantified (q : Quantifier) (range : Expr) (var : String) (test : Expr)
  | filtered (range : Expr) (var : String) (test : Expr)
  /-- The values of an expression for the items that pass a test. -/
  | mapped (range : Expr) (var : String) (test : Option Expr) (value : Expr)

namespace Expr

instance : Inhabited Expr := ⟨.lit .null⟩

def reserved : List String :=
  ["as", "break", "const", "continue", "else", "false", "for", "function", "if", "import", "in",
    "let",
   "loop", "package", "namespace", "null", "return", "true", "var", "void", "while"]

def literalWords : List String := ["true", "false", "null", "in"]

def counter : String := "__result__"

/-! ### Literals -/

/-- A whole number, with a minus before it or not. -/
def wholeLiteral? (negative hex : Bool) (digits : List Char) (unsigned : Bool) : Option Expr :=
  let n := if hex then Token.hexNumber digits else Decimal.natOfDigits digits
  if unsigned then if negative || Datum.maxUint < n then none else some (.lit (.uint n))
  else
    let n : Int := if negative then -n else n
    if Decimal.fitsInt n then some (.lit (.int n)) else none

def decimalLiteral? (negative : Bool) (text : List Char) : Option Expr :=
  (Decimal.readDouble? (if negative then '-' :: text else text)).map fun x => .lit (.double x)

/-! ### Forms -/

def boundName? : Expr → Option String
  | .name s => if s = counter then none else some s
  | _ => none

def ofCall? (function : String) (args : List Expr) : Option Expr :=
  match function, args with
  | "has", [.select e field] | "has", [.has e field] => some (.has e field)
  | "has", [_] => none
  | _, _ => some (.call function args)

def ofMethod? (target : Expr) (function : String) (args : List Expr) : Option Expr :=
  match function, args with
  | "all", [x, p] => (boundName? x).map fun x => .quantified .all target x p
  | "exists", [x, p] => (boundName? x).map fun x => .quantified .exists target x p
  | "exists_one", [x, p] => (boundName? x).map fun x => .quantified .existsOne target x p
  | "filter", [x, p] => (boundName? x).map fun x => .filtered target x p
  | "map", [x, v] => (boundName? x).map fun x => .mapped target x none v
  | "map", [x, p, v] => (boundName? x).map fun x => .mapped target x (some p) v
  | _, _ => some (.method target function args)

/-! ### Operators -/

/-- The operator of a token on a level; the levels from the weakest on are disjunction, conjunction,
relations, sums and products. -/
def operator? (level : Nat) (t : Token) : Option (Expr → Expr → Expr) :=
  match level, t with
  | 0, .mark "||" => some .either
  | 1, .mark "&&" => some .both
  | 2, .mark "==" => some (.binary .eq)
  | 2, .mark "!=" => some (.binary .ne)
  | 2, .mark "<" => some (.binary .lt)
  | 2, .mark "<=" => some (.binary .le)
  | 2, .mark ">" => some (.binary .gt)
  | 2, .mark ">=" => some (.binary .ge)
  | 2, .name "in" => some (.binary .within)
  | 3, .mark "+" => some (.binary .add)
  | 3, .mark "-" => some (.binary .sub)
  | 4, .mark "*" => some (.binary .mul)
  | 4, .mark "/" => some (.binary .div)
  | 4, .mark "%" => some (.binary .mod)
  | _, _ => none

def leadingMarks (m : String) : List Token → Nat × List Token
  | .mark s :: rest =>
    if s = m then
      let (n, rest) := leadingMarks m rest
      (n + 1, rest)
    else (0, .mark s :: rest)
  | ts => (0, ts)

/-- Skips a comma that stands before a closing mark. -/
def closing? (close : String) : List Token → Option (List Token)
  | .mark m :: rest =>
    if m = close then some rest
    else if m = "," then
      match rest with
      | .mark m' :: rest => if m' = close then some rest else none
      | _ => none
    else none
  | _ => none

mutual
def read : Nat → List Token → Option (Expr × List Token)
  | 0, _ => none
  | fuel + 1, ts =>
    match readLevel fuel 0 ts with
    | some (test, .mark "?" :: rest) =>
      match readLevel fuel 0 rest with
      | some (yes, .mark ":" :: rest) =>
        (read fuel rest).map fun (no, rest) => (.choose test yes no, rest)
      | _ => none
    | other => other

/-- An expression whose operators are at least on a level. -/
def readLevel : Nat → Nat → List Token → Option (Expr × List Token)
  | 0, _, _ => none
  | fuel + 1, level, ts =>
    if level < 5 then
      match readLevel fuel (level + 1) ts with
      | some (left, rest) => readMore fuel level left rest
      | none => none
    else readSigned fuel ts

def readMore : Nat → Nat → Expr → List Token → Option (Expr × List Token)
  | 0, _, _, _ => none
  | fuel + 1, level, left, ts =>
    match ts with
    | t :: rest =>
      match operator? level t with
      | some combine =>
        match readLevel fuel (level + 1) rest with
        | some (right, rest) => readMore fuel level (combine left right) rest
        | none => none
      | none => some (left, ts)
    | [] => some (left, ts)

def readSigned : Nat → List Token → Option (Expr × List Token)
  | 0, _ => none
  | fuel + 1, ts =>
    match ts with
    | .mark "!" :: _ =>
      let (n, rest) := leadingMarks "!" ts
      (readMember fuel rest).map fun (e, rest) => (if n % 2 = 0 then e else .not e, rest)
    | .mark "-" :: .whole hex digits unsigned :: rest =>
      match wholeLiteral? true hex digits unsigned with
      | some e => readAccess fuel e rest
      | none => none
    | .mark "-" :: .decimal text :: rest =>
      match decimalLiteral? true text with
      | some e => readAccess fuel e rest
      | none => none
    | .mark "-" :: _ =>
      let (n, rest) := leadingMarks "-" ts
      (readMember fuel rest).map fun (e, rest) => (if n % 2 = 0 then e else .neg e, rest)
    | _ => readMember fuel ts

def readMember : Nat → List Token → Option (Expr × List Token)
  | 0, _ => none
  | fuel + 1, ts =>
    match readPrimary fuel ts with
    | some (e, rest) => readAccess fuel e rest
    | none => none

/-- Accesses to fields and items, and calls with a target. -/
def readAccess : Nat → Expr → List Token → Option (Expr × List Token)
  | 0, _, _ => none
  | fuel + 1, e, ts =>
    match ts with
    | .mark "." :: .name field :: .mark "(" :: rest =>
      if literalWords.contains field then none
      else match readArgs fuel ")" rest with
        | some (args, rest) =>
          match ofMethod? e field args with
          | some e => readAccess fuel e rest
          | none => none
        | none => none
    | .mark "." :: .name field :: rest =>
      if literalWords.contains field then none else readAccess fuel (.select e field) rest
    | .mark "." :: _ => none
    | .mark "[" :: rest =>
      match read fuel rest with
      | some (i, .mark "]" :: rest) => readAccess fuel (.binary .index e i) rest
      | _ => none
    | _ => some (e, ts)

/-- A literal, a name, a call or something in brackets. -/
def readPrimary : Nat → List Token → Option (Expr × List Token)
  | 0, _ => none
  | fuel + 1, ts =>
    match ts with
    | .whole hex digits unsigned :: rest =>
      (wholeLiteral? false hex digits unsigned).map fun e => (e, rest)
    | .decimal text :: rest => (decimalLiteral? false text).map fun e => (e, rest)
    | .text s :: rest => some (.lit (.text s), rest)
    | .bytes b :: rest => some (.lit (.bytes b), rest)
    | .name "true" :: rest => some (.lit (.bool true), rest)
    | .name "false" :: rest => some (.lit (.bool false), rest)
    | .name "null" :: rest => some (.lit .null, rest)
    | .mark "(" :: rest =>
      match read fuel rest with
      | some (e, .mark ")" :: rest) => some (e, rest)
      | _ => none
    | .mark "[" :: rest =>
      match closing? "]" rest with
      | some rest => some (.list [], rest)
      | none => (readArgs fuel "]" rest).map fun (items, rest) => (.list items, rest)
    | .mark "\x7b" :: rest =>
      match closing? "\x7d" rest with
      | some rest => some (.map [], rest)
      | none => (readEntries fuel rest).map fun (entries, rest) => (.map entries, rest)
    | .mark "." :: .name s :: .mark "(" :: rest =>
      if reserved.contains s then none
      else (readArgs fuel ")" rest).map fun (args, rest) => (.call s args, rest)
    | .name s :: .mark "(" :: rest =>
      if reserved.contains s then none
      else match readArgs fuel ")" rest with
        | some (args, rest) => (ofCall? s args).map fun e => (e, rest)
        | none => none
    | .mark "." :: .name s :: rest => if reserved.contains s then none else some (.name s, rest)
    | .name s :: rest => if reserved.contains s then none else some (.name s, rest)
    | _ => none

/-- Expressions with commas between them up to a closing mark; after items a last comma may
stand. -/
def readArgs : Nat → String → List Token → Option (List Expr × List Token)
  | 0, _, _ => none
  | fuel + 1, close, ts =>
    if close = ")" ∧ ts.head? = some (.mark ")") then some ([], ts.drop 1)
    else match read fuel ts with
      | some (e, .mark m :: rest) =>
        if m = close then some ([e], rest)
        else if m ≠ "," then none
        else if close = "]" ∧ rest.head? = some (.mark "]") then some ([e], rest.drop 1)
        else if close = ")" ∧ rest.head? = some (.mark ")") then none
        else (readArgs fuel close rest).map fun (more, rest) => (e :: more, rest)
      | _ => none

def readEntries : Nat → List Token → Option (List (Expr × Expr) × List Token)
  | 0, _ => none
  | fuel + 1, ts =>
    match read fuel ts with
    | some (key, .mark ":" :: rest) =>
      match read fuel rest with
      | some (value, .mark "\x7d" :: rest) => some ([(key, value)], rest)
      | some (value, .mark "," :: .mark "\x7d" :: rest) => some ([(key, value)], rest)
      | some (value, .mark "," :: rest) =>
        (readEntries fuel rest).map fun (more, rest) => ((key, value) :: more, rest)
      | _ => none
    | _ => none
end

def parse? (s : List Char) : Option Expr :=
  match Token.scan? s with
  | none => none
  | some tokens =>
    match read (12 * tokens.length + 12) tokens with
    | some (e, []) => some e
    | _ => none

end Expr

end PluginAudit.Suppression
