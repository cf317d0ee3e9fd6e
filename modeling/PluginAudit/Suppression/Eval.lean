import PluginAudit.Suppression.Function
import PluginAudit.Suppression.Typing

/-!
The value of an expression, none if it cannot be computed. A conjunction with a false side is false
and a disjunction with a true side is true, even if the other side has no value.
-/

namespace PluginAudit.Suppression

abbrev Env := List (String × Datum)

def conjunction : Option Datum → Option Datum → Option Datum
  | some (.bool false), _ | _, some (.bool false) => some (.bool false)
  | some (.bool true), some (.bool true) => some (.bool true)
  | _, _ => none

def disjunction : Option Datum → Option Datum → Option Datum
  | some (.bool true), _ | _, some (.bool true) => some (.bool true)
  | some (.bool false), some (.bool false) => some (.bool false)
  | _, _ => none

/-- The items of a range: those of a list or the keys of a map. -/
def items? : Datum → Option (List Datum)
  | .list items => some items
  | .map entries => some (entries.map (·.1))
  | _ => none

def truth? : Datum → Option Bool
  | .bool b => some b
  | _ => none

def Quantifier.result? : Quantifier → List (Option Datum) → Option Datum
  | .all, results => results.foldl conjunction (some (.bool true))
  | .exists, results => results.foldl disjunction (some (.bool false))
  | .existsOne, results => do
    let truths ← results.mapM fun r => r.bind truth?
    return .bool (truths.count true == 1)

def typeNames : List (String × BaseType) :=
  [("bool", .bool), ("bytes", .bytes), ("double", .double), ("google.protobuf.Duration", .duration),
   ("int", .int), ("list", .list), ("map", .map), ("null_type", .null), ("string", .text),
   ("google.protobuf.Timestamp", .timestamp), ("type", .type), ("uint", .uint)]

def nameValue? (env : Env) (name : String) : Option Datum :=
  (env.lookup name).or ((typeNames.lookup name).map .type)

/-- Whether a value has a field; lists have none, and asking them fails. -/
def hasField? (d : Datum) (field : String) : Option Datum :=
  match d with
  | .map entries => some (.bool (Datum.find? entries (.text field)).isSome)
  | .list _ => none
  | _ => some (.bool false)

namespace Expr

mutual
def eval : Expr → Env → Option Datum
  | .lit d, _ => some d
  | .name s, env => nameValue? env s
  | .select e field, env =>
    match (Typing.qualified? (.select e field)).bind (nameValue? env) with
    | some d => some d
    | none =>
      match e.eval env with
      | some (.map entries) => Datum.find? entries (.text field)
      | _ => none
  | .has e field, env => (e.eval env).bind (hasField? · field)
  | .call function args, env => (evalAll args env).bind (function? function)
  | .method target function args, env =>
    (target.eval env).bind fun d => (evalAll args env).bind (method? function d)
  | .list items, env => (evalAll items env).map .list
  | .map entries, env =>
    (evalEntries entries env).map fun pairs =>
      .map (pairs.foldl (fun all (k, v) => Datum.put k v all) [])
  | .not e, env => (e.eval env).bind fun d => (truth? d).map fun b => .bool !b
  | .neg e, env => (e.eval env).bind negative?
  | .binary op a b, env => (a.eval env).bind fun x => (b.eval env).bind (op.result? x)
  | .both a b, env => conjunction (a.eval env) (b.eval env)
  | .either a b, env => disjunction (a.eval env) (b.eval env)
  | .choose test yes no, env =>
    match (test.eval env).bind truth? with
    | some true => yes.eval env
    | some false => no.eval env
    | none => none
  | .quantified q range var test, env =>
    ((range.eval env).bind items?).bind fun items =>
      q.result? (items.map fun d => test.eval ((var, d) :: env))
  | .filtered range var test, env => do
    let items ← (range.eval env).bind items?
    let kept ← items.mapM fun d => do
      return if ← (test.eval ((var, d) :: env)).bind truth? then [d] else []
    return .list kept.flatten
  | .mapped range var test value, env => do
    let items ← (range.eval env).bind items?
    let kept ← items.mapM fun d => do
      if ← passes test ((var, d) :: env) then return [← value.eval ((var, d) :: env)] else return []
    return .list kept.flatten

def evalAll : List Expr → Env → Option (List Datum)
  | [], _ => some []
  | e :: rest, env => (e.eval env).bind fun d => (evalAll rest env).map (d :: ·)

def evalEntries : List (Expr × Expr) → Env → Option (List (Datum × Datum))
  | [], _ => some []
  | entry :: rest, env => (evalEntry entry env).bind fun d => (evalEntries rest env).map (d :: ·)

def evalEntry : Expr × Expr → Env → Option (Datum × Datum)
  | (key, value), env => (key.eval env).bind fun k => (value.eval env).map fun v => (k, v)

def passes : Option Expr → Env → Option Bool
  | none, _ => some true
  | some test, env => (test.eval env).bind truth?
end

end Expr

end PluginAudit.Suppression
