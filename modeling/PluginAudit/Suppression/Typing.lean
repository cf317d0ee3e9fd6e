import PluginAudit.Suppression.Signature

/-!
The type of an expression. An expression without a type is refused; where several signatures of a
function fit, with different results, the result is dynamic.
-/

namespace PluginAudit.Suppression.Typing

structure State where
  bindings : Bindings := []
  next : Nat := 2

abbrev Check := StateT State Option

abbrev Scope := List (String × Ty)

def fresh : Check Ty := do
  let s ← get
  set { s with next := s.next + 1 }
  return .var s.next

def require (a b : Ty) : Check Unit := do
  let s ← get
  match s.bindings.assign? a b with
  | some bindings => set { s with bindings }
  | none => failure

def resolve (t : Ty) : Check Ty := do return (← get).bindings.apply t

def join (a b : Ty) : Check Ty := do
  let s ← get
  match s.bindings.assign? a b with
  | some bindings =>
    set { s with bindings }
    return a.general b
  | none => return .dyn

/-- The result for arguments of some types under the first signature that fits, joined with
`found`. -/
def fit (args : List Ty) (found : Option Ty) (signature : Signature) : Check (Option Ty) := do
  let s ← get
  let own := signature.shift s.next
  set { s with next := s.next + 2 }
  match s.bindings.assignAll? args own.params with
  | none => return found
  | some bindings =>
    modify ({ · with bindings })
    let result := bindings.apply own.result
    match found with
    | none => return some result
    | some t => return some (if t = .dyn ∨ result = t then t else .dyn)

def resultOf (signatures : List Signature) (args : List Ty) : Check Ty := do
  match ← signatures.foldlM (fit args) none with
  | some t => return t
  | none => failure

def ofLiteral : Datum → Ty
  | .bool _ => .bool
  | .int _ => .int
  | .uint _ => .uint
  | .double _ => .double
  | .text _ => .text
  | .bytes _ => .bytes
  | _ => .null

def namedTypes : List (String × Ty) :=
  [("bool", .bool), ("bytes", .bytes), ("double", .double), ("google.protobuf.Duration", .duration),
   ("int", .int), ("list", Signature.anyList), ("map", Signature.anyMap), ("null_type", .null),
   ("string", .text), ("google.protobuf.Timestamp", .timestamp), ("type", .types), ("uint", .uint)]

def ofName? (scope : Scope) (name : String) : Option Ty :=
  (scope.lookup name).or ((namedTypes.lookup name).map .type)

def qualified? : Expr → Option String
  | .name s => some s
  | .select e field => (qualified? e).map (· ++ "." ++ field)
  | _ => none

def ofField (t : Ty) : Check Ty := do
  match ← resolve t with
  | .map _ v => return v
  | .dyn => return .dyn
  | .var n =>
    require .dyn (.var n)
    return .dyn
  | _ => failure

def ofItems (t : Ty) : Check Ty := do
  match ← resolve t with
  | .list item => return item
  | .map key _ => return key
  | .dyn => return .dyn
  | .var n =>
    require .dyn (.var n)
    return .dyn
  | _ => failure

mutual
def typeOf (scope : Scope) : Expr → Check Ty
  | .lit d => return ofLiteral d
  | .name s => match ofName? scope s with
    | some t => return t
    | none => failure
  | .select e field => do
    match (qualified? (.select e field)).bind (ofName? scope) with
    | some t => return t
    | none => resolve (← ofField (← typeOf scope e))
  | .has e _ => do
    let _ ← ofField (← typeOf scope e)
    return .bool
  | .call function args => do
    resultOf (Signature.ofFunction function) (← typesOf scope args)
  | .method target function args => do
    let args ← typesOf scope args
    resultOf (Signature.ofMethod function) ((← typeOf scope target) :: args)
  | .list items => do
    match ← typesOf scope items with
    | [] => return .list (← fresh)
    | t :: rest => return .list (← rest.foldlM join t)
  | .map entries => do
    match ← typesOfEntries scope entries with
    | [] =>
      let key ← fresh
      return .map key (← fresh)
    | (k, v) :: rest =>
      let (k, v) ← rest.foldlM (fun (k, v) (k', v') => do return (← join k k', ← join v v')) (k, v)
      return .map k v
  | .not e => do
    require (← typeOf scope e) .bool
    return .bool
  | .neg e => do resultOf Signature.negation [← typeOf scope e]
  | .binary op a b => do
    let left ← typeOf scope a
    resultOf (Signature.ofOperator op) [left, ← typeOf scope b]
  | .both a b | .either a b => do
    let left ← typeOf scope a
    let right ← typeOf scope b
    require left .bool
    require right .bool
    return .bool
  | .choose test yes no => do
    let test ← typeOf scope test
    let yes ← typeOf scope yes
    resultOf [⟨[.bool, .var 0, .var 0], .var 0⟩] [test, yes, ← typeOf scope no]
  | .quantified _ range var test => do
    let item ← ofItems (← typeOf scope range)
    require (← typeOf ((var, item) :: scope) test) .bool
    return .bool
  | .filtered range var test => do
    let item ← ofItems (← typeOf scope range)
    require (← typeOf ((var, item) :: scope) test) .bool
    resolve (.list item)
  | .mapped range var test value => do
    let item ← ofItems (← typeOf scope range)
    requireTest ((var, item) :: scope) test
    resolve (.list (← typeOf ((var, item) :: scope) value))

def typesOf (scope : Scope) : List Expr → Check (List Ty)
  | [] => return []
  | e :: rest => do
    let t ← typeOf scope e
    return t :: (← typesOf scope rest)

def typesOfEntries (scope : Scope) : List (Expr × Expr) → Check (List (Ty × Ty))
  | [] => return []
  | entry :: rest => do
    let t ← typesOfEntry scope entry
    return t :: (← typesOfEntries scope rest)

def typesOfEntry (scope : Scope) : Expr × Expr → Check (Ty × Ty)
  | (key, value) => do
    let k ← typeOf scope key
    return (k, ← typeOf scope value)

def requireTest (scope : Scope) : Option Expr → Check Unit
  | none => return ()
  | some test => do require (← typeOf scope test) .bool
end

def check? (scope : Scope) (e : Expr) : Option Ty :=
  (typeOf scope e {}).map fun (t, s) => s.bindings.close t

end PluginAudit.Suppression.Typing
