import PluginAudit.Suppression.Expr

/-!
Types of the rule language and when a value of one type may stand for another. The dynamic type goes
with every type; a variable takes the type it first meets and becomes more general when it meets a
more general one.
-/

namespace PluginAudit.Suppression

inductive Ty where
  | dyn | null | bool | int | uint | double | text | bytes | timestamp | duration
  | list (item : Ty)
  | map (key value : Ty)
  | type (t : Ty)
  | types
  | var (n : Nat)
deriving DecidableEq, Repr, Inhabited

namespace Ty

def name : Ty → String
  | .dyn => "dyn"
  | .null => "null_type"
  | .bool => "bool"
  | .int => "int"
  | .uint => "uint"
  | .double => "double"
  | .text => "string"
  | .bytes => "bytes"
  | .timestamp => "google.protobuf.Timestamp"
  | .duration => "google.protobuf.Duration"
  | .list t => "list(" ++ t.name ++ ")"
  | .map k v => "map(" ++ k.name ++ ", " ++ v.name ++ ")"
  | .type t => "type(" ++ t.name ++ ")"
  | .types => "type"
  | .var n => "_var" ++ Decimal.natText n

def size : Ty → Nat
  | .list t | .type t => t.size + 1
  | .map k v => k.size + v.size + 1
  | _ => 1

def shift (amount : Nat) : Ty → Ty
  | .list t => .list (t.shift amount)
  | .map k v => .map (k.shift amount) (v.shift amount)
  | .type t => .type (t.shift amount)
  | .var n => .var (n + amount)
  | t => t

def takesNull : Ty → Bool
  | .null | .timestamp | .duration => true
  | _ => false

def covers : Ty → Ty → Bool
  | .dyn, _ | .var _, _ => true
  | _, .dyn | _, .var _ => false
  | .list a, .list b => a.covers b
  | .map a b, .map c d => a.covers c && b.covers d
  | .type _, .type _ | .type _, .types | .types, .type _ | .types, .types => true
  | a, b => a == b

def general (a b : Ty) : Ty := if a.covers b then a else b

end Ty

abbrev Bindings := List (Nat × Ty)

namespace Bindings

def bind (m : Bindings) (n : Nat) (t : Ty) : Bindings := (n, t) :: m.filter (·.1 != n)

def weight (m : Bindings) : Nat := m.foldr (fun b n => b.2.size + 1 + n) 0

/-- Whether a variable does not occur in a type, its own bindings included. -/
def avoids : Nat → Bindings → Nat → Ty → Bool
  | 0, _, _, _ => false
  | fuel + 1, m, n, t =>
    match t with
    | .var k =>
      if k = n then false
      else match m.lookup k with
        | some sub => avoids fuel m n sub
        | none => true
    | .list t | .type t => avoids fuel m n t
    | .map k v => avoids fuel m n k && avoids fuel m n v
    | _ => true

def isFree (m : Bindings) (n : Nat) (t : Ty) : Bool := avoids (m.weight + t.size + 1) m n t

/-- Puts in what variables stand for; free ones stay, or become dynamic. -/
def substitute : Nat → Bindings → Bool → Ty → Ty
  | 0, _, _, t => t
  | fuel + 1, m, close, t =>
    match t with
    | .var n =>
      match m.lookup n with
      | some sub => substitute fuel m close sub
      | none => if close then .dyn else t
    | .list t => .list (substitute fuel m close t)
    | .map k v => .map (substitute fuel m close k) (substitute fuel m close v)
    | .type t => .type (substitute fuel m close t)
    | t => t

def apply (m : Bindings) (t : Ty) : Ty := substitute (m.weight + t.size + 1) m false t

def close (m : Bindings) (t : Ty) : Ty := substitute (m.weight + t.size + 1) m true t

mutual
/-- Whether a value of one type may stand for one of another, with the bindings that make it so. -/
def assignFrom : Nat → Bindings → Ty → Ty → Option Bindings
  | 0, _, _, _ => none
  | fuel + 1, m, a, b =>
    match b with
    | .var n =>
      match meet fuel m a n with
      | (some m, _) => some m
      | (none, true) => none
      | (none, false) => assignKnown fuel m a b
    | _ => assignKnown fuel m a b

/-- The same, once the second type is no variable that could be bound. -/
def assignKnown : Nat → Bindings → Ty → Ty → Option Bindings
  | 0, _, _, _ => none
  | fuel + 1, m, a, b =>
    match a, b with
    | .var n, b => (meet fuel m b n).1
    | .dyn, _ | _, .dyn => some m
    | .null, b => if b.takesNull then some m else none
    | a, .null => if a.takesNull then some m else none
    | .list a, .list b => assignFrom fuel m a b
    | .map k v, .map k' v' => (assignFrom fuel m k k').bind fun m => assignFrom fuel m v v'
    | .type _, .type _ | .type _, .types | .types, .type _ | .types, .types => some m
    | a, b => if a = b then some m else none

/-- Lets a variable meet a type; also says whether the variable was bound before. -/
def meet : Nat → Bindings → Ty → Nat → Option Bindings × Bool
  | 0, _, _, _ => (none, true)
  | fuel + 1, m, t, n =>
    if t = .var n then (some m, true)
    else match m.lookup n with
      | some sub =>
        if t = sub then (some m, true)
        else match assignFrom fuel m t sub with
          | some m =>
            let wider := t.general sub
            (some (if m.isFree n wider then m.bind n wider else m), true)
          | none => (none, true)
      | none => if m.isFree n t then (some (m.bind n t), false) else (none, false)
end

def assign? (m : Bindings) (a b : Ty) : Option Bindings :=
  assignFrom (6 * (m.weight + a.size + b.size) + 12) m a b

def assignAll? (m : Bindings) : List Ty → List Ty → Option Bindings
  | [], [] => some m
  | a :: as, b :: bs => (m.assign? a b).bind fun m => m.assignAll? as bs
  | _, _ => none

end Bindings

end PluginAudit.Suppression
