/-!
Sets of code points by stretches: the lengths of what is outside and inside by turns, from zero on.
-/

namespace PluginAudit.Text

def inStretches : Bool → List Nat → Nat → Bool
  | _, [], _ => false
  | inside, length :: rest, n =>
    if n < length then inside else inStretches (!inside) rest (n - length)

end PluginAudit.Text
