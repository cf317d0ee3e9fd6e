/-!
Tables from names to values: each name once, in increasing order.
-/

namespace PluginAudit

abbrev Table (α : Type) := List (String × α)

namespace Table

def insert (name : String) (value : α) : Table α → Table α
  | [] => [(name, value)]
  | (other, old) :: rest =>
    if name = other then (name, value) :: rest
    else if name < other then (name, value) :: (other, old) :: rest
    else (other, old) :: insert name value rest

def get? (name : String) (table : Table α) : Option α :=
  (table.find? fun entry => entry.1 == name).map (·.2)

def has (name : String) (table : Table α) : Bool :=
  table.any fun entry => entry.1 == name

/-- The table of some pairs; of two with one name the later counts. -/
def ofPairs (pairs : List (String × α)) : Table α :=
  pairs.foldl (fun table (name, value) => insert name value table) []

def names (table : Table α) : List String := table.map (·.1)

end Table

def sortedNames (names : List String) : List String :=
  (Table.ofPairs (names.map fun name => (name, ()))).names

end PluginAudit
