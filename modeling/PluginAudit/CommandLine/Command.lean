import PluginAudit.CommandLine.Options

/-!
The commands of the tool, the flags they have, and how a command line leads to one of them.
-/

namespace PluginAudit.CommandLine

inductive Command where
  | top
  | scan
  | watch
  | ecosystems
  | exclusions
  | exclusionStats
  | exclusionExport
  | version
  | help
  /-- Asks what could come next on a command line. -/
  | complete
deriving DecidableEq

namespace Command

def children : Command → List (String × Command)
  | .top =>
    [("scan", .scan), ("watch", .watch), ("ecosystems", .ecosystems),
        ("exclusions", .exclusions), ("version", .version), ("help", .help),
      ("__complete", .complete),
        ("__completeNoDesc", .complete)]
  | .exclusions => [("stats", .exclusionStats), ("export", .exclusionExport)]
  | _ => []

def path : Command → String
  | .top => "wpfatal"
  | .scan => "wpfatal scan"
  | .watch => "wpfatal watch"
  | .ecosystems => "wpfatal ecosystems"
  | .exclusions => "wpfatal exclusions"
  | .exclusionStats => "wpfatal exclusions stats"
  | .exclusionExport => "wpfatal exclusions export"
  | .version => "wpfatal version"
  | .help => "wpfatal help"
  | .complete => "wpfatal __complete"

def isRunnable : Command → Bool
  | .top | .exclusions => false
  | _ => true

def usage (c : Command) : String :=
  c.path ++ match c with
  | .top | .exclusions => " [command]"
  | .scan | .watch | .ecosystems => " [path] [flags]"
  | .help => " [command] [flags]"
  | .complete => " [command-line]"
  | .exclusionStats | .exclusionExport | .version => " [flags]"

/-! ### Flags -/

def globalFlags : List Flag :=
  [⟨"log-level", .text, none⟩, ⟨"log-format", .text, none⟩, ⟨"verbose", .switch, some 'v'⟩,
   ⟨"color", .text, none⟩, ⟨"no-colors", .switch, none⟩]

def scanFlags : List Flag :=
  [⟨"format", .text, some 'f'⟩, ⟨"config", .text, none⟩, ⟨"php", .list, none⟩, ⟨"wp", .list, none⟩,
   ⟨"severity", .list, none⟩, ⟨"show-all-errors", .switch, none⟩, ⟨"all", .switch, none⟩,
   ⟨"fatal-only", .switch, none⟩, ⟨"reporting-mode", .text, none⟩,
    ⟨"exclusion-config", .text, none⟩,
   ⟨"disable-ecosystem-detection", .switch, none⟩, ⟨"force-ecosystem", .list, none⟩,
   ⟨"ignore-dependency-errors", .switch, none⟩, ⟨"include", .item, none⟩, ⟨"exclude", .item, none⟩,
   ⟨"detectors", .list, none⟩, ⟨"workers", .whole, none⟩, ⟨"no-lint", .switch, none⟩,
   ⟨"php-binary", .text, none⟩, ⟨"lint-timeout", .span, none⟩, ⟨"lint-rate", .real, none⟩,
   ⟨"probe-runtime", .switch, none⟩, ⟨"max-ecosystem-scan-files", .whole, none⟩,
   ⟨"suppress", .item, none⟩, ⟨"cache", .switch, none⟩, ⟨"cache-path", .text, none⟩,
   ⟨"baseline", .text, none⟩, ⟨"save-baseline", .text, none⟩, ⟨"baseline-key", .text, none⟩,
   ⟨"metrics-file", .text, none⟩]

def ownFlags : Command → List Flag
  | .scan => scanFlags
  | .watch => scanFlags ++ [⟨"debounce", .span, none⟩]
  | .ecosystems =>
    [⟨"format", .text, some 'f'⟩, ⟨"config", .text, none⟩, ⟨"force-ecosystem", .list, none⟩,
     ⟨"max-ecosystem-scan-files", .whole, none⟩]
  | .exclusionStats =>
    [⟨"format", .text, some 'f'⟩, ⟨"exclusion-config", .text, none⟩,
      ⟨"reporting-mode", .text, none⟩]
  | .exclusionExport =>
    [⟨"exclusion-config", .text, none⟩, ⟨"reporting-mode", .text, none⟩,
      ⟨"output", .text, some 'o'⟩]
  | _ => []

def flags (c : Command) : List Flag := c.ownFlags ++ globalFlags

def helpFlag : Flag := ⟨"help", .switch, some 'h'⟩

/-! ### Finding a command -/

/-- How many commands a command line can still name below a command. -/
def depth : Command → Nat
  | .top => 2
  | .exclusions => 1
  | _ => 0

def child? (c : Command) (name : String) : Option Command := c.children.lookup name

theorem depth_lt_of_mem_children {c d : Command} {name : String} (h : (name, d) ∈ c.children) :
    d.depth < c.depth := by
  cases c <;> simp only [children, List.mem_cons, Prod.mk.injEq, List.not_mem_nil, or_false] at h
  · rcases h with h | h | h | h | h | h | h | h <;> simp [h.2, depth]
  · rcases h with h | h <;> simp [h.2, depth]

theorem mem_of_lookup {α : Type} {l : List (String × α)} {name : String} {a : α}
    (h : l.lookup name = some a) : (name, a) ∈ l := by
  induction l with
  | nil => simp at h
  | cons entry l ih =>
    obtain ⟨key, b⟩ := entry
    by_cases same : name = key
    · subst same
      simp only [List.lookup_cons_self, Option.some.injEq] at h
      simp [h]
    · have : (name == key) = false := by simpa using same
      simp only [List.lookup_cons, this] at h
      exact List.mem_cons_of_mem _ (ih h)

theorem depth_child?_lt {c d : Command} {name : String} (h : c.child? name = some d) :
    d.depth < c.depth :=
  depth_lt_of_mem_children (mem_of_lookup h)

/-- The command that words lead to, and the words without its names. -/
def locate (c : Command) (words : List String) : Command × List String :=
  match candidates c.flags words with
  | [] => (c, words)
  | name :: _ =>
    match _h : c.child? name with
    | some d => locate d (without c.flags name words)
    | none => (c, words)
termination_by c.depth
decreasing_by exact depth_child?_lt _h

/-! ### Suggestions -/

/-- The next row of distances between the starts of two texts. -/
def nextRow (b : UInt8) (other : List UInt8) (row : List Nat) : List Nat :=
  let cell (acc : List Nat) (entry : UInt8 × Nat × Nat) : List Nat :=
    let (a, diagonal, above) := entry
    (if a = b then diagonal else 1 + min above (min diagonal (acc.headD 0))) :: acc
  ((other.zip (row.zip row.tail)).foldl cell [row.headD 0 + 1]).reverse

/-- How many bytes have to be put in, taken out or changed to make one text of another. -/
def editDistance (s t : List UInt8) : Nat :=
  (s.foldl (fun row b => nextRow b t row) (List.range (t.length + 1))).getLastD 0

def isClose (word name : String) : Bool :=
  let word := Text.lower word
  editDistance word.toUTF8.toList name.toUTF8.toList ≤ 2 || name.startsWith word

def suggestions (word : String) : List String :=
  ["scan", "watch", "ecosystems", "exclusions", "version"].filter (isClose word)

end Command

end PluginAudit.CommandLine
