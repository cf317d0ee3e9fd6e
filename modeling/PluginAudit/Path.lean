import PluginAudit.Text.Blank

/-!
Slash-separated paths: lexical cleaning, joining, and the way from one path to another. A clean path
has no empty component, no `.`, and no `..` after a component that is not `..`.
-/

namespace PluginAudit.Path

def isAbsolute (path : String) : Bool :=
  path.toList.head? == some '/'

/-- The parts between slashes, empty ones and `.` left out. -/
def components (path : String) : List String :=
  (Text.split '/' path).filter fun part => part != "" && part != "."

/-- Adds one component to cleaned ones, given in reverse. A `..` takes back the component before it,
and at the top of the tree it is dropped. -/
def pushComponent (rooted : Bool) : List String → String → List String
  | [], ".." => if rooted then [] else [".."]
  | last :: before, ".." => if last = ".." then ".." :: last :: before else before
  | before, part => part :: before

def cleanComponents (path : String) : List String :=
  ((components path).foldl (pushComponent (isAbsolute path)) []).reverse

def ofComponents (rooted : Bool) (parts : List String) : String :=
  if rooted then "/" ++ "/".intercalate parts
  else if parts.isEmpty then "."
  else "/".intercalate parts

/-- The shortest path that means the same lexically. -/
def clean (path : String) : String :=
  ofComponents (isAbsolute path) (cleanComponents path)

def join (parts : List String) : String :=
  match parts.filter (· != "") with
  | [] => ""
  | given => clean ("/".intercalate given)

/-- The part after the last slash, trailing slashes apart. -/
def base (path : String) : String :=
  if path = "" then "."
  else
    let trimmed := Text.trimEndBy (· == '/') path.toList
    if trimmed.isEmpty then "/"
    else String.ofList (trimmed.reverse.takeWhile (· != '/')).reverse

/-- Everything before the part after the last slash, cleaned. -/
def dir (path : String) : String :=
  clean (String.ofList (path.toList.reverse.dropWhile (· != '/')).reverse)

/-- The part of the last component from its last dot on, or nothing. -/
def extension (path : String) : String :=
  let last := path.toList.reverse.takeWhile (· != '/')
  if last.contains '.' then String.ofList ((last.takeWhile (· != '.')).reverse.cons '.') else ""

def dropCommon : List String → List String → List String × List String
  | a :: as, b :: bs => if a = b then dropCommon as bs else (a :: as, b :: bs)
  | as, bs => (as, bs)

/-- The way from `root` to `target`, if there is a lexical one. -/
def relative? (root target : String) : Option String :=
  let from' := clean root
  let to' := clean target
  if from' = to' then some "."
  else if isAbsolute from' != isAbsolute to' then none
  else
    let rest := dropCommon (cleanComponents root)
      (if to' = "." then ["."] else cleanComponents target)
    match rest with
    | (".." :: _, _ :: _) => none
    | (up, down) => some ("/".intercalate (up.map (fun _ => "..") ++ down))

/-- Whether a relative path leaves the directory it starts from. -/
def leaves (path : String) : Bool :=
  path == ".." || path.startsWith "../"

/-- The clean absolute path of `path` seen from the directory `here`. -/
def absolute (here path : String) : String :=
  if isAbsolute path then clean path else join [here, path]

/-- The absolute path of `path` seen from the directory `here`, as it is written: a step up is taken
where the steps before it lead. -/
def seenFrom (here path : String) : String :=
  if isAbsolute path then path else here ++ "/" ++ path

/-- Whether a path can only mean a directory, by the way it ends. -/
def asksDirectory (path : String) : Bool :=
  "/".toList.isSuffixOf path.toList || "/.".toList.isSuffixOf path.toList

end PluginAudit.Path
