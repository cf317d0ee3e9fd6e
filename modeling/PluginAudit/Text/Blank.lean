/-!
White space as a character property, and trimming. A text is blank when nothing is left of it after
trimming.
-/

namespace PluginAudit.Text

/-- The characters with the Unicode property White_Space. -/
def isSpace (c : Char) : Bool :=
  let n := c.toNat
  (0x09 ≤ n && n ≤ 0x0D) || n == 0x20 || n == 0x85 || n == 0xA0 || n == 0x1680 ||
    (0x2000 ≤ n && n ≤ 0x200A) || n == 0x2028 || n == 0x2029 || n == 0x202F || n == 0x205F ||
    n == 0x3000

def trimStartBy (p : Char → Bool) (s : List Char) : List Char :=
  s.dropWhile p

def trimEndBy (p : Char → Bool) (s : List Char) : List Char :=
  (s.reverse.dropWhile p).reverse

def trimBy (p : Char → Bool) (s : List Char) : List Char :=
  trimEndBy p (trimStartBy p s)

def trimChars (s : List Char) : List Char :=
  trimBy isSpace s

def trim (s : String) : String :=
  String.ofList (trimChars s.toList)

def isBlank (s : String) : Bool :=
  s.toList.all isSpace

/-! ### Texts with a given start or end -/

def dropLead (lead s : String) : String :=
  if s.startsWith lead then String.ofList (s.toList.drop lead.length) else s

def dropTail (tail s : String) : String :=
  if tail.toList.isSuffixOf s.toList then
    String.ofList (s.toList.take (s.toList.length - tail.toList.length))
  else s

def occursIn (needle : List Char) : List Char → Bool
  | [] => needle.isEmpty
  | c :: rest => needle.isPrefixOf (c :: rest) || occursIn needle rest

def contains (s needle : String) : Bool :=
  occursIn needle.toList s.toList

def splitOnChar (sep : Char) : List Char → List (List Char)
  | [] => [[]]
  | c :: rest =>
    if c = sep then [] :: splitOnChar sep rest
    else match splitOnChar sep rest with
      | [] => [[c]]
      | part :: parts => (c :: part) :: parts

def split (sep : Char) (s : String) : List String :=
  (splitOnChar sep s.toList).map String.ofList

/-- The words of some lines. -/
def wordsOf (lines : List String) : List String := lines.flatMap (split ' ')

def replaceChar (old new : Char) (s : String) : String :=
  String.ofList (s.toList.map fun c => if c = old then new else c)

end PluginAudit.Text
