import PluginAudit.Source.LineState

/-!
Cleaning a line: quoted literals become empty pairs of quotes, and comments are dropped. Literals go
first, so that a comment marker inside a literal is no comment.
-/

namespace PluginAudit.Source

/-! ### Literals -/

/-- What follows the closing quote of a literal whose opening quote has been read. A backslash takes
the next character with it, which is no line feed. -/
def afterLiteral? (quote : Char) : List Char → Option (List Char)
  | [] => none
  | c :: rest =>
    if c = quote then some rest
    else if c = '\\' then
      match rest with
      | [] => none
      | escaped :: rest => if escaped = '\n' then none else afterLiteral? quote rest
    else afterLiteral? quote rest

theorem length_afterLiteral? {quote : Char} {s rest : List Char}
    (h : afterLiteral? quote s = some rest) : rest.length < s.length := by
  fun_induction afterLiteral? quote s with
  | case1 => simp at h
  | case2 => simp_all
  | case3 => simp at h
  | case4 => simp at h
  | case5 _ _ _ _ ih => have := ih h; simp only [List.length_cons]; omega
  | case6 _ _ _ _ ih => have := ih h; simp only [List.length_cons]; omega

def emptyLiterals (quote : Char) (s : List Char) : List Char :=
  match s with
  | [] => []
  | c :: rest =>
    if c = quote then
      match _h : afterLiteral? quote rest with
      | some after => quote :: quote :: emptyLiterals quote after
      | none => c :: emptyLiterals quote rest
    else c :: emptyLiterals quote rest
termination_by s.length
decreasing_by
  · have := length_afterLiteral? _h; simp only [List.length_cons]; omega
  · simp
  · simp

def stripStrings (line : List Char) : List Char :=
  emptyLiterals '\'' (emptyLiterals '"' line)

/-! ### Comments -/

def afterBlock? : List Char → Option (List Char)
  | [] => none
  | c :: rest =>
    if ['*', '/'].isPrefixOf (c :: rest) then some (rest.drop 1)
    else if c = '\n' then none
    else afterBlock? rest

theorem length_afterBlock? {s rest : List Char} (h : afterBlock? s = some rest) :
    rest.length ≤ s.length := by
  fun_induction afterBlock? s with
  | case1 => simp at h
  | case2 =>
    simp only [Option.some.injEq] at h
    subst h
    simp only [List.length_drop, List.length_cons]
    omega
  | case3 => simp at h
  | case4 _ _ _ _ ih => have := ih h; simp only [List.length_cons]; omega

def dropBlocks (s : List Char) : List Char :=
  match s with
  | '/' :: '*' :: rest =>
    match _h : afterBlock? rest with
    | some after => dropBlocks after
    | none => '/' :: dropBlocks ('*' :: rest)
  | c :: rest => c :: dropBlocks rest
  | [] => []
termination_by s.length
decreasing_by
  · have := length_afterBlock? _h; simp only [List.length_cons]; omega
  · simp
  · simp

/-- Whether a line starts with a hash that opens a comment and no attribute. -/
def startsWithHash (line : List Char) : Bool :=
  match Text.trimChars line with
  | '#' :: '[' :: _ => false
  | '#' :: _ => true
  | _ => false

def dropLineComment : List Char → List Char
  | [] => []
  | c :: rest =>
    if ['/', '/'].isPrefixOf (c :: rest) && !rest.contains '\n' then []
    else c :: dropLineComment rest

def stripComments (line : List Char) : List Char :=
  let line := dropBlocks line
  if startsWithHash line then [] else dropLineComment line

def clean (line : List Char) : List Char :=
  stripComments (stripStrings line)

def isCommentLine (line : List Char) : Bool :=
  match Text.trimChars line with
  | '/' :: '/' :: _ | '/' :: '*' :: _ | '*' :: _ => true
  | '#' :: '[' :: _ => false
  | '#' :: _ => true
  | _ => false

end PluginAudit.Source
