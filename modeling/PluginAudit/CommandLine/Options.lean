import PluginAudit.CommandLine.Flag

/-!
Reading the words after a command: flags with their values, and what is left. Two hyphens by
themselves end the flags.
-/

namespace PluginAudit.CommandLine

inductive FlagError where
  | badForm (word : String)
  | unknown (name : String)
  | unknownLetter (group : List Char)
  | noValue (word : String)
  | noLetterValue (group : List Char)
  | badValue (flag : Flag) (value : String) (cause : ValueError)
deriving DecidableEq

def leadByte (s : List Char) : Char :=
  match (String.ofList (s.take 1)).toUTF8.toList with
  | [] => ' '
  | b :: _ => Char.ofNat b.toNat

def groupText (group : List Char) : String :=
  Text.quoteLetter (leadByte group) ++ " in -" ++ String.ofList group

def Flag.title (f : Flag) : String :=
  match f.letter with
  | some c => "-" ++ String.singleton c ++ ", --" ++ f.name
  | none => "--" ++ f.name

def FlagError.message : FlagError → String
  | .badForm word => "bad flag syntax: " ++ word
  | .unknown name => "unknown flag: --" ++ name
  | .unknownLetter group => "unknown shorthand flag: " ++ groupText group
  | .noValue word => "flag needs an argument: " ++ word
  | .noLetterValue group => "flag needs an argument: " ++ groupText group
  | .badValue flag value cause =>
    "invalid argument " ++ Text.quote value ++ " for " ++ Text.quote flag.title ++ " flag: " ++
      cause.message

def named? (flags : List Flag) (name : String) : Option Flag := flags.find? (·.name == name)

def lettered? (flags : List Flag) (c : Char) : Option Flag := flags.find? (·.letter == some c)

structure Progress where
  settled : Settled := []
  /-- Words that are no flags, in reverse. -/
  rest : List String := []
  /-- A flag that waits for its value, and the error if none comes. -/
  waiting : Option (Flag × FlagError) := none
  ended : Bool := false

namespace Progress

def settle (p : Progress) (f : Flag) (value : String) : Except FlagError Progress :=
  match f.kind.read value with
  | .ok given => .ok { p with settled := p.settled ++ [(f.name, given)], waiting := none }
  | .error cause => .error (.badValue f value cause)

def long (flags : List Flag) (p : Progress) (word : String) (body : List Char) :
    Except FlagError Progress :=
  if body.head?.all fun c => c == '-' || c == '=' then .error (.badForm word)
  else
    let (name, value) := body.span (· != '=')
    match named? flags (String.ofList name) with
    | none => .error (.unknown (String.ofList name))
    | some f => match value with
      | _ :: value => p.settle f (String.ofList value)
      | [] =>
        if f.kind = .switch then p.settle f "true"
        else .ok { p with waiting := some (f, .noValue word) }

/-- Reads letters after one hyphen. The rest of a group is the value of a flag that needs one. -/
def letters (flags : List Flag) : Progress → List Char → Except FlagError Progress
  | p, [] => .ok p
  | p, c :: rest =>
    if "test.".toList.isPrefixOf (c :: rest) then .ok p
    else match lettered? flags c with
      | none => .error (.unknownLetter (c :: rest))
      | some f =>
        match rest with
        | '=' :: v :: value => p.settle f (String.ofList (v :: value))
        | rest =>
          if f.kind = .switch then
            (p.settle f "true").bind fun p => letters flags p rest
          else if rest.isEmpty then .ok { p with waiting := some (f, .noLetterValue [c]) }
          else p.settle f (String.ofList rest)

def step (flags : List Flag) (p : Progress) (word : String) : Except FlagError Progress :=
  match p.waiting with
  | some (f, _) => p.settle f word
  | none =>
    if p.ended then .ok { p with rest := word :: p.rest }
    else match word.toList with
      | ['-', '-'] => .ok { p with ended := true }
      | '-' :: '-' :: body => p.long flags word body
      | '-' :: c :: group => p.letters flags (c :: group)
      | _ => .ok { p with rest := word :: p.rest }

end Progress

def readOptions (flags : List Flag) (words : List String) :
    Except FlagError (Settled × List String) := do
  let p ← words.foldlM (Progress.step flags) {}
  match p.waiting with
  | some (_, missing) => throw missing
  | none => return (p.settled, p.rest.reverse)

/-! ### Words that may name a command -/

/-- Whether a word is a flag that takes the next word as its value; a flag that is not known
does. -/
def takesNext (flags : List Flag) (word : String) : Bool :=
  let isSwitch (f : Option Flag) : Bool := f.any (·.kind == .switch)
  match word.toList with
  | '-' :: '-' :: name => !name.contains '=' && !isSwitch (named? flags (String.ofList name))
  | ['-', c] => c != '=' && c.utf8Size == 1 && !isSwitch (lettered? flags c)
  | _ => false

def isFlagLike (word : String) : Bool := word.startsWith "-"

def candidates (flags : List Flag) : List String → List String
  | [] => []
  | word :: rest =>
    if word = "--" then []
    else if takesNext flags word then
      match rest with
      | [] | [_] => []
      | _ :: rest => candidates flags rest
    else if word ≠ "" ∧ !isFlagLike word then word :: candidates flags rest
    else candidates flags rest

def without (flags : List Flag) (name : String) : List String → List String
  | [] => []
  | word :: rest =>
    if word = "--" then word :: rest
    else if takesNext flags word then
      match rest with
      | [] => [word]
      | value :: rest => word :: value :: without flags name rest
    else if word = name ∧ !isFlagLike word then rest
    else word :: without flags name rest

end PluginAudit.CommandLine
