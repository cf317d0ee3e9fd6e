import PluginAudit.Text.Printable

/-!
Quoted texts: a text between double quotes in which every character that is not shown as it is
stands as an escape.
-/

namespace PluginAudit.Text

def hexDigit (n : Nat) : Char :=
  if n < 10 then Char.ofNat (n + 48) else Char.ofNat (n + 87)

def hexDigits : Nat → Nat → List Char
  | 0, _ => []
  | width + 1, n => hexDigits width (n / 16) ++ [hexDigit (n % 16)]

def quoteCharIn (mark c : Char) : List Char :=
  if c == mark then ['\\', mark]
  else if c == '\\' then ['\\', '\\']
  else if isPrintable c then [c]
  else
    let n := c.toNat
    match n with
    | 0x07 => ['\\', 'a']
    | 0x08 => ['\\', 'b']
    | 0x0C => ['\\', 'f']
    | 0x0A => ['\\', 'n']
    | 0x0D => ['\\', 'r']
    | 0x09 => ['\\', 't']
    | 0x0B => ['\\', 'v']
    | _ =>
      if n < 0x80 then ['\\', 'x'] ++ hexDigits 2 n
      else if n < 0x10000 then ['\\', 'u'] ++ hexDigits 4 n
      else ['\\', 'U'] ++ hexDigits 8 n

def quoteChar (c : Char) : List Char := quoteCharIn '"' c

def quoteLetter (c : Char) : String :=
  String.ofList (['\''] ++ quoteCharIn '\'' c ++ ['\''])

def quote (s : String) : String :=
  String.ofList (['"'] ++ s.toList.flatMap quoteChar ++ ['"'])

end PluginAudit.Text
