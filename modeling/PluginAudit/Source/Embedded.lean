import PluginAudit.Pattern.Search
import PluginAudit.Text.Blank

/-!
Lines of other languages inside a source file, told by their looks: script code and style rules.
-/

namespace PluginAudit.Source

open Pattern

/-- Hook registrations, which are plugin code even where their closures look like script code. -/
def hookRegistration : Pattern :=
  .cat [wordEdge, literal "add_", words ["action", "filter"], spaces, literal "(", spaces,
    anyOf "\"'"]

def callOf (name : Pattern) : Pattern := .cat [name, spaces, literal "("]

def scriptLooks : List Pattern :=
  [.cat [literal "$(", spaces, .set ((CharSet.ofString "\"'.#").union .wordChar)],
   .seq wordEdge (callOf (literal "jQuery")),
   .cat [wordEdge, literal "document.", wordRun],
   .cat [wordEdge, literal "window.", wordRun],
   .cat [wordEdge, literal "console.", wordRun, spaces, literal "("],
   callOf (literal ".addEventListener"),
   callOf (literal ".each"),
   .cat [wordEdge, literal "function", spaces, literal "(", star (noneOf ")"), literal ")", spaces,
     literal "\x7b", star (noneOf "\x7d"), literal "\x7d", spaces, literal ")"],
   .cat [literalAnyCase "echo", spaces1, anyOf "\"'", spaces, literalAnyCase "<script"],
   .seq (literalAnyCase "<script") wordEdge,
   .cat [wordEdge, words ["var", "let", "const"], spaces1, wordRun, spaces, literal "="],
   .cat [literal "=>", spaces, literal "\x7b"],
   callOf (.seq (literal ".") (words ["on", "off", "click", "ready", "ajax", "then", "catch"]))]

def isScript (line : List Char) : Bool :=
  !hookRegistration.test line && scriptLooks.any fun look => look.test line

def styleTag : Pattern :=
  oneOf [.seq (literalAnyCase "<style") wordEdge, .seq (literalAnyCase "@media") wordEdge,
    .seq (literalAnyCase "@import") wordEdge]

def styleFunction : Pattern :=
  .seq wordEdge (callOf (oneOf [.seq (literal "rgb") (opt (literal "a")),
    .seq (literal "hsl") (opt (literal "a")), literal "calc", literal "url",
    .seq (literal "translate") (opt (anyOf "XYZ")), literal "rotate", literal "scale",
    literal "linear-gradient", literal "radial-gradient"]))

def styleNameChar : Pattern := .set ((CharSet.ofString "-").union .wordChar)

def styleRule : Pattern :=
  .cat [textStart, spaces, anyOf ".#", plus styleNameChar, star (noneOf "\x7b("), literal "\x7b",
    star (noneOf "\x7d"), literal ":", star (noneOf "\x7d"), opt (literal "\x7d"), spaces, textEnd]

def styleDeclaration : Pattern :=
  .cat [textStart, spaces, plus styleNameChar, spaces, literal ":", spaces, plus (noneOf ";()"),
    literal ";", spaces, textEnd]

def isStyle (line : List Char) : Bool :=
  styleTag.test line || styleFunction.test line ||
    (!line.contains '$' && (styleRule.test line || styleDeclaration.test line))

end PluginAudit.Source
