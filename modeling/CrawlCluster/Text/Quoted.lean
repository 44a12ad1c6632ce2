import CrawlCluster.Text.Hidden

/-!
Text between quotation marks, written so that every character of it shows. Quotes, backslashes
and the commonest controls are marked by a backslash; others that do not show by themselves are
written as their code point in braces.
-/

set_option autoImplicit false

namespace CrawlCluster.Text

/-- What follows the backslash, for the characters that have a short form. -/
def shortEscape? (c : Char) : Option Char :=
  [('\x00', '0'), ('\t', 't'), ('\r', 'r'), ('\n', 'n'), ('\\', '\\'), ('"', '"')].lookup c

def codePointEscape (c : Char) : List Char :=
  "\\u\x7b".toList ++ Nat.toDigits 16 c.toNat ++ ['\x7d']

def escapeChar (c : Char) : List Char :=
  match shortEscape? c with
  | some e => ['\\', e]
  | none => if isHidden c then codePointEscape c else [c]

def quoted (s : String) : String :=
  String.ofList ('"' :: s.toList.flatMap escapeChar ++ ['"'])

end CrawlCluster.Text
