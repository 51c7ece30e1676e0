import LintCorpus.Text.Printable

/-!
A text between quotes, as it stands in messages. Single quotes are used unless the text holds one
and no double quote. The quote in use, the backslash and every code point without a visible form
are written as escapes.
-/
namespace LintCorpus.Text

def quoteOne (mark c : Nat) : Text :=
  if c = mark || c = '\\'.toNat then ['\\'.toNat, c]
  else if c = 0x0A then "\\n"
  else if c = 0x0D then "\\r"
  else if c = 0x09 then "\\t"
  else if isPrintable c then [c]
  else if c < 0x100 then "\\x" ++ hex 2 c
  else if c < 0x10000 then "\\u" ++ hex 4 c
  else "\\U" ++ hex 8 c

def quoted (t : Text) : Text :=
  let mark := if List.elem '\''.toNat t && !List.elem '"'.toNat t then '"'.toNat else '\''.toNat
  [mark] ++ t.flatMap (quoteOne mark) ++ [mark]

end LintCorpus.Text
