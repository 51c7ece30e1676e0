import LintCorpus.Text.Basic

/-!
Commands as they would be typed in a shell.
-/
namespace LintCorpus.Text

def isShellPlain (c : Nat) : Bool :=
  (0x61 ≤ c && c ≤ 0x7A) || (0x41 ≤ c && c ≤ 0x5A) || (0x30 ≤ c && c ≤ 0x39) ||
    List.elem c (ofString "_@%+=:,./-")

/-- An argument, between single quotes unless all of it is plain. A single quote inside is set
between double quotes. -/
def shellQuoted (t : Text) : Text :=
  if !t.isEmpty && t.all isShellPlain then t
  else
    let quote : Text := "'"
    let inner := t.flatMap fun c => if c = 0x27 then ofString "'\"'\"'" else [c]
    quote ++ inner ++ quote

def shellCommand (arguments : List Text) : Text := join " " (arguments.map shellQuoted)

end LintCorpus.Text
