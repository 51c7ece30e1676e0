import LintCorpus.Text.Blank
import LintCorpus.Text.WordClass

/-!
Fitting a text on one line. The words are set apart by single spaces; when they do not fit, the
line ends with an ellipsis after the last piece that leaves room for it. Words may be cut after a
hyphen between letters and around dashes.
-/
namespace LintCorpus.Text

/-- A letter, number or mark that a dash may directly follow or stand before. -/
def isWordOrMark (c : Nat) : Bool :=
  isWord c || [0x21, 0x22, 0x27, 0x26, 0x2E, 0x2C, 0x3F].contains c

def hyphen : Nat := 0x2D

def dashFollows (rest : Text) : Bool :=
  let dashes := rest.takeWhile (· == hyphen)
  2 ≤ dashes.length && ((rest.drop dashes.length).head?).any isWord

/-- Whether a text, given backwards, ends with two letters or with letter, hyphen, letter. -/
def endsWithLetters : Text → Bool
  | a :: b :: rest =>
    isLetter a && (isLetter b || (b == hyphen && rest.head?.any isLetter))
  | _ => false

def lettersFollow : Text → Bool
  | a :: b :: rest =>
    isLetter a && (isLetter b || (b == hyphen && rest.head?.any isLetter))
  | _ => false

def hyphenCuts (before : Text) : Text → Bool
  | c :: rest => c == hyphen && endsWithLetters before && lettersFollow rest
  | [] => false

/-- The rest of a word up to where it ends or may be cut, and what follows; `before` is all that
has been read, newest first, and `piece` the part of it that belongs to the word. -/
def takePiece (before piece : Text) : Text → Text × Text
  | [] => (piece.reverse, [])
  | c :: rest =>
    if hyphenCuts before (c :: rest) then ((c :: piece).reverse, rest)
    else if isBlank c then (piece.reverse, c :: rest)
    else if before.head?.any isWordOrMark && dashFollows (c :: rest) then (piece.reverse, c :: rest)
    else takePiece (c :: before) (c :: piece) rest

def firstPiece (before : Text) : Text → Text × Text
  | [] => ([], [])
  | c :: rest =>
    if isBlank c then
      let blanks := (c :: rest).takeWhile isBlank
      (blanks, (c :: rest).drop blanks.length)
    else if before.head?.any isWordOrMark && dashFollows (c :: rest) then
      let dashes := (c :: rest).takeWhile (· == hyphen)
      (dashes, (c :: rest).drop dashes.length)
    else takePiece (c :: before) [c] rest

def piecesFrom : Nat → Text → Text → List Text
  | 0, _, _ => []
  | fuel + 1, before, rest =>
    if rest.isEmpty then []
    else
      let (piece, next) := firstPiece before rest
      piece :: piecesFrom fuel (piece.reverse ++ before) next

def pieces (t : Text) : List Text := piecesFrom t.length [] t

/-- The part of a piece that is put on a line with `space` left: up to the last hyphen that fits
and has something else before it, or as much as there is space. -/
def cutPiece (space : Nat) (piece : Text) : Text :=
  let fitting := piece.take space
  let upToHyphen := (fitting.reverse.dropWhile (· != hyphen)).reverse
  if upToHyphen.dropLast.any (· != hyphen) then upToHyphen else fitting

/-- The pieces that fit on a line of `width`, newest first; of a piece that fits on no line as much
as there is space. -/
def fillLine (width : Nat) (line : List Text) (used : Nat) : List Text → List Text
  | [] => line
  | piece :: rest =>
    if used + piece.length ≤ width then fillLine width (piece :: line) (used + piece.length) rest
    else if width < piece.length then cutPiece (width - used) piece :: line
    else line

/-- The end of a line, newest piece first, given up piece by piece until `mark` fits after a piece
that is not blank. -/
def endWith (mark : Text) (width : Nat) : List Text → Text
  | [] => mark
  | piece :: rest =>
    let line := piece :: rest
    if !piece.all isBlank && line.flatten.length + mark.length ≤ width then
      line.reverse.flatten ++ mark
    else endWith mark width rest

def ellipsis : Text := "…"

def shorten (t : Text) (width : Nat) : Text :=
  let line := join " " t.words
  if line.length ≤ width then line
  else
    let filled := fillLine width [] 0 line.pieces
    let trimmed : List Text :=
      match filled with
      | [] => []
      | last :: rest => if last.all isBlank then rest else last :: rest
    endWith ellipsis width trimmed

end LintCorpus.Text
