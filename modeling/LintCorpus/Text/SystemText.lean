import LintCorpus.Text.Utf8

/-!
Texts as the system holds them. To the system a name, an argument or a variable is a sequence of
bytes, which need not be UTF-8. A byte that is part of no character is read as one of the 128
surrogates from U+DC80 on, and these stand for that byte when a text is handed to the system.
-/
namespace LintCorpus.SystemText

/-- Whether a code point stands for a single byte. -/
def isEscape (c : Nat) : Bool := 0xDC80 ≤ c && c ≤ 0xDCFF

def escape (b : UInt8) : Nat := 0xDC00 + b.toNat

def encodeOne (c : Nat) : Bytes :=
  if isEscape c then [UInt8.ofNat (c - 0xDC00)] else Utf8.encodeOne c

/-- The bytes of a text; surrogates that stand for no byte are written like other code points. -/
def bytes (t : Text) : Bytes := t.flatMap encodeOne

def firstFault? (t : Text) : Option Utf8.Unencodable :=
  let start := t.takeWhile fun c => isEscape c || !Text.isSurrogate c
  let rest := t.drop start.length
  if rest.isEmpty then none else some ⟨start.length, rest.takeWhile Text.isSurrogate⟩

def encode (t : Text) : Except Utf8.Unencodable Bytes :=
  match firstFault? t with
  | none => .ok (bytes t)
  | some fault => .error fault

def complete? : Utf8.Pending → Bytes → Option Nat
  | _, [] => none
  | p, b :: rest =>
    if p.accepts b.toNat then
      match p.extend b.toNat with
      | .complete c => some c
      | .begins q => complete? q rest
      | .nothing => none
    else none

/-- The text of bytes, of which the first `skipped` have been read already. -/
def decodeFrom : Nat → Bytes → Text
  | _, [] => []
  | skipped + 1, _ :: rest => decodeFrom skipped rest
  | 0, b :: rest =>
    match Utf8.opening b.toNat with
    | .complete c => c :: decodeFrom 0 rest
    | .nothing => escape b :: decodeFrom 0 rest
    | .begins p =>
      match complete? p rest with
      | some c => c :: decodeFrom p.missing rest
      | none => escape b :: decodeFrom 0 rest

def decode (bytes : Bytes) : Text := decodeFrom 0 bytes

/-- The text that the system gives back for a name. -/
def canonical (t : Text) : Text := if t.any isEscape then decode (bytes t) else t

end LintCorpus.SystemText
