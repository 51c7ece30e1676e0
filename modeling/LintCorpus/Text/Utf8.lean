import LintCorpus.Text.Basic

/-!
UTF-8 read one byte at a time. The reader either replaces every malformed part by U+FFFD or names
the first one. A malformed part is the longest beginning of a well-formed sequence that the
following byte breaks off, or a byte that begins none.
-/
namespace LintCorpus

abbrev Bytes := List UInt8

namespace Utf8

/-- A sequence begun: the bits read, how many bytes are missing, and the range of the next byte. -/
structure Pending where
  value : Nat
  missing : Nat
  low : Nat := 0x80
  high : Nat := 0xBF
deriving DecidableEq, Repr

inductive Opening where
  | complete (c : Nat)
  | begins (p : Pending)
  | nothing

/-- The ranges keep out overlong forms, surrogates and values above U+10FFFF. -/
def opening (b : Nat) : Opening :=
  if b < 0x80 then .complete b
  else if b < 0xC2 then .nothing
  else if b < 0xE0 then .begins { value := b - 0xC0, missing := 1 }
  else if b = 0xE0 then .begins { value := 0, missing := 2, low := 0xA0 }
  else if b = 0xED then .begins { value := 0xD, missing := 2, high := 0x9F }
  else if b < 0xF0 then .begins { value := b - 0xE0, missing := 2 }
  else if b = 0xF0 then .begins { value := 0, missing := 3, low := 0x90 }
  else if b < 0xF4 then .begins { value := b - 0xF0, missing := 3 }
  else if b = 0xF4 then .begins { value := 4, missing := 3, high := 0x8F }
  else .nothing

/-- The sequence after a continuation byte, which completes it if it was the last one missing. -/
def Pending.extend (p : Pending) (b : Nat) : Opening :=
  let value := p.value * 64 + (b - 0x80)
  if p.missing ≤ 1 then .complete value else .begins { value, missing := p.missing - 1 }

def Pending.accepts (p : Pending) (b : Nat) : Bool := p.low ≤ b && b ≤ p.high

def replacement : Nat := 0xFFFD

structure Decoder where
  output : Text := []
  pending : Option Pending := none

namespace Decoder

def put (output : Text) : Opening → Decoder
  | .complete c => { output := c :: output }
  | .begins p => { output, pending := some p }
  | .nothing => { output := replacement :: output }

/-- Reads one byte; a byte that breaks a sequence off begins anew. -/
def step (d : Decoder) (b : UInt8) : Decoder :=
  match d.pending with
  | none => put d.output (opening b.toNat)
  | some p =>
    if p.accepts b.toNat then put d.output (p.extend b.toNat)
    else put (replacement :: d.output) (opening b.toNat)

/-- The text read; an open sequence is malformed. -/
def finish (d : Decoder) : Text :=
  (if d.pending.isSome then replacement :: d.output else d.output).reverse

end Decoder

def decode (bytes : Bytes) : Text := (bytes.foldl Decoder.step {}).finish

inductive Reason where
  | invalidStart
  | invalidContinuation
  | unexpectedEnd
deriving DecidableEq, Repr

/-- The first malformed part: its first byte, where it begins and where it ends. -/
structure Malformed where
  byte : Nat
  start : Nat
  stop : Nat
  reason : Reason
deriving DecidableEq, Repr

structure Checker where
  position : Nat := 0
  pending : Option (Pending × Nat × Nat) := none

namespace Checker

def step (k : Checker) (b : UInt8) : Except Malformed Checker :=
  let place (first start : Nat) : Opening → Except Malformed Checker
    | .complete _ => .ok { position := k.position + 1 }
    | .begins p => .ok { position := k.position + 1, pending := some (p, first, start) }
    | .nothing => .error ⟨b.toNat, k.position, k.position + 1, .invalidStart⟩
  match k.pending with
  | none => place b.toNat k.position (opening b.toNat)
  | some (p, first, start) =>
    if p.accepts b.toNat then place first start (p.extend b.toNat)
    else .error ⟨first, start, k.position, .invalidContinuation⟩

def finish (k : Checker) : Except Malformed Unit :=
  match k.pending with
  | none => .ok ()
  | some (_, first, start) => .error ⟨first, start, k.position, .unexpectedEnd⟩

end Checker

def check (bytes : Bytes) : Except Malformed Unit :=
  bytes.foldlM Checker.step {} >>= Checker.finish

def decodeStrict (bytes : Bytes) : Except Malformed Text := do
  check bytes
  return decode bytes

def Reason.message : Reason → Text
  | .invalidStart => "invalid start byte"
  | .invalidContinuation => "invalid continuation byte"
  | .unexpectedEnd => "unexpected end of data"

def Malformed.message (m : Malformed) : Text :=
  let part : Text :=
    if m.stop ≤ m.start + 1 then
      "byte 0x" ++ Text.hex 2 m.byte ++ " in position " ++ Text.ofNat m.start
    else "bytes in position " ++ Text.ofNat m.start ++ "-" ++ Text.ofNat (m.stop - 1)
  "'utf-8' codec can't decode " ++ part ++ ": " ++ m.reason.message

def encodeOne (c : Nat) : Bytes :=
  let continuation (n : Nat) : UInt8 := UInt8.ofNat (0x80 + n % 64)
  if c < 0x80 then [UInt8.ofNat c]
  else if c < 0x800 then [UInt8.ofNat (0xC0 + c / 64), continuation c]
  else if c < 0x10000 then
    [UInt8.ofNat (0xE0 + c / 4096), continuation (c / 64), continuation c]
  else
    [UInt8.ofNat (0xF0 + c / 262144), continuation (c / 4096), continuation (c / 64),
      continuation c]

def encode (t : Text) : Bytes := t.flatMap encodeOne

/-- The text as it comes back from its bytes: every surrogate has three, of which each stands for
nothing. -/
def scrub (t : Text) : Text := decode (encode t)

def firstSurrogates? (t : Text) : Option (Nat × Text) :=
  let start := t.takeWhile fun c => !Text.isSurrogate c
  let rest := t.drop start.length
  if rest.isEmpty then none else some (start.length, rest.takeWhile Text.isSurrogate)

structure Unencodable where
  place : Nat
  run : Text
deriving DecidableEq, Repr

def encodeStrict (t : Text) : Except Unencodable Bytes :=
  match firstSurrogates? t with
  | none => .ok (encode t)
  | some (place, run) => .error ⟨place, run⟩

def Unencodable.message (u : Unencodable) : Text :=
  let part : Text :=
    match u.run with
    | [c] => "character '\\u" ++ Text.hex 4 c ++ "' in position " ++ Text.ofNat u.place
    | run => "characters in position " ++ Text.ofNat u.place ++ "-" ++
        Text.ofNat (u.place + run.length - 1)
  "'utf-8' codec can't encode " ++ part ++ ": surrogates not allowed"

end Utf8
end LintCorpus
