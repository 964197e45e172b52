import SecretSweep.Text.Quoted

/-!
UTF-8: encoding of characters, and decoding that either replaces each faulty part by U+FFFD or
names the first one. A faulty part is the longest start of a sequence that could still have become
a character, or a single byte if there is none.
-/

namespace SecretSweep.Text.Utf8

def encodeChar (c : Char) : List UInt8 :=
  let n := c.toNat
  if n < 0x80 then [n.toUInt8]
  else if n < 0x800 then [(0xC0 + n / 0x40).toUInt8, (0x80 + n % 0x40).toUInt8]
  else if n < 0x10000 then
    [(0xE0 + n / 0x1000).toUInt8, (0x80 + n / 0x40 % 0x40).toUInt8, (0x80 + n % 0x40).toUInt8]
  else
    [(0xF0 + n / 0x40000).toUInt8, (0x80 + n / 0x1000 % 0x40).toUInt8,
     (0x80 + n / 0x40 % 0x40).toUInt8, (0x80 + n % 0x40).toUInt8]

def encode (s : List Char) : List UInt8 := s.flatMap encodeChar

inductive Fault where
  | invalidStart
  | invalidContinuation
  | unexpectedEnd
  deriving DecidableEq, Repr

/-- What a first byte asks for: how many bytes follow, the range of the first of them, and the
payload of the first byte. -/
structure Lead where
  more : Nat
  low : Nat
  high : Nat
  payload : Nat

def lead? (b : Nat) : Option Lead :=
  if b < 0x80 then some ⟨0, 0, 0, b⟩
  else if b < 0xC2 then none
  else if b < 0xE0 then some ⟨1, 0x80, 0xBF, b - 0xC0⟩
  else if b = 0xE0 then some ⟨2, 0xA0, 0xBF, 0⟩
  else if b = 0xED then some ⟨2, 0x80, 0x9F, 0xD⟩
  else if b < 0xF0 then some ⟨2, 0x80, 0xBF, b - 0xE0⟩
  else if b = 0xF0 then some ⟨3, 0x90, 0xBF, 0⟩
  else if b < 0xF4 then some ⟨3, 0x80, 0xBF, b - 0xF0⟩
  else if b = 0xF4 then some ⟨3, 0x80, 0x8F, 4⟩
  else none

/-- A character or a faulty part, with the number of its bytes. -/
inductive Piece where
  | char (c : Char) (size : Nat)
  | fault (f : Fault) (size : Nat)
  deriving Repr

def Piece.size : Piece → Nat
  | .char _ n => n
  | .fault _ n => n

/-- Reads `more` further bytes, the first of them between `low` and `high`; `size` counts the bytes
read so far. -/
def readMore : (more low high payload size : Nat) → List UInt8 → Piece
  | 0, _, _, payload, size, _ => .char (Char.ofNat payload) size
  | _ + 1, _, _, _, size, [] => .fault .unexpectedEnd size
  | more + 1, low, high, payload, size, b :: rest =>
    if low ≤ b.toNat ∧ b.toNat ≤ high then
      readMore more 0x80 0xBF (payload * 0x40 + b.toNat % 0x40) (size + 1) rest
    else .fault .invalidContinuation size

def piece (b : UInt8) (rest : List UInt8) : Piece :=
  match lead? b.toNat with
  | none => .fault .invalidStart 1
  | some l => readMore l.more l.low l.high l.payload 1 rest

/-- The bytes cut into characters and faulty parts. -/
def pieces : List UInt8 → List Piece
  | [] => []
  | b :: rest => piece b rest :: pieces (rest.drop ((piece b rest).size - 1))
termination_by bytes => bytes.length
decreasing_by simp only [List.length_drop, List.length_cons]; omega

/-- Decodes bytes, writing U+FFFD for each faulty part. -/
def decodeReplacing (bytes : List UInt8) : List Char :=
  (pieces bytes).map fun
    | .char c _ => c
    | .fault _ _ => '\uFFFD'

structure DecodeError where
  fault : Fault
  first : UInt8
  position : Nat
  size : Nat
  deriving DecidableEq, Repr

/-- Decodes bytes that hold no faulty part. -/
def decode (bytes : List UInt8) : Except DecodeError (List Char) :=
  go 0 (pieces bytes)
where
  go (position : Nat) : List Piece → Except DecodeError (List Char)
    | [] => .ok []
    | .char c size :: rest => do return c :: (← go (position + size) rest)
    | .fault f size :: _ => .error ⟨f, bytes.getD position 0, position, size⟩

def Fault.message : Fault → String
  | .invalidStart => "invalid start byte"
  | .invalidContinuation => "invalid continuation byte"
  | .unexpectedEnd => "unexpected end of data"

def DecodeError.message (e : DecodeError) : String :=
  let place :=
    if e.size = 1 then
      "byte 0x" ++ String.ofList (hex 2 e.first.toNat) ++ " in position " ++ toString e.position
    else
      "bytes in position " ++ toString e.position ++ "-" ++ toString (e.position + e.size - 1)
  "'utf-8' codec can't decode " ++ place ++ ": " ++ e.fault.message

end SecretSweep.Text.Utf8
