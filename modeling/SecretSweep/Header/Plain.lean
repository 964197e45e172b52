import SecretSweep.Header.EncodedWord

/-!
Headers without structure: words and blanks, some of the words encoded. Blanks between two encoded
words are part of neither and are left out.
-/

namespace SecretSweep.Header

inductive Piece where
  | blank (s : List Char)
  | word (s : List Char)
  | decoded (s : List Char)
  deriving DecidableEq, Repr

namespace Piece

def text : Piece → List Char
  | .blank s | .word s | .decoded s => s

def joined : List Piece → List Char
  | .decoded a :: .blank _ :: .decoded b :: rest => a ++ joined (.decoded b :: rest)
  | p :: rest => p.text ++ joined rest
  | [] => []

end Piece

/-- Whether a text holds the end of an encoded word on the line where it begins. -/
def endsOnLine : List Char → Bool
  | '?' :: '=' :: _ => true
  | '\n' :: _ => false
  | _ :: rest => endsOnLine rest
  | [] => false

/-- Whether an encoded word begins a text, as far as its outline goes. -/
def hasOutline : List Char → Bool
  | '=' :: '?' :: rest =>
    match rest.dropWhile (· != '?') with
    | '?' :: e :: '?' :: body => "qQbB".toList.contains e && endsOnLine body
    | _ => false
  | _ => false

/-- Whether an encoded word begins somewhere in a text. -/
def holdsOutline : List Char → Bool
  | [] => false
  | c :: rest => hasOutline (c :: rest) || holdsOutline rest

/-- The text up to where the next encoded word may begin. -/
def beforeMark : List Char → List Char
  | '=' :: '?' :: _ => []
  | c :: rest => c :: beforeMark rest
  | [] => []

/-- The word that begins a text. An encoded word need not be set off by blanks. -/
def plainWord (s : List Char) (splits : Bool) : List Char :=
  let word := s.takeWhile (!isSpace ·)
  if splits && holdsOutline word then beforeMark s else word

/-- The pieces of a header; `fuel` bounds how many. -/
def readPieces : (fuel : Nat) → List Char → List Piece
  | 0, _ => []
  | _ + 1, [] => []
  | fuel + 1, c :: rest =>
    let s := c :: rest
    if isSpace c then
      .blank (s.takeWhile Text.isBlank) :: readPieces fuel (s.dropWhile Text.isBlank)
    else match readWord s with
      | .word text after => .decoded text :: readPieces fuel after
      | reading =>
        let word := plainWord s (reading ≠ .malformed)
        .word word :: readPieces fuel (s.drop word.length)

/-- The text that a header without structure stands for. -/
def plainText (s : List Char) : List Char := Piece.joined (readPieces s.length s)

end SecretSweep.Header
