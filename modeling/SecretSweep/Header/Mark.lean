import SecretSweep.Header.Plain

/-!
The marks of which headers with addresses are made. Comments and blanks carry no meaning, except
that words have at most one space between them.
-/

namespace SecretSweep.Header

/-- A part of a header with addresses. Blanks and comments in a row are one `gap`. -/
inductive Mark where
  | gap
  | atom (s : List Char)
  | quoted (s : List Char)
  /-- A double quote at the very end. -/
  | lastQuote
  | special (c : Char)
  /-- An opening bracket and the text behind it, which has a form of its own where the bracket
  begins a domain. -/
  | bracket (source : List Char)
  deriving DecidableEq, Repr

def isSpecial (c : Char) : Bool := "()<>@,:;.\\\"[]".toList.contains c

def isAtomChar (c : Char) : Bool := !isSpecial c && !isSpace c

/-- What follows a comment; `depth` counts the comments around what is read. -/
def afterComment : (depth : Nat) → List Char → List Char
  | 0, s => s
  | _ + 1, [] => []
  | depth + 1, '\\' :: _ :: rest => afterComment (depth + 1) rest
  | depth + 1, '(' :: rest => afterComment (depth + 2) rest
  | depth + 1, ')' :: rest => afterComment depth rest
  | depth + 1, _ :: rest => afterComment (depth + 1) rest

/-- The text up to a character at which it ends, and the rest. A backslash stands before a character
that is meant as such. -/
def upTo (ends : Char → Bool) : List Char → List Char × List Char
  | [] => ([], [])
  | ['\\'] => ([], [])
  | '\\' :: c :: rest =>
    if isSpace c then upTo ends (c :: rest)
    else let (s, after) := upTo ends rest; (c :: s, after)
  | c :: rest =>
    if ends c then ([], c :: rest)
    else let (s, after) := upTo ends rest; (c :: s, after)

/-- The pieces of a text in double quotes, the first of which has been read, and what follows it.
The last may be missing. `fuel` bounds how many pieces there are. -/
def readQuoted : (fuel : Nat) → List Char → List Piece × List Char
  | 0, s => ([], s)
  | _ + 1, [] => ([], [])
  | fuel + 1, c :: rest =>
    let s := c :: rest
    if c = '"' then ([], rest)
    else
      let (piece, after) :=
        if isSpace c then (.blank (s.takeWhile Text.isBlank), s.dropWhile Text.isBlank)
        else match readWord s with
          | .word text after => (.decoded text, after)
          | _ => let (text, after) := upTo (fun c => c == '"' || isSpace c) s; (.word text, after)
      let (more, after) := readQuoted fuel after
      (piece :: more, after)

/-- Adds a gap in front, unless there is one. -/
def consGap : List Mark → List Mark
  | .gap :: rest => .gap :: rest
  | rest => .gap :: rest

/-- The marks of a header; `fuel` bounds how many. -/
def readMarks : (fuel : Nat) → List Char → List Mark
  | 0, _ => []
  | _ + 1, [] => []
  | fuel + 1, c :: rest =>
    let s := c :: rest
    if isSpace c then consGap (readMarks fuel (s.dropWhile Text.isBlank))
    else if c = '(' then consGap (readMarks fuel (afterComment 1 rest))
    else if c = '"' then
      if rest.isEmpty then [.lastQuote]
      else
        let (pieces, after) := readQuoted rest.length rest
        .quoted (Piece.joined pieces) :: readMarks fuel after
    else if c = '[' then .bracket rest :: readMarks fuel rest
    else if isSpecial c then .special c :: readMarks fuel rest
    else match readWord s with
      | .word text after => .atom text :: readMarks fuel after
      | _ => .atom (s.takeWhile isAtomChar) :: readMarks fuel (s.dropWhile isAtomChar)

/-- Whether a mark can stand in a name: words, points and gaps can. -/
def Mark.isOfPhrase : Mark → Bool
  | .gap | .atom _ | .quoted _ | .lastQuote => true
  | .special c => c == '.'
  | .bracket _ => false

/-- Whether a mark can stand before the sign of an address. -/
def Mark.isOfLocalPart (m : Mark) : Bool := m.isOfPhrase || m == .special '\\'

def Mark.text : Mark → List Char
  | .gap => [' ']
  | .atom s | .quoted s => s
  | .lastQuote => []
  | .special c => [c]
  | .bracket _ => ['[']

/-- Marks without the gaps at the ends. -/
def trimGaps (l : List Mark) : List Mark :=
  ((l.dropWhile (· == .gap)).reverse.dropWhile (· == .gap)).reverse

/-- Marks without the gaps beside points and between other marks that are no words. -/
def tighten : List Mark → List Mark
  | .gap :: .special '.' :: rest => tighten (.special '.' :: rest)
  | .special '.' :: .gap :: rest => tighten (.special '.' :: rest)
  | .special c :: .gap :: .special d :: rest => tighten (.special c :: .special d :: rest)
  | m :: rest => m :: tighten rest
  | [] => []
termination_by l => l.length

def marksText (l : List Mark) : List Char := l.flatMap Mark.text

def dropGap : List Mark → List Mark
  | .gap :: rest => rest
  | rest => rest

theorem length_dropGap_le (l : List Mark) : (dropGap l).length ≤ l.length := by
  unfold dropGap
  split <;> simp

end SecretSweep.Header
