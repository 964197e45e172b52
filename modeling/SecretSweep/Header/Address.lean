import SecretSweep.Header.Mark

/-!
Headers that hold addresses: mailboxes and groups of mailboxes with commas between them. What is no
address is kept as one that says nothing, but a header is refused that ends in the middle of an
address or of brackets, that goes on after the end of a group, or that has names which are a blank
or have a point at an end.
-/

namespace SecretSweep.Header

/-- A mailbox. What is missing is empty. -/
structure Mailbox where
  display : List Mark
  localPart : List Mark
  domain : List Char
  deriving DecidableEq, Repr

inductive Address where
  | mailbox (m : Mailbox)
  /-- A group. It is `overrun` if something stands between its end and the next comma. -/
  | group (display : List Mark) (members : List Mailbox) (overrun : Bool)
  deriving DecidableEq, Repr

inductive AddressFault where
  /-- It ends where an address has to go on. -/
  | endsEarly
  | afterGroup
  /-- A part of an address would take more than one line. -/
  | breaks
  /-- It ends in the brackets of a domain. -/
  | openBracket
  /-- It ends in the brackets of a domain, of which there is nothing but blanks. -/
  | blankBracket
  /-- A name begins or ends with a point. -/
  | pointAtEnd
  /-- A name before an address begins with a point that has a gap before it. -/
  | pointAfterGap
  /-- A name is a gap, or a local part an empty word. -/
  | blank
  deriving DecidableEq, Repr

/-- What is found at the start of some marks, if it is there, and the marks after it. -/
abbrev Found (α : Type) := Option (α × List Mark)

/-- The mailbox that something unreadable stands for. -/
def Mailbox.empty : Mailbox := ⟨[], [], []⟩

def skipBlanks (s : List Char) : List Char :=
  if s.head?.any isSpace then s.dropWhile Text.isBlank else s

/-- What stands in the brackets of a domain, and what follows them. -/
def readBracket (source : List Char) : Except AddressFault (Option (List Char × List Char)) :=
  let inner := skipBlanks source
  if source.isEmpty then .error .openBracket
  else if inner.isEmpty then .error .blankBracket
  else
    let (text, after) := upTo (fun c => c == '[' || c == ']' || isSpace c) inner
    match skipBlanks after with
    | [] => .error .openBracket
    | ']' :: rest => .ok (some (text, rest))
    | _ => .ok none

/-- The words of a domain, with points between them. No at sign may follow if it `isTight`, so that
no gap stands beside a point. -/
def readLabels (isTight : Bool) : List Mark → Found (List Char)
  | .atom s :: rest =>
    match _h : dropGap rest with
    | .special '.' :: more =>
      let isTight := isTight && rest.head? != some .gap && more.head? != some .gap
      (readLabels isTight (dropGap more)).map fun (t, after) => (s ++ '.' :: t, after)
    | after => if isTight && after.head? = some (.special '@') then none else some (s, after)
  | _ => none
termination_by l => l.length
decreasing_by
  have := length_dropGap_le rest
  have := length_dropGap_le more
  simp_all
  omega

/-- Reads a domain. -/
def readDomain (l : List Mark) : Except AddressFault (Found (List Char)) :=
  match dropGap l with
  | .bracket source :: _ => do
    return (← readBracket source).map fun (text, rest) =>
      ('[' :: text ++ [']'], dropGap (readMarks rest.length rest))
  | marks => if l.isEmpty then .error .endsEarly else .ok (readLabels true marks)

/-- Reads an address without a name. The domain may be missing; it holds no blanks. -/
def readPlain (l : List Mark) : Except AddressFault (Found Mailbox) := do
  let localPart := trimGaps (l.takeWhile Mark.isOfLocalPart)
  let rest := l.dropWhile Mark.isOfLocalPart
  if localPart.isEmpty then return none
  else match rest with
    | .special '@' :: rest =>
      return (← readDomain rest).map fun (domain, rest) =>
        (⟨[], localPart, domain.filter (!Text.isBlank ·)⟩, rest)
    | _ => return some (⟨[], localPart, []⟩, rest)

/-- What follows a domain on the way to an address. Brackets that do not end are no domain there. -/
def pastDomain (l : List Mark) : Except AddressFault (Option (List Mark)) :=
  match readDomain l with
  | .ok found => .ok (found.map Prod.snd)
  | .error .openBracket => .ok none
  | .error fault => .error fault

/-- What follows more domains of the way, each behind a comma, and a colon. `fuel` bounds how many
there are. -/
def pastDomains : (fuel : Nat) → List Mark → Except AddressFault (Option (List Mark))
  | _ + 1, [.special ',', .gap] => .error .endsEarly
  | fuel + 1, .special ',' :: rest => do
    match dropGap rest with
    | .special '@' :: rest =>
      match ← pastDomain rest with
      | some rest => pastDomains fuel rest
      | none => return none
    | rest => pastDomains fuel rest
  | _ + 1, .special ':' :: rest => .ok (some rest)
  | _, _ => .ok none

/-- What follows the way to an address: domains, with commas between them, and a colon. -/
def pastRoute (l : List Mark) : Except AddressFault (Option (List Mark)) := do
  match l.dropWhile fun m => m == .gap || m == .special ',' with
  | .special '@' :: rest =>
    match ← pastDomain rest with
    | some rest => pastDomains (rest.length + 1) rest
    | none => return none
  | _ => return none

/-- Reads an address without a name that a way may lead to. -/
def readRouted (l : List Mark) : Except AddressFault (Found Mailbox) := do
  match ← readPlain l with
  | some found => return some found
  | none =>
    match ← pastRoute l with
    | some [] => throw .endsEarly
    | some rest => readPlain rest
    | none => return none

/-- Reads an address in angle brackets, the first of which has been read. The last may be
missing. -/
def readAngle (display : List Mark) (l : List Mark) : Except AddressFault (Found Mailbox) := do
  match l with
  | [] => throw .endsEarly
  | .special '>' :: rest => return some (⟨display, [], []⟩, rest)
  | _ =>
    return (← readRouted l).map fun (m, rest) =>
      ({ m with display }, if rest.head? = some (.special '>') then rest.drop 1 else rest)

/-- The name before an address or before the members of a group. -/
def phraseOf (l : List Mark) : List Mark × List Mark :=
  (l.takeWhile Mark.isOfPhrase, l.dropWhile Mark.isOfPhrase)

def readMailbox (l : List Mark) : Except AddressFault (Found Mailbox) := do
  let (display, rest) := phraseOf l
  if (display.take 2 = [.gap, .special '.']) ∧ rest ≠ [] then throw .pointAfterGap
  match rest with
  | .special '<' :: inner =>
    match ← readAngle (dropGap display) inner with
    | some found => return some found
    | none => readPlain l
  | _ => readPlain l

def isComma (m : Mark) : Bool := m == .special ','

def isSemicolon (m : Mark) : Bool := m == .special ';'

/-- One entry of a list up to a mark at which entries end: a mailbox, one that says nothing, or
nothing at all where only a gap stands. -/
def readEntry (l : List Mark) (ends : Mark → Bool) :
    Except AddressFault (Option Mailbox × List Mark) := do
  match ← readMailbox l with
  | some (m, rest) => return (some m, rest.dropWhile (!ends ·))
  | none =>
    let rest := l.dropWhile (· == .gap)
    if rest.isEmpty || rest.head?.any ends then return (none, rest)
    else return (some .empty, rest.dropWhile (!ends ·))

/-- The mailboxes of a group and what follows it; `fuel` bounds how many. A gap after the end of the
group belongs to it. -/
def readMembers : (fuel : Nat) → List Mark → Except AddressFault (List Mailbox × List Mark)
  | 0, l => .ok ([], l)
  | _ + 1, [] => .ok ([], [])
  | _ + 1, .special ';' :: rest => .ok ([], dropGap rest)
  | fuel + 1, l => do
    let (entry, rest) ← readEntry l fun m => isComma m || isSemicolon m
    let (more, rest) ← readMembers fuel (if rest.head?.any isComma then rest.drop 1 else rest)
    return (entry.toList ++ more, rest)

/-- Reads a group behind its colon. No gap belongs to a group of nothing at all. -/
def readGroup (l : List Mark) : Except AddressFault (List Mailbox × List Mark) :=
  match l with
  | .special ';' :: rest => .ok ([], rest)
  | _ => readMembers (l.length + 1) (dropGap l)

/-- Reads one entry of a header and drops what follows it up to the next comma. -/
def readAddress (l : List Mark) : Except AddressFault (Option Address × List Mark) := do
  let (display, rest) := phraseOf l
  match rest with
  | .special ':' :: inner =>
    let (members, rest) ← readGroup inner
    let overrun := !rest.isEmpty && !rest.head?.any isComma
    return (some (.group display members overrun), rest.dropWhile (!isComma ·))
  | _ =>
    let (entry, rest) ← readEntry l isComma
    return (entry.map .mailbox, rest)

def readAddresses : (fuel : Nat) → List Mark → Except AddressFault (List Address)
  | 0, _ => .ok []
  | _ + 1, [] => .ok []
  | fuel + 1, l => do
    let (entry, rest) ← readAddress l
    return entry.toList
      ++ (← readAddresses fuel (if rest.head?.any isComma then rest.drop 1 else rest))

/-- Text between double quotes, with a backslash before each quote and backslash in it. -/
def inQuotes (s : List Char) : List Char :=
  '"' :: (s.flatMap fun c => if c = '"' ∨ c = '\\' then ['\\', c] else [c]) ++ ['"']

/-- A name as it is written: in quotes if it holds a special character. -/
def displayText (s : List Char) : List Char := if s.any isSpecial then inQuotes s else s

/-- The text of a name. -/
def nameText (l : List Mark) : List Char := marksText (trimGaps l)

/-- What is wrong with a name. A gap that ends it is not counted with it, nor is one that begins it,
unless it has nothing else. -/
def nameFault? (l : List Mark) : Option AddressFault :=
  if l.head? = some (.special '.') ∨ l.getLast? = some (.special '.') then some .pointAtEnd
  else if l = [.gap] then some .blank
  else none

namespace Mailbox

def localText (m : Mailbox) : List Char := marksText (tighten m.localPart)

def plain (m : Mailbox) : List Char :=
  let before := if m.localText.any fun c => (isSpecial c || isSpace c) && c != '.' then
      inQuotes m.localText else m.localText
  if !m.domain.isEmpty then before ++ '@' :: m.domain
  else if before.isEmpty then ['<', '>']
  else before

def text (m : Mailbox) : List Char :=
  if (nameText m.display).isEmpty then m.plain
  else
    let inner := if m.plain = ['<', '>'] then [] else m.plain
    displayText (nameText m.display) ++ ' ' :: '<' :: inner ++ ['>']

/-- Whether a part of a mailbox would take more than one line. -/
def breaks (m : Mailbox) : Bool :=
  (nameText m.display ++ m.localText ++ m.domain).any fun c => c == '\r' || c == '\n'

def fault? (m : Mailbox) : Option AddressFault :=
  (nameFault? m.display).or <|
    if m.localPart = [.lastQuote] ∨ m.localPart = [.atom []] then some .blank
    else if m.breaks then some .breaks
    else none

end Mailbox

namespace Address

def fault? : Address → Option AddressFault
  | .mailbox m => m.fault?
  | .group display members overrun =>
    (nameFault? display).or <|
      if overrun then some .afterGroup else members.findSome? Mailbox.fault?

def text : Address → List Char
  | .mailbox m => m.text
  | .group display members _ =>
    displayText (nameText display) ++ ':' ::
      (if members.isEmpty then [] else ' ' :: Text.join [',', ' '] (members.map Mailbox.text))
      ++ [';']

end Address

/-- The addresses of a header. Of several faults in its entries the first one counts. -/
def addressesOf (s : List Char) : Except AddressFault (List Address) := do
  let marks := readMarks s.length s
  let addresses ← readAddresses (marks.length + 1) marks
  match addresses.findSome? Address.fault? with
  | some fault => throw fault
  | none => return addresses

/-- The text that a header with addresses stands for. -/
def addressText (l : List Address) : List Char := Text.join [',', ' '] (l.map Address.text)

end SecretSweep.Header
