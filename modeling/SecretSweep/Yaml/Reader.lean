import SecretSweep.Yaml.Block
import SecretSweep.Yaml.Mark
import SecretSweep.Yaml.Plain
import SecretSweep.Yaml.Quoted

/-!
From text to tokens. Two things need memory: the columns of the open block collections, whose ends
become tokens, and the place where a key may have started, since a key is known as such only when
its colon is found. Such a key stands on one line and has at most 1024 characters.
-/

namespace SecretSweep.Yaml

/-- A place where a key may have started. -/
structure KeyStart where
  /-- How many tokens stand before it. -/
  token : Nat
  /-- Nothing but a key can stand there. -/
  required : Bool
  index : Nat
  line : Nat
  column : Nat
  deriving DecidableEq, Repr

structure Reader where
  cursor : Cursor
  tokens : Array Token
  /-- The column of the innermost block collection, or -1 outside of all. -/
  indent : Int
  outerIndents : List Int
  keyStart : Option KeyStart
  /-- The places where a key may have started outside of each open bracket, innermost first. -/
  outerKeyStarts : List (Option KeyStart)
  keyAllowed : Bool
  deriving Repr

namespace Reader

def start (text : List Char) : Reader :=
  { cursor := .start text, tokens := #[], indent := -1, outerIndents := [], keyStart := none,
    outerKeyStarts := [], keyAllowed := true }

def inFlow (r : Reader) : Bool := !r.outerKeyStarts.isEmpty

def push (r : Reader) (t : Token) : Reader := { r with tokens := r.tokens.push t }

/-- A key that has to be one but got no colon is a fault. -/
def forgetKey (r : Reader) : Except Fault Reader :=
  if r.keyStart.any (·.required) then .error .malformed else .ok { r with keyStart := none }

def isStale (c : Cursor) (k : KeyStart) : Bool := k.line != c.line || c.index - k.index > 1024

/-- Forgets the keys that can no longer get a colon. -/
def forgetStaleKeys (r : Reader) : Except Fault Reader :=
  let stale (k : Option KeyStart) : Bool := k.any (isStale r.cursor)
  let fresh (k : Option KeyStart) : Option KeyStart := if stale k then none else k
  if (r.keyStart :: r.outerKeyStarts).any fun k => stale k && k.any (·.required) then
    .error .malformed
  else .ok { r with keyStart := fresh r.keyStart, outerKeyStarts := r.outerKeyStarts.map fresh }

def noteKey (r : Reader) : Except Fault Reader :=
  if r.keyAllowed then do
    let c := r.cursor
    let required := !r.inFlow && r.indent == (c.column : Int)
    let r ← r.forgetKey
    return { r with keyStart := some ⟨r.tokens.size, required, c.index, c.line, c.column⟩ }
  else .ok r

def closeBlocks (column : Int) : (outer : List Int) → Reader → Reader
  | [], r => r
  | indent :: outer, r =>
    if column < r.indent then
      closeBlocks column outer { r.push .blockEnd with indent, outerIndents := outer }
    else r

/-- Ends the block collections that are indented further than `column`. -/
def unindent (column : Int) (r : Reader) : Reader :=
  if r.inFlow then r else closeBlocks column r.outerIndents r

/-- Begins a block collection at `column` unless the innermost one stands there. Its token is put
behind the first `place` tokens. -/
def openBlock (column : Nat) (place : Nat) (t : Token) (r : Reader) : Reader :=
  if r.indent < (column : Int) then
    { r with
      indent := column
      outerIndents := r.indent :: r.outerIndents
      tokens := r.tokens.insertIdxIfInBounds place t }
  else r

/-- Moves over white space and comments. In block context a key may start on a new line. -/
def skipSpace : (fuel : Nat) → Reader → Reader
  | 0, r => r
  | fuel + 1, r =>
    let c := r.cursor.skipWhile (· == ' ')
    let c := if c.peek 0 == '#' then c.skipWhile (!endsLine ·) else c
    match c.lineBreak? with
    | none => { r with cursor := c }
    | some (_, c) => skipSpace fuel { r with cursor := c, keyAllowed := r.keyAllowed || !r.inFlow }

def toNextToken (r : Reader) : Reader :=
  let c := r.cursor
  let c := if c.index = 0 ∧ c.peek 0 = '\uFEFF' then c.advance else c
  skipSpace (c.rest.length + 1) { r with cursor := c }

/-- A token of `n` characters that has been found here. -/
def take (n : Nat) (t : Token) (r : Reader) : Reader :=
  { r.push t with cursor := r.cursor.skip n }

def readEnd (r : Reader) : Except Fault Reader := do
  let r ← (r.unindent (-1)).forgetKey
  return { r.push .streamEnd with keyAllowed := false }

def readDirective (r : Reader) : Except Fault Reader := do
  let r ← (r.unindent (-1)).forgetKey
  let (directive, c) ← Mark.readDirective r.cursor
  return { r.push (.directive directive) with keyAllowed := false, cursor := c }

def readDocumentMark (t : Token) (r : Reader) : Except Fault Reader := do
  let r ← (r.unindent (-1)).forgetKey
  return { r with keyAllowed := false }.take 3 t

def openBracket (t : Token) (r : Reader) : Except Fault Reader := do
  let r ← r.noteKey
  return { r with
    keyStart := none, outerKeyStarts := r.keyStart :: r.outerKeyStarts, keyAllowed := true }.take 1 t

def closeBracket (t : Token) (r : Reader) : Except Fault Reader := do
  let r ← r.forgetKey
  return { r with
    keyStart := r.outerKeyStarts.headD none
    outerKeyStarts := r.outerKeyStarts.drop 1
    keyAllowed := false }.take 1 t

def readFlowEntry (r : Reader) : Except Fault Reader := do
  let r ← { r with keyAllowed := true }.forgetKey
  return r.take 1 .flowEntry

def readBlockEntry (r : Reader) : Except Fault Reader := do
  if !r.inFlow && !r.keyAllowed then .error .malformed
  let r := if r.inFlow then r
    else r.openBlock r.cursor.column r.tokens.size .blockSequenceStart
  let r ← { r with keyAllowed := true }.forgetKey
  return r.take 1 .blockEntry

def readKey (r : Reader) : Except Fault Reader := do
  if !r.inFlow && !r.keyAllowed then .error .malformed
  let r := if r.inFlow then r
    else r.openBlock r.cursor.column r.tokens.size .blockMappingStart
  let r ← { r with keyAllowed := !r.inFlow }.forgetKey
  return r.take 1 .key

/-- Reads a colon. It makes a key of what may have been one; otherwise the key is empty. -/
def readValue (r : Reader) : Except Fault Reader := do
  match r.keyStart with
  | some k =>
    let r := { r with
      keyStart := none, keyAllowed := false, tokens := r.tokens.insertIdxIfInBounds k.token .key }
    let r := if r.inFlow then r else r.openBlock k.column k.token .blockMappingStart
    return r.take 1 .value
  | none =>
    if !r.inFlow && !r.keyAllowed then .error .malformed
    let r := if r.inFlow then r
      else r.openBlock r.cursor.column r.tokens.size .blockMappingStart
    return { r with keyAllowed := !r.inFlow }.take 1 .value

/-- A token that may be a key: it is read by `read` and turned into a token by `make`. -/
def readContent {α : Type} (read : Cursor → Except Fault (α × Cursor)) (make : α → Token)
    (r : Reader) : Except Fault Reader := do
  let r ← r.noteKey
  let (found, c) ← read r.cursor
  return { r.push (make found) with keyAllowed := false, cursor := c }

def readBlockScalar (r : Reader) : Except Fault Reader := do
  let r ← { r with keyAllowed := true }.forgetKey
  let (text, c) ← Block.read r.indent r.cursor
  return { r.push (.scalar false (String.ofList text)) with cursor := c }

def readPlain (r : Reader) : Except Fault Reader := do
  let r ← r.noteKey
  let found := Plain.read r.inFlow (r.indent + 1) r.cursor
  return { r.push (.scalar true (String.ofList found.text)) with
    keyAllowed := found.lineEnded, cursor := found.next }

/-- Characters that have a meaning of their own at the start of a token. -/
def isIndicator (c : Char) : Bool := "-?:,[]\x7b\x7d#&*!|>'\"%@`".toList.contains c

def startsPlain (r : Reader) : Bool :=
  let c := r.cursor.peek 0
  (!isSpace c && !isIndicator c) ||
    (!isSpace (r.cursor.peek 1) && (c == '-' || (!r.inFlow && (c == '?' || c == ':'))))

def readToken (r : Reader) : Except Fault Reader :=
  let c := r.cursor
  let ch := c.peek 0
  let apart := isSpace (c.peek 1)
  if c.rest.isEmpty then r.readEnd
  else if ch == '%' && c.column == 0 then r.readDirective
  else if c.column == 0 && c.hasMark ['-', '-', '-'] then r.readDocumentMark .documentStart
  else if c.column == 0 && c.hasMark ['.', '.', '.'] then r.readDocumentMark .documentEnd
  else if ch == '[' then r.openBracket .flowSequenceStart
  else if ch == '{' then r.openBracket .flowMappingStart
  else if ch == ']' then r.closeBracket .flowSequenceEnd
  else if ch == '}' then r.closeBracket .flowMappingEnd
  else if ch == ',' then r.readFlowEntry
  else if ch == '-' && apart then r.readBlockEntry
  else if ch == '?' && (r.inFlow || apart) then r.readKey
  else if ch == ':' && (r.inFlow || apart) then r.readValue
  else if ch == '*' then r.readContent Mark.readName .alias
  else if ch == '&' then r.readContent Mark.readName .anchor
  else if ch == '!' then r.readContent Mark.readTag .tag
  else if (ch == '|' || ch == '>') && !r.inFlow then r.readBlockScalar
  else if ch == '\'' || ch == '"' then
    r.readContent Quoted.read fun text => .scalar false (String.ofList text)
  else if r.startsPlain then r.readPlain
  else .error .malformed

def next (r : Reader) : Except Fault Reader := do
  let r ← r.toNextToken.forgetStaleKeys
  (r.unindent r.cursor.column).readToken

/-- The tokens before the first place where a key may have started. What comes there is known only
when that is settled. -/
def settled (r : Reader) : List Token :=
  let starts := (r.keyStart :: r.outerKeyStarts).filterMap fun k => k.filter (!isStale r.cursor ·)
  r.tokens.toList.take ((starts.map (·.token)).min?.getD r.tokens.size)

def run : (fuel : Nat) → Reader → TokenStream
  | 0, r => ⟨r.tokens.toList, some .malformed⟩
  | fuel + 1, r =>
    match r.next with
    | .error fault => ⟨r.settled, some fault⟩
    | .ok r => if r.tokens.back? = some .streamEnd then ⟨r.tokens.toList, none⟩ else run fuel r

end Reader

/-- The tokens of a text. Every token takes at least one character, the last one excepted. -/
def TokenStream.ofText (text : List Char) : TokenStream :=
  if text.all fun c => printable.has c.toNat then
    (Reader.start text).run (text.length + 1)
  else ⟨[], some .malformed⟩

end SecretSweep.Yaml
