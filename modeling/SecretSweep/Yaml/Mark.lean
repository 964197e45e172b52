import SecretSweep.Text.Utf8
import SecretSweep.Yaml.Cursor
import SecretSweep.Yaml.Token

/-!
The marks that stand apart from content: names of anchors and aliases, tags, and directives.
-/

namespace SecretSweep.Yaml.Mark

/-- Reads the name of an anchor or alias, `c` being the place of its sign. -/
def readName (c : Cursor) : Except Fault (String × Cursor) :=
  let (name, c) := c.advance.span isNameChar
  let next := c.peek 0
  if name.isEmpty then .error .malformed
  else if isSpace next || "?:,]\x7d%@`".toList.contains next then .ok (String.ofList name, c)
  else .error .malformed

def isUriChar (c : Char) : Bool := c.isAlphanum || "-;/?:@&=+$,_.!~*'()[]%".toList.contains c

/-- The bytes of percent escapes that stand one behind the other. -/
def escapedBytes : (fuel : Nat) → Cursor → Except Fault (List UInt8 × Cursor)
  | 0, c => .ok ([], c)
  | fuel + 1, c =>
    if c.peek 0 == '%' then
      let digits := c.advance.rest.take 2
      if digits.length = 2 && digits.all isHexDigit then do
        let (more, c) ← escapedBytes fuel (c.skip 3)
        return ((hexValue digits).toUInt8 :: more, c)
      else .error .malformed
    else .ok ([], c)

/-- Text in which percent escapes stand for the bytes of characters. -/
def uriText : (fuel : Nat) → Cursor → Except Fault (List Char × Cursor)
  | 0, c => .ok ([], c)
  | fuel + 1, c =>
    let (text, c) := c.span fun ch => isUriChar ch && ch != '%'
    if c.peek 0 == '%' then do
      let (bytes, c) ← escapedBytes (c.rest.length + 1) c
      let escaped ← (Text.Utf8.decode bytes).mapError fun _ => .malformed
      let (more, c) ← uriText fuel c
      return (text ++ escaped ++ more, c)
    else .ok (text, c)

def readUri (c : Cursor) : Except Fault (String × Cursor) := do
  let (text, next) ← uriText (c.rest.length + 1) c
  if next.index = c.index then .error .malformed else return (String.ofList text, next)

/-- Reads a handle: an exclamation mark, or a name between two. -/
def readHandle (c : Cursor) : Except Fault (String × Cursor) :=
  if c.peek 0 != '!' then .error .malformed
  else if c.peek 1 == ' ' then .ok ("!", c.advance)
  else
    let (name, c) := c.advance.span isNameChar
    if c.peek 0 == '!' then .ok (String.ofList ('!' :: name ++ ['!']), c.advance)
    else .error .malformed

/-- Whether a second exclamation mark follows before the next space. -/
def hasNamedHandle (c : Cursor) : Bool :=
  (c.advance.rest.takeWhile fun ch => !endsToken ch).contains '!'

/-- Reads a tag: its full text in angle brackets, nothing but the mark, or a handle and a rest. -/
def readTag (c : Cursor) : Except Fault (WrittenTag × Cursor) := do
  let (tag, c) ←
    if c.peek 1 == '<' then do
      let (suffix, c) ← readUri (c.skip 2)
      if c.peek 0 == '>' then pure (WrittenTag.mk none suffix, c.advance) else .error .malformed
    else if isSpace (c.peek 1) then pure (⟨none, "!"⟩, c.advance)
    else do
      let (handle, c) ← if hasNamedHandle c then readHandle c else pure ("!", c.advance)
      let (suffix, c) ← readUri c
      pure (⟨some handle, suffix⟩, c)
  if endsToken (c.peek 0) then return (tag, c) else .error .malformed

def readNumber (c : Cursor) : Except Fault (Nat × Cursor) :=
  let (digits, c) := c.span Char.isDigit
  if digits.isEmpty then .error .malformed
  else if Text.maxDecimalDigits < digits.length then
    .error (.integer 10 digits (.tooLong digits.length))
  else .ok (Text.ofDigits 10 (digits.filterMap Text.digitValue?), c)

def spaces (c : Cursor) : Cursor := c.skipWhile (· == ' ')

def readVersion (c : Cursor) : Except Fault (Directive × Cursor) := do
  let (major, c) ← readNumber (spaces c)
  if c.peek 0 != '.' then .error .malformed
  let (_, c) ← readNumber c.advance
  if endsToken (c.peek 0) then return (.version major, c) else .error .malformed

def readTagHandle (c : Cursor) : Except Fault (Directive × Cursor) := do
  let (handle, c) ← readHandle (spaces c)
  if c.peek 0 != ' ' then .error .malformed
  let (expansion, c) ← readUri (spaces c)
  if endsToken (c.peek 0) then return (.tagHandle handle expansion, c) else .error .malformed

/-- Reads a line with a directive, `c` being the place of its percent sign. -/
def readDirective (c : Cursor) : Except Fault (Directive × Cursor) := do
  let (name, c) := c.advance.span isNameChar
  if name.isEmpty || !endsToken (c.peek 0) then .error .malformed
  let (directive, c) ←
    if name = "YAML".toList then readVersion c
    else if name = "TAG".toList then readTagHandle c
    else pure (Directive.other, c.skipWhile (!endsLine ·))
  return (directive, ← c.endLine)

end SecretSweep.Yaml.Mark
