import ProofOfWork.Document.Yaml.Cursor
import ProofOfWork.Text.Unsigned
set_option autoImplicit false

namespace ProofOfWork.Document.Yaml
open Text

/-- How a scalar was written, as far as that matters for what it may be taken for. -/
inductive Style where
  | plain
  | literal
  | quoted
  deriving DecidableEq, Repr

inductive Token where
  | documentStart
  | documentEnd
  | version (major minor : Nat)
  | tagHandle (handle start : List Char)
  | blockSequence
  | blockMapping
  | blockEnd
  | flowSequence
  | flowSequenceEnd
  | flowMapping
  | flowMappingEnd
  | entry
  | comma
  | key
  | value
  | anchor (name : List Char)
  | alias (name : List Char)
  | tag (handle suffix : List Char)
  | scalar (style : Style) (text : List Char)
  deriving DecidableEq, Repr

/-- Blanks and line breaks between two words of a scalar. -/
structure Gap where
  broken : Bool := false
  blanks : List Char := []
  first : List Char := []
  more : List Char := []

def Gap.text (g : Gap) : List Char :=
  if !g.broken then g.blanks
  else if g.first = ['\n'] then (if g.more.isEmpty then [' '] else g.more)
  else g.first ++ g.more

/-- The gap up to the next character that is neither a blank nor a line break. A tab left of `indent`
after a line break is refused. -/
def readGap? (indent : Nat) : Nat → Gap → Cursor → Option (Gap × Cursor)
  | 0, _, _ => none
  | fuel + 1, g, c =>
    match c.rest with
    | [] => some (g, c)
    | x :: _ =>
      if isBlank x then
        if g.broken && c.column < indent && x = '\t' then none
        else
          readGap? indent fuel (if g.broken then g else { g with blanks := g.blanks ++ [x] })
            (c.ahead 1)
      else if isBreak x then
        let (b, next) := c.nextLine
        readGap? indent fuel
          (if g.broken then { g with more := g.more ++ b } else ⟨true, [], b, []⟩) next
      else some (g, c)

/-- Marks with a meaning of their own inside brackets and braces. -/
def isFlowMark (c : Char) : Bool := c = ',' || c = '[' || c = ']' || c = '\x7b' || c = '\x7d'

/-- A word of a plain scalar. A colon ends it before a blank; inside brackets one must not touch the
next mark. -/
def plainWord? (flow : Bool) : List Char → Option (List Char)
  | [] => some []
  | c :: rest =>
    if isBlankOrBreak c then some []
    else if flow && c = ':' && rest.head?.any fun d => isFlowMark d || d = '?' then none
    else if c = ':' && endsWord rest then some []
    else if flow && isFlowMark c then some []
    else (plainWord? flow rest).map (c :: ·)

/-- The words of a plain scalar with the gaps between them, and the gap after the last one. -/
def readPlain? (flow : Bool) (indent : Nat) :
    Nat → List Char → Gap → Cursor → Option (List Char × Gap × Cursor)
  | 0, _, _, _ => none
  | fuel + 1, text, gap, c =>
    if c.atDocumentEdge || c.rest.head? = some '#' then some (text, gap, c)
    else do
      let word ← plainWord? flow c.rest
      let next := c.ahead word.length
      let (text, gap) := if word.isEmpty then (text, gap) else (text ++ gap.text ++ word, {})
      if !(next.atBlank || next.atBreak) then return (text, gap, next)
      let (gap, next) ← readGap? indent (next.rest.length + 1) {} next
      if !flow && next.column < indent then return (text, gap, next)
      readPlain? flow indent fuel text gap next

def charOf? (n : Nat) : Option Char :=
  if (0xD800 ≤ n ∧ n ≤ 0xDFFF) ∨ n > 0x10FFFF then none else some (Char.ofNat n)

/-- The code point that so many digits spell. -/
def readCode? (count : Nat) (text : List Char) : Option Char := do
  let digits := text.take count
  if digits.length < count then none
  else
    let values ← digits.mapM (digitOf? 16)
    charOf? (values.foldl (fun n d => 16 * n + d) 0)

/-- The escapes of one letter, by code point. -/
def shortEscapes : List (Char × Nat) := [
  ('0', 0), ('a', 7), ('b', 8), ('t', 9), ('\t', 9), ('n', 10), ('v', 11), ('f', 12), ('r', 13),
  ('e', 27), (' ', 32), ('"', 34), ('/', 47), ('\\', 92), ('N', 0x85), ('_', 0xA0), ('L', 0x2028),
  ('P', 0x2029)]

/-- The escapes with digits, and how many. -/
def longEscapes : List (Char × Nat) := [('x', 2), ('u', 4), ('U', 8)]

/-- The character that an escape stands for, and the number of characters after the backslash. -/
def escape? (mark : Char) (rest : List Char) : Option (Char × Nat) :=
  match shortEscapes.lookup mark, longEscapes.lookup mark with
  | some n, _ => some (Char.ofNat n, 1)
  | none, some count => (readCode? count rest).map fun c => (c, count + 1)
  | none, none => none

/-- Characters in quotes up to a blank, a line break or the closing quote, and whether they end in an
escaped line break. -/
def readRun? (quote : Char) : Nat → Cursor → Option (List Char × Bool × Cursor)
  | 0, _ => none
  | fuel + 1, c =>
    let keep (x : Char) (count : Nat) := do
      let (text, broken, next) ← readRun? quote fuel (c.ahead count)
      return (x :: text, broken, next)
    match c.rest with
    | [] => some ([], false, c)
    | x :: rest =>
      if isBlankOrBreak x then some ([], false, c)
      else if x = quote then
        if quote ≠ '"' ∧ rest.head? = some quote then keep quote 2 else some ([], false, c)
      else if x = '\\' ∧ quote = '"' then
        match rest with
        | [] => none
        | mark :: rest =>
          if isBreak mark then some ([], true, (c.ahead 1).nextLine.2)
          else do
            let (e, count) ← escape? mark rest
            keep e (count + 1)
      else keep x 1

/-- The text up to a closing quote. -/
def readQuoted? (quote : Char) : Nat → List Char → Cursor → Option (List Char × Cursor)
  | 0, _, _ => none
  | fuel + 1, text, c =>
    if c.atDocumentEdge || c.rest.isEmpty then none
    else do
      let (run, broken, next) ← readRun? quote (c.rest.length + 1) c
      let text := text ++ run
      if next.rest.head? = some quote then return (text, next.ahead 1)
      let (gap, next) ← readGap? 0 (next.rest.length + 1) { broken } next
      readQuoted? quote fuel (text ++ gap.text) next

/-- What becomes of the line breaks at the end of a block. -/
inductive Chomping where
  | strip
  | clip
  | keep

/-- The marks after the bar of a block: chomping and indentation in either order. -/
def readHeader? (text : List Char) : Option (Chomping × Option Nat × List Char) :=
  let chomping? : List Char → Option (Chomping × List Char)
    | '+' :: rest => some (.keep, rest)
    | '-' :: rest => some (.strip, rest)
    | _ => none
  let increment (text : List Char) : Option (Option Nat × List Char) :=
    match text with
    | c :: rest =>
      if c = '0' then none
      else if c.isDigit then some (some (c.toNat - 48), rest)
      else some (none, text)
    | [] => some (none, text)
  match chomping? text with
  | some (chomping, rest) => (increment rest).map fun (n, rest) => (chomping, n, rest)
  | none =>
    (increment text).map fun (n, rest) =>
      match n, chomping? rest with
      | some _, some (chomping, rest) => (chomping, n, rest)
      | _, _ => (.clip, n, rest)

/-- Empty lines in a block, and the greatest column that their spaces reach. Until the indentation of
the block is known, `indent` is zero. -/
def readEmptyLines? (indent : Nat) :
    Nat → (widest : Nat) → List Char → Cursor → Option (Nat × List Char × Cursor)
  | 0, _, _, _ => none
  | fuel + 1, widest, breaks, c =>
    let spaces := (c.rest.takeWhile (· = ' ')).length
    let c := c.ahead (if indent = 0 then spaces else min spaces (indent - c.column))
    let widest := max widest c.column
    if (indent = 0 ∨ c.column < indent) ∧ c.rest.head? = some '\t' then none
    else if c.atBreak then
      let (b, next) := c.nextLine
      readEmptyLines? indent fuel widest (breaks ++ b) next
    else some (widest, breaks, c)

/-- The parts of a block that was read so far. -/
structure Block where
  text : List Char := []
  /-- The break after the last line. -/
  ending : List Char := []
  /-- The empty lines after that. -/
  empty : List Char := []
  /-- The last line began with a blank. -/
  blank : Bool := false

/-- The lines of a block. Folding joins two lines that both begin with no blank. -/
def readLines? (folded : Bool) (indent : Nat) : Nat → Block → Cursor → Option (Block × Cursor)
  | 0, _, _ => none
  | fuel + 1, block, c =>
    if c.column ≠ indent ∨ c.rest.isEmpty then some (block, c)
    else do
      let blank := c.atBlank
      let joint :=
        if folded && block.ending = ['\n'] && !block.blank && !blank then
          (if block.empty.isEmpty then [' '] else [])
        else block.ending
      let line := c.rest.takeWhile (! isBreak ·)
      let (ending, next) := c.lineEnd.nextLine
      let (_, empty, next) ← readEmptyLines? indent (next.rest.length + 1) 0 [] next
      let text := block.text ++ joint ++ block.empty ++ line
      readLines? folded indent fuel { text, ending, empty, blank } next

/-- A block after its bar; `outer` is the indentation of the block around it, if there is one. -/
def readBlock? (folded : Bool) (outer : Option Nat) (c : Cursor) :
    Option (List Char × Cursor) := do
  let (chomping, increment, rest) ← readHeader? c.rest
  let c := (c.ahead (c.rest.length - rest.length)).pass isBlank
  let c := if c.rest.head? = some '#' then c.lineEnd else c
  if !(c.rest.isEmpty || c.atBreak) then none
  else
    let c := c.nextLine.2
    let given := increment.elim 0 fun n => outer.getD 0 + n
    let (widest, empty, c) ← readEmptyLines? given (c.rest.length + 1) 0 [] c
    let least := outer.elim 1 fun n => n + 1
    let indent := if given = 0 then max widest (max least 1) else given
    let (block, c) ← readLines? folded indent (c.rest.length + 1) { empty } c
    let text := match chomping with
      | .strip => block.text
      | .clip => block.text ++ block.ending
      | .keep => block.text ++ block.ending ++ block.empty
    return (text, c)

def readName? (c : Cursor) : Option (List Char × Cursor) :=
  let name := c.rest.takeWhile isNameChar
  let next := c.ahead name.length
  let ends := endsWord next.rest || next.rest.head?.any fun x => "?:,]\x7d%@\x60".toList.contains x
  if name.isEmpty || !ends then none else some (name, next)

/-- A character of a tag; inside angle brackets three more are allowed. -/
def isTagChar (angled : Bool) (c : Char) : Bool :=
  isNameChar c || ";/?:@&=+$.!~*\x27()".toList.contains c || (angled && ",[]".toList.contains c)

/-- The byte that two digits after a percent sign spell. -/
def readByte? : List Char → Option (UInt8 × List Char)
  | '%' :: a :: b :: rest => do
    return ((16 * (← digitOf? 16 a) + (← digitOf? 16 b)).toUInt8, rest)
  | _ => none

/-- Bytes after percent signs, up to some count. -/
def readBytes? : Nat → List Char → Option (List UInt8 × List Char)
  | 0, text => some ([], text)
  | count + 1, text => do
    let (b, rest) ← readByte? text
    let (bs, rest) ← readBytes? count rest
    return (b :: bs, rest)

/-- The number of bytes of a character, by its first byte. -/
def byteCount? (first : UInt8) : Option Nat :=
  if first < 0x80 then some 1
  else if first &&& 0xE0 = 0xC0 then some 2
  else if first &&& 0xF0 = 0xE0 then some 3
  else if first &&& 0xF8 = 0xF0 then some 4
  else none

/-- The characters of a tag, with bytes after percent signs put together. -/
def readTagText? (angled : Bool) : Nat → List Char → Option (List Char × List Char)
  | 0, _ => none
  | fuel + 1, text =>
    match text with
    | [] => some ([], [])
    | c :: rest =>
      if c = '%' then do
        let (first, _) ← readByte? text
        let (bytes, rest) ← readBytes? (← byteCount? first) text
        let chars ← String.fromUTF8? ⟨bytes.toArray⟩
        let (more, rest) ← readTagText? angled fuel rest
        return (chars.toList ++ more, rest)
      else if isTagChar angled c then do
        let (more, rest) ← readTagText? angled fuel rest
        return (c :: more, rest)
      else some ([], text)

/-- The handle at the start of a tag: an exclamation mark, a name and perhaps another mark. -/
def splitHandle (text : List Char) : List Char × List Char :=
  let name := (text.drop 1).takeWhile isNameChar
  let rest := text.drop (name.length + 1)
  match rest with
  | '!' :: rest => ('!' :: name ++ ['!'], rest)
  | rest => ('!' :: name, rest)

/-- A tag: its handle, which is empty for a tag that stands for itself, and the rest of it. -/
def readTag? (flow : Bool) (c : Cursor) : Option (Token × Cursor) := do
  let (tag, rest) : Token × List Char ← match c.rest with
    | '!' :: '<' :: text => do
      let (suffix, rest) ← readTagText? true (text.length + 1) text
      match rest with
      | '>' :: rest => if suffix.isEmpty then none else some (Token.tag [] suffix, rest)
      | _ => none
    | text => do
      let (handle, rest) := splitHandle text
      let (suffix, rest) ← readTagText? false (rest.length + 1) rest
      if handle.length > 1 ∧ handle.getLast? = some '!' then
        if suffix.isEmpty then none else some (.tag handle suffix, rest)
      else
        let suffix := handle.drop 1 ++ suffix
        some (if suffix.isEmpty then .tag [] ['!'] else .tag ['!'] suffix, rest)
  if endsWord rest || (flow && rest.head? = some ',') then
    return (tag, c.ahead (c.rest.length - rest.length))
  else none

/-- A number of a version: at most nine digits. -/
def readVersionNumber? (text : List Char) : Option (Nat × List Char) :=
  let digits := text.takeWhile Char.isDigit
  if digits.isEmpty || digits.length > 9 then none
  else some (digits.foldl (fun n d => 10 * n + (d.toNat - 48)) 0, text.dropWhile Char.isDigit)

def readDirectiveText? (name text : List Char) : Option (Token × List Char) :=
  let skip (text : List Char) := text.dropWhile isBlank
  if name = "YAML".toList then do
    let (major, rest) ← readVersionNumber? (skip text)
    match rest with
    | '.' :: rest => do
      let (minor, rest) ← readVersionNumber? rest
      return (.version major minor, rest)
    | _ => none
  else if name = "TAG".toList then
    match skip text with
    | '!' :: tail => do
      let (handle, rest) := splitHandle ('!' :: tail)
      if handle.length > 1 ∧ handle.getLast? ≠ some '!' then none
      else if !(rest.head?.any isBlank) then none
      else
        let rest := skip rest
        let (start, rest) ← readTagText? true (rest.length + 1) rest
        if start.isEmpty || !endsWord rest then none else return (.tagHandle handle start, rest)
    | _ => none
  else none

/-- A directive up to the end of its line. -/
def readDirective? (c : Cursor) : Option (Token × Cursor) := do
  let body := c.rest.drop 1
  let name := body.takeWhile isNameChar
  let after := body.drop name.length
  if name.isEmpty || !endsWord after then none
  else
    let (token, rest) ← readDirectiveText? name after
    let c := (c.ahead (c.rest.length - rest.length)).pass isBlank
    let c := if c.rest.head? = some '#' then c.lineEnd else c
    if c.rest.isEmpty then return (token, c)
    else if c.atBreak then return (token, c.nextLine.2)
    else none

end ProofOfWork.Document.Yaml
