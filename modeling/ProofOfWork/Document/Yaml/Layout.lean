import ProofOfWork.Document.Yaml.Token
set_option autoImplicit false

/-!
The tokens of a YAML text. Indentation opens and closes blocks: a sequence or mapping begins where
its first dash or key stands, and ends at the first token further left. That a token was a key shows
only at the colon after it, so until then its place among the tokens is remembered.
-/
namespace ProofOfWork.Document.Yaml

/-- A token that may turn out to be a key: the number of tokens before it, and where it begins. -/
structure Candidate where
  count : Nat
  index : Nat
  line : Nat
  column : Nat
  /-- Nothing but a key may stand there. -/
  required : Bool

/-- A text whose first part has been cut into tokens. -/
structure Layout where
  cursor : Cursor
  /-- The tokens, the last one first. -/
  tokens : List Token := []
  /-- The columns of the open blocks, the innermost first. -/
  indents : List Nat := []
  /-- The possible key at this depth of brackets. -/
  candidate : Option Candidate := none
  /-- The possible keys outside the innermost brackets. -/
  outer : List (Option Candidate) := []
  /-- Whether a key, a dash or a block may begin here. -/
  mayOpen : Bool := true

namespace Layout

/-- Inside brackets or braces indentation does not count. -/
def flow (l : Layout) : Bool := !l.outer.isEmpty

def push (l : Layout) (t : Token) : Layout := { l with tokens := t :: l.tokens }

/-- The cursor moved, and a token for what it passed. -/
def take (l : Layout) (cursor : Cursor) (t : Token) : Layout := { l.push t with cursor }

/-- The least column of what belongs to the innermost block. -/
def inside (l : Layout) : Nat := l.indents.head?.elim 0 (· + 1)

/-- Whether a column lies to the right of the innermost block. -/
def deeper (l : Layout) (column : Nat) : Bool := l.indents.head?.all (· < column)

/-- The blocks to the right of a column are closed; `none` closes all. -/
def closeBlocks (column : Option Nat) : List Nat → List Token → List Nat × List Token
  | [], tokens => ([], tokens)
  | indent :: rest, tokens =>
    if column.all (· < indent) then closeBlocks column rest (.blockEnd :: tokens)
    else (indent :: rest, tokens)

def close (l : Layout) (column : Option Nat) : Layout :=
  if l.flow then l
  else
    let (indents, tokens) := closeBlocks column l.indents l.tokens
    { l with indents, tokens }

/-- A candidate is given up; it is an error if a key was required. -/
def drop? (l : Layout) : Option Layout :=
  if l.candidate.any (·.required) then none else some { l with candidate := none }

/-- A possible key begins at the cursor. -/
def remember? (l : Layout) : Option Layout :=
  if l.mayOpen then do
    let l ← l.drop?
    let c := l.cursor
    let required := !l.flow && l.indents.head? = some c.column
    return { l with candidate := some ⟨l.tokens.length, c.index, c.line, c.column, required⟩ }
  else some l

/-- A candidate on an earlier line, or too far back, is given up. -/
def refresh? (c : Cursor) : Option Candidate → Option (Option Candidate)
  | none => some none
  | some k =>
    if k.line < c.line ∨ k.index + 1024 < c.index then (if k.required then none else some none)
    else some (some k)

def refreshAll? (l : Layout) : Option Layout := do
  let candidate ← refresh? l.cursor l.candidate
  let outer ← l.outer.mapM (refresh? l.cursor)
  return { l with candidate, outer }

/-- A block begins at a column that lies deeper than the innermost block. -/
def openBlock (l : Layout) (column : Nat) (start : Token) : Layout :=
  if !l.flow && l.deeper column then { l.push start with indents := column :: l.indents } else l

/-- Blanks, comments and line breaks up to the next token. A tab counts as a blank where no block may
begin. -/
def skip : Nat → Layout → Layout
  | 0, l => l
  | fuel + 1, l =>
    let c := if l.cursor.column = 0 ∧ l.cursor.rest.head?.any (·.toNat = 0xFEFF) then l.cursor.ahead 1
      else l.cursor
    let c := c.pass fun x => x = ' ' || ((l.flow || !l.mayOpen) && x = '\t')
    let c := if c.rest.head? = some '#' then c.lineEnd else c
    if c.atBreak then
      skip fuel { l with cursor := c.nextLine.2, mayOpen := l.mayOpen || !l.flow }
    else { l with cursor := c }

/-- A dash of a block sequence. -/
def entry? (l : Layout) : Option Layout :=
  let c := l.cursor
  if l.flow then
    l.drop?.map fun l => { l.take (c.ahead 1) .entry with mayOpen := true }
  else if l.mayOpen then
    (l.openBlock c.column .blockSequence).drop?.map fun l =>
      { l.take (c.ahead 1) .entry with mayOpen := true }
  else none

/-- A question mark before a key. -/
def key? (l : Layout) : Option Layout :=
  let c := l.cursor
  if l.flow || l.mayOpen then
    (l.openBlock c.column .blockMapping).drop?.map fun l =>
      { l.take (c.ahead 1) .key with mayOpen := !l.flow }
  else none

/-- The tokens with a key mark before the last `count` of them, and with the start of a mapping. -/
def markKey (l : Layout) (k : Candidate) : Layout :=
  let after := l.tokens.length - k.count
  let before : Layout := { l with tokens := l.tokens.drop after }
  let marked := (before.openBlock k.column .blockMapping).push .key
  { marked with tokens := l.tokens.take after ++ marked.tokens }

/-- A colon after a key. -/
def value? (l : Layout) : Option Layout :=
  let c := l.cursor
  match l.candidate with
  | some k => some { (l.markKey k).take (c.ahead 1) .value with candidate := none, mayOpen := false }
  | none =>
    if l.flow || l.mayOpen then
      some { (l.openBlock c.column .blockMapping).take (c.ahead 1) .value with mayOpen := !l.flow }
    else none

def openFlow? (l : Layout) (t : Token) : Option Layout := do
  let l ← l.remember?
  return { l.take (l.cursor.ahead 1) t with
    candidate := none
    outer := l.candidate :: l.outer
    mayOpen := true }

def closeFlow? (l : Layout) (t : Token) : Option Layout := do
  let l ← l.drop?
  let l := { l.take (l.cursor.ahead 1) t with mayOpen := false }
  match l.outer with
  | [] => return l
  | candidate :: outer => return { l with candidate, outer }

/-- A token that may be a key. -/
def keyLike? (l : Layout) (read : Cursor → Option (Token × Cursor)) : Option Layout := do
  let l ← l.remember?
  let (t, c) ← read l.cursor
  return { l.take c t with mayOpen := false }

/-- A scalar without quotes; after a line break inside its last gap a block may begin. -/
def plain? (l : Layout) : Option Layout := do
  let l ← l.remember?
  let c := l.cursor
  let (text, gap, c) ← readPlain? l.flow l.inside (c.rest.length + 1) [] {} c
  return { l.take c (.scalar .plain text) with mayOpen := gap.broken }

def block? (l : Layout) (folded : Bool) : Option Layout := do
  let l ← l.drop?
  let (text, c) ← readBlock? folded l.indents.head? (l.cursor.ahead 1)
  return { l.take c (.scalar (if folded then .quoted else .literal) text) with mayOpen := true }

/-- A mark at the edge of a document closes all blocks. -/
def edge? (l : Layout) (read : Cursor → Option (Token × Cursor)) : Option Layout := do
  let l ← (l.close none).drop?
  let (t, c) ← read l.cursor
  return { l.take c t with mayOpen := false }

/-- Characters with which a scalar without quotes does not begin. -/
def isMark (c : Char) : Bool := "-?:,[]\x7b\x7d#&*!|>\x27\"%@\x60".toList.contains c

/-- Whether a scalar without quotes begins here. -/
def beginsPlain (flow : Bool) (c : Char) (rest : List Char) : Bool :=
  !(isBlankOrBreak c || isMark c) || (c = '-' && !rest.head?.any isBlank) ||
    (!flow && (c = '?' || c = ':') && !endsWord rest)

/-- The next token, at whose first character the cursor stands. -/
def token? (l : Layout) (c : Char) (rest : List Char) : Option Layout :=
  let here := l.cursor
  if here.column = 0 ∧ c = '%' then l.edge? readDirective?
  else if here.atDocumentMark '-' then l.edge? fun c => some (.documentStart, c.ahead 3)
  else if here.atDocumentMark '.' then l.edge? fun c => some (.documentEnd, c.ahead 3)
  else if c = '[' then l.openFlow? .flowSequence
  else if c = '\x7b' then l.openFlow? .flowMapping
  else if c = ']' then l.closeFlow? .flowSequenceEnd
  else if c = '\x7d' then l.closeFlow? .flowMappingEnd
  else if c = ',' then l.drop?.map fun l => { l.take (here.ahead 1) .comma with mayOpen := true }
  else if c = '-' ∧ endsWord rest then l.entry?
  else if c = '?' ∧ (l.flow ∨ endsWord rest) then l.key?
  else if c = ':' ∧ (l.flow ∨ endsWord rest) then l.value?
  else if c = '*' then
    l.keyLike? fun c => (readName? (c.ahead 1)).map fun (name, c) => (.alias name, c)
  else if c = '&' then
    l.keyLike? fun c => (readName? (c.ahead 1)).map fun (name, c) => (.anchor name, c)
  else if c = '!' then l.keyLike? (readTag? l.flow)
  else if c = '|' ∧ !l.flow then l.block? false
  else if c = '>' ∧ !l.flow then l.block? true
  else if c = '\x27' ∨ c = '"' then
    l.keyLike? fun here =>
      (readQuoted? c (here.rest.length + 1) [] (here.ahead 1)).map fun (text, next) =>
        (.scalar .quoted text, next)
  else if beginsPlain l.flow c rest then l.plain?
  else none

def finish? : Nat → Layout → Option (List Token)
  | 0, _ => none
  | fuel + 1, l => do
    let l ← (l.skip (l.cursor.rest.length + 1)).refreshAll?
    match l.cursor.rest with
    | [] =>
      let l ← (l.close none).drop?
      return l.tokens
    | c :: rest =>
      let l ← (l.close (some l.cursor.column)).token? c rest
      finish? fuel l

end Layout

def tokens? (text : List Char) : Option (List Token) :=
  if text.all isAllowed then
    (Layout.finish? (text.length + 2) { cursor := { rest := text } }).map List.reverse
  else none

end ProofOfWork.Document.Yaml
