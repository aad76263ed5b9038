import ProofOfWork.Pattern.Basic
import ProofOfWork.Text.Alphanumeric
import ProofOfWork.Text.Basic
import ProofOfWork.Text.Unsigned
set_option autoImplicit false

/-!
Patterns from their texts. In the spaced mode blanks and comments are passed over. A text of a pattern
has no closing brace, as the field that it belongs to would end there; so what needs braces, such as
a repetition with a count, is always refused.
-/
namespace ProofOfWork
open Text

/-- The text after the blanks and comments in front, if they count for nothing. A comment goes from a
number sign to the end of its line. -/
def skipSpace (spaced : Bool) (text : List Char) : List Char :=
  if spaced then skip false text else text
where
  skip (comment : Bool) : List Char → List Char
    | [] => []
    | c :: rest =>
      if comment then skip (c ≠ '\n') rest
      else if isBlank c then skip false rest
      else if c = '#' then skip true rest
      else c :: rest

/-- The next character after blanks; in the spaced mode a number sign counts as a blank once. -/
def peekPast (spaced : Bool) (text : List Char) : Option Char :=
  if spaced then
    match text.dropWhile isBlank with
    | '#' :: rest => (rest.dropWhile isBlank).head?
    | rest => rest.head?
  else text.head?

namespace Pattern

/-- The code point that digits of base sixteen spell, `count` of them. -/
def readCode? (spaced : Bool) : (count value : Nat) → List Char → Option (Nat × List Char)
  | 0, value, text => some (value, text)
  | count + 1, value, text =>
    match skipSpace spaced text with
    | [] => none
    | c :: rest => do readCode? spaced count (16 * value + (← digitOf? 16 c)) rest

/-- The letters that stand for a control character after a backslash. -/
def controls : List (Char × Nat) := [('a', 7), ('f', 12), ('t', 9), ('n', 10), ('r', 13), ('v', 11)]

/-- The letters after which digits of a code point follow, and how many. -/
def codeMarks : List (Char × Nat) := [('x', 2), ('u', 4), ('U', 8)]

/-- A pattern from what follows a backslash. -/
def readEscape? (spaced : Bool) : List Char → Option (Pattern × List Char)
  | [] => none
  | c :: rest =>
    match codeMarks.lookup c, controls.lookup c with
    | some count, _ => do
      let (n, rest) ← readCode? spaced count 0 rest
      if n < 0xD800 ∨ (0xDFFF < n ∧ n < 0x110000) then some (letter (Char.ofNat n) (c = 'x'), rest)
      else none
    | none, some n => some (letter (Char.ofNat n) false, rest)
    | none, none =>
      if "pP".toList.contains c then
        match skipSpace spaced rest with
        | [] | '\\' :: _ | '\x7b' :: _ => none
        | _ :: rest => some (set .property, rest)
      else if "dsw".toList.contains c then some (set (.shorthand false), rest)
      else if "DSW".toList.contains c then some (set (.shorthand true), rest)
      else if "Az".toList.contains c then some (edge, rest)
      else if "bB<>".toList.contains c then some (wordEdge, rest)
      else if c.isAlphanum || c.toNat ≥ 128 then none
      else some (letter c false, rest)

/-- A member of a set, or an end of a range. -/
def readMember? (spaced : Bool) : List Char → Option (Pattern × List Char)
  | [] => none
  | '\\' :: rest => readEscape? spaced rest
  | c :: rest => some (letter c false, rest)

/-- A member as a set. -/
def asSet? : Pattern → Option CharSet
  | letter c _ => some (.letter c)
  | set s => some s
  | _ => none

def setNames : List String :=
  ["alnum", "alpha", "ascii", "blank", "cntrl", "digit", "graph", "lower", "print", "punct", "space",
    "upper", "word", "xdigit"]

/-- A named set, after its opening bracket. -/
def readNamed? : List Char → Option (CharSet × List Char)
  | ':' :: rest =>
    let (negated, rest) := match rest with
      | '^' :: rest => (true, rest)
      | rest => (false, rest)
    match rest.dropWhile (· ≠ ':') with
    | ':' :: ']' :: after =>
      if setNames.contains (String.ofList (rest.takeWhile (· ≠ ':'))) then some (.named negated, after)
      else none
    | _ => none
  | _ => none

/-- A member, or a range of letters. -/
def readItem? (spaced : Bool) (text : List Char) : Option (CharSet × List Char) := do
  let (first, rest) ← readMember? spaced text
  match skipSpace spaced rest with
  | [] => none
  | '-' :: rest =>
    if peekPast spaced rest = some ']' ∨ peekPast spaced rest = some '-' then
      return (← asSet? first, '-' :: rest)
    else
      let (last, rest) ← readMember? spaced (skipSpace spaced rest)
      match first, last with
      | letter a _, letter b _ => if a ≤ b then some (.range a b, rest) else none
      | _, _ => none
  | rest => return (← asSet? first, rest)

/-- Dashes at the start of a set stand for themselves. -/
def readDashes (spaced : Bool) : Nat → List Char → List CharSet × List Char
  | 0, text => ([], text)
  | fuel + 1, text =>
    match text with
    | '-' :: rest =>
      let (dashes, rest) := readDashes spaced fuel (skipSpace spaced rest)
      (.letter '-' :: dashes, rest)
    | _ => ([], text)

/-- What follows the opening bracket of a set: whether it is negated, and members that would end the
set or be operators elsewhere. -/
def openSet (spaced : Bool) (text : List Char) : Bool × List CharSet × List Char :=
  let (negated, text) := match skipSpace spaced text with
    | '^' :: rest => (true, skipSpace spaced rest)
    | text => (false, text)
  match readDashes spaced text.length text with
  | ([], ']' :: rest) => (negated, [.letter ']'], rest)
  | (dashes, rest) => (negated, dashes, rest)

/-- The inside of a set up to its closing bracket. `left` is what stands before the last operator, and
`items` what follows it, the last one first. -/
def readInside? (spaced : Bool) :
    Nat → (left : Option CharSet) → (items : List CharSet) → List Char → Option (CharSet × List Char)
  | 0, _, _, _ => none
  | fuel + 1, left, items, text =>
    let side := CharSet.ofItems items.reverse
    let all := left.elim side fun l => .combined l side
    match skipSpace spaced text with
    | [] => none
    | ']' :: rest => some (all, rest)
    | '&' :: '&' :: rest => readInside? spaced fuel (some all) [] rest
    | '-' :: '-' :: rest => readInside? spaced fuel (some all) [] rest
    | '~' :: '~' :: rest => readInside? spaced fuel (some all) [] rest
    | '[' :: rest =>
      match readNamed? rest with
      | some (item, rest) => readInside? spaced fuel left (item :: items) rest
      | none => do
        let (negated, first, rest) := openSet spaced rest
        let (inner, rest) ← readInside? spaced fuel none first.reverse rest
        readInside? spaced fuel left (.brackets negated inner :: items) rest
    | text => do
      let (item, rest) ← readItem? spaced text
      readInside? spaced fuel left (item :: items) rest

def readSet? (spaced : Bool) (text : List Char) : Option (CharSet × List Char) := do
  let (negated, first, rest) := openSet spaced text
  let (inner, rest) ← readInside? spaced (rest.length + 1) none first.reverse rest
  return (.brackets negated inner, rest)

/-- Changes of modes up to a colon or a closing parenthesis, with no letter twice; those after a dash
are turned off. -/
def readModes? (on last : Bool) (changes : ModeChanges) : List Char → Option (ModeChanges × List Char)
  | [] => none
  | c :: rest =>
    if c = ':' ∨ c = ')' then if last then some (changes, c :: rest) else none
    else if c = '-' then if on then readModes? false false changes rest else none
    else if "imsUuRx".toList.contains c && (changes.lookup c).isNone then
      readModes? on true (changes ++ [(c, on)]) rest
    else none

def isNameLetter (first : Bool) (c : Char) : Bool :=
  c = '_' || (if first then isLetter c else ".[]".toList.contains c || isAlphanumeric c)

/-- The name of a group up to a closing angle bracket. -/
def readName? (text : List Char) : Option (List Char × List Char) :=
  match splitAt? '>' text with
  | some (c :: name, rest) =>
    if isNameLetter true c && name.all (isNameLetter false) then some (c :: name, rest) else none
  | _ => none

/-- A place in the text of a pattern. -/
structure Place where
  rest : List Char
  spaced : Bool := false
  /-- The names of the groups so far. -/
  names : List (List Char) := []

/-- The changes of modes after an opening parenthesis, and whether a group follows them. What looks
around is refused. -/
def openGroup? (p : Place) : Option (ModeChanges × Bool × Place) :=
  let named (text : List Char) := do
    let (name, rest) ← readName? text
    if p.names.contains name then none
    else some (([] : ModeChanges), true, { p with rest, names := name :: p.names })
  match skipSpace p.spaced p.rest with
  | '?' :: '=' :: _ | '?' :: '!' :: _ | '?' :: '<' :: '=' :: _ | '?' :: '<' :: '!' :: _ => none
  | '?' :: 'P' :: '<' :: rest => named rest
  | '?' :: '<' :: rest => named rest
  | '?' :: rest => do
    match ← readModes? true true [] rest with
    | ([], ')' :: _) => none
    | (changes, c :: rest) =>
      return (changes, c = ':', { p with rest, spaced := (changes.lookup 'x').getD p.spaced })
    | (_, []) => none
  | rest => some ([], true, { p with rest })

/-- A repetition of the last part, if there is one. -/
def repeatLast? : List Pattern → Option (List Pattern)
  | [] | modes _ :: _ => none
  | p :: parts => some (repeated p :: parts)

/-- Parts and branches, the last ones first, up to the end of the text or of the group. -/
def readParts? (inGroup : Bool) :
    Nat → (branches parts : List Pattern) → Place → Option (Pattern × Place)
  | 0, _, _, _ => none
  | fuel + 1, branches, parts, p =>
    let all := ofBranches (ofParts parts.reverse :: branches).reverse
    let push (part : Pattern) (rest : List Char) :=
      readParts? inGroup fuel branches (part :: parts) { p with rest }
    match skipSpace p.spaced p.rest with
    | [] => if inGroup then none else some (all, { p with rest := [] })
    | ')' :: rest => if inGroup then some (all, { p with rest }) else none
    | '|' :: rest => readParts? inGroup fuel (ofParts parts.reverse :: branches) [] { p with rest }
    | '(' :: rest => do
      let (changes, isGroup, inside) ← openGroup? { p with rest }
      if isGroup then
        let (inner, after) ← readParts? true fuel [] [] inside
        readParts? inGroup fuel branches (group changes inner :: parts) { after with spaced := p.spaced }
      else readParts? inGroup fuel branches (modes changes :: parts) inside
    | '[' :: rest => do
      let (s, rest) ← readSet? p.spaced rest
      push (set s) rest
    | '\\' :: rest => do
      let (part, rest) ← readEscape? p.spaced rest
      push part rest
    | '\x7b' :: _ => none
    | c :: rest =>
      if "?*+".toList.contains c then do
        let parts ← repeatLast? parts
        readParts? inGroup fuel branches parts
          { p with rest := if rest.head? = some '?' then rest.drop 1 else rest }
      else if c = '.' then push anyLetter rest
      else if c = '^' ∨ c = '$' then push edge rest
      else push (letter c false) rest

def read? (text : List Char) : Option Pattern :=
  (readParts? false (text.length + 1) [] [] { rest := text }).map Prod.fst

end Pattern
end ProofOfWork
