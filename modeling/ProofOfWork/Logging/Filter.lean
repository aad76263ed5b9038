import ProofOfWork.Decimal.Layout
import ProofOfWork.Decimal.Literal
import ProofOfWork.Logging.Event
import ProofOfWork.Pattern.Valid
import ProofOfWork.Text.Basic
set_option autoImplicit false

/-!
Log filters: directives that say down to which level events are kept. A directive may be limited to
the sources that begin with a text, to a span, or to what has a field. Of the directives that apply
to an event the most particular one decides.
-/
namespace ProofOfWork
open Text

/-- What the value of a field has to be. -/
inductive LogMatch where
  | flag (b : Bool)
  | real (x : Float)
  | notANumber
  | natural (n : Nat)
  | integer (n : Int)
  /-- A text that a pattern matches. -/
  | pattern (text : List Char)

namespace LogMatch

def readNegative? (text : List Char) : Option Int :=
  match text with
  | '-' :: c :: digits =>
    if c.isDigit then (readUnsigned 10 (2 ^ 63 + 1) (c :: digits)).toOption.map fun n => -(n : Int)
    else none
  | _ => none

/-- A truth value or a number if the text is one, else a pattern that can be used. -/
def read? (text : List Char) : Option LogMatch :=
  if text = "true".toList then some (.flag true)
  else if text = "false".toList then some (.flag false)
  else match readUnsigned 10 (2 ^ 64) text, readNegative? text, Decimal.readReal text with
    | .ok n, _, _ => some (.natural n)
    | .error _, some n, _ => some (.integer n)
    | .error _, none, .ok x => some (if x.isNaN then .notANumber else .real x)
    | .error _, none, .error _ =>
      if (Pattern.read? text).any Pattern.isValid then some (.pattern text) else none

def text : LogMatch → List Char
  | .flag b => (toString b).toList
  | .real x => Decimal.plainLayout.text x
  | .notANumber => Decimal.plainLayout.nan.toList
  | .natural n => decimal n
  | .integer n => if n < 0 then '-' :: decimal n.natAbs else decimal n.natAbs
  | .pattern text => text

def rank : LogMatch → Nat
  | .flag _ => 0
  | .real _ => 1
  | .notANumber => 2
  | .natural _ => 3
  | .integer _ => 4
  | .pattern _ => 5

def order (a b : LogMatch) : Ordering :=
  match a, b with
  | .flag a, .flag b => compare a b
  | .real a, .real b => if a < b then .lt else if b < a then .gt else .eq
  | .natural a, .natural b => compare a b
  | .integer a, .integer b => compare a b
  | .pattern a, .pattern b => compare a b
  | a, b => compare a.rank b.rank

end LogMatch

/-- A field by name, and what its value has to be. -/
structure LogField where
  name : List Char
  value : Option LogMatch

namespace LogField

/-- A name, or a name and a value with an equals sign between them. -/
def read? (text : List Char) : Option LogField :=
  match splitAt? '=' text with
  | none => some ⟨text, none⟩
  | some (name, rest) => (LogMatch.read? (rest.takeWhile (· ≠ '='))).map fun v => ⟨name, some v⟩

def text (f : LogField) : List Char := f.name ++ (f.value.elim [] fun v => '=' :: v.text)

/-- Fields with values come after those without, then names and values decide. -/
def order (a b : LogField) : Ordering :=
  let values := match a.value, b.value with
    | some v, some w => v.order w
    | _, _ => .eq
  (compare a.value.isSome b.value.isSome).then ((compare a.name b.name).then values)

end LogField

/-- Keeps what it is limited to down to `level`; `none` keeps nothing. -/
structure LogDirective where
  /-- What the sources begin with. -/
  source : Option (List Char) := none
  span : Option (List Char) := none
  field : Option LogField := none
  level : Option LogLevel := some .trace

namespace LogDirective

/-- A level by its name in letters of either case, `off`, or a digit for its detail. -/
def readLevel? (text : List Char) : Option (Option LogLevel) :=
  match readUnsigned 10 (2 ^ 64) text with
  | .ok 0 => some none
  | .ok detail => (LogLevel.all.find? fun l => l.detail = detail).map some
  | .error _ =>
    let lower := lowerAscii text
    if lower = "off".toList then some none
    else (LogLevel.all.find? fun l => l.name.toList = lower).map some

/-- Letters and numerals, and the marks that a source may begin with. -/
def isOpening (c : Char) : Bool := isAlphanumeric c || c = '-' || c = ':' || c = '_'

/-!
The marks of a directive are looked for in its text without the blanks at the ends, but it is cut, at
the places counted there in bytes, with the blanks. Both texts are passed on, without what has been
read.
-/

/-- A directive with the level that follows an equals sign; everything if the level is left out. -/
def withLevel? (d : LogDirective) (text : List Char) : Option LogDirective :=
  if text.isEmpty then some d else (readLevel? text).map fun level => { d with level }

/-- A directive whose limits have been read. -/
def withEnd? (d : LogDirective) (trimmed text : List Char) : Option LogDirective :=
  match trimmed with
  | [] => some d
  | '=' :: _ => d.withLevel? (dropBytes 1 text)
  | _ => none

/-- A directive with the field up to a closing brace and bracket. -/
def withField? (d : LogDirective) (trimmed text : List Char) : Option LogDirective :=
  let seen := trimmed.takeWhile (· ≠ '\x7d')
  match trimmed.drop seen.length with
  | _ :: ']' :: rest =>
    if seen.isEmpty then none
    else do
      let field ← LogField.read? (takeBytes (byteCount seen) text)
      withEnd? { d with field := some field } rest (dropBytes (byteCount seen + 2) text)
  | _ => none

/-- A directive with the span up to a closing bracket; a brace begins a field. -/
def withSpan? (d : LogDirective) (trimmed text : List Char) : Option LogDirective :=
  let seen := trimmed.takeWhile fun c => c ≠ ']' ∧ c ≠ '\x7b'
  let span := takeBytes (byteCount seen) text
  let after := dropBytes (byteCount seen + 1) text
  match trimmed.drop seen.length with
  | [] => none
  | ']' :: rest => withEnd? { d with span := some span } rest after
  | _ :: rest => withField? { d with span := if seen.isEmpty then none else some span } rest after

/-- A level alone, or what a directive is limited to, perhaps with its level. -/
def read? (text : List Char) : Option LogDirective :=
  let trimmed := trimBlanks text
  match trimmed with
  | [] => none
  | '[' :: rest => withSpan? {} rest (dropBytes 1 text)
  | c :: _ =>
    if !isOpening c then none
    else
      let seen := trimmed.takeWhile fun c => c ≠ '=' ∧ c ≠ '['
      let ofSource : LogDirective := { source := some (takeBytes (byteCount seen) text) }
      let after := dropBytes (byteCount seen + 1) text
      match trimmed.drop seen.length with
      | [] =>
        match readLevel? text with
        | some level => some { level }
        | none => some { source := some text }
      | '=' :: _ => ofSource.withLevel? after
      | _ :: rest => ofSource.withSpan? rest after

def levelName : Option LogLevel → String
  | none => "off"
  | some level => level.name

def text (d : LogDirective) : String :=
  let field := d.field.elim [] fun f => '\x7b' :: f.text ++ ['\x7d']
  let inside := d.span.getD [] ++ field
  let limits := d.source.getD [] ++
    if d.span.isSome || d.field.isSome then '[' :: inside ++ [']'] else []
  let unlimited := d.source.isNone && d.span.isNone && d.field.isNone
  if unlimited then levelName d.level else String.ofList limits ++ "=" ++ levelName d.level

/-- Whether it is about what happens in spans or to fields. -/
def isForSpans (d : LogDirective) : Bool := d.span.isSome || d.field.isSome

/-- Whether it decides on events by themselves, by their sources and the names of their fields. -/
def isPlain (d : LogDirective) : Bool := d.span.isNone && d.field.all (·.value.isNone)

/-- How particular two directives are: by the lengths of their sources, by a span and by a field, and
if all that is equal by the texts. -/
def order (a b : LogDirective) : Ordering :=
  let fields := match a.field, b.field with
    | some f, some g => f.order g
    | _, _ => .eq
  (compare (a.source.map byteCount) (b.source.map byteCount)).then <|
    (compare a.span.isSome b.span.isSome).then <|
    (compare a.field.isSome b.field.isSome).then <|
    (compare a.source b.source).then <| (compare a.span b.span).then fields

/-- Whether it says something about an event outside of all spans. -/
def appliesTo (d : LogDirective) (event : LogEvent) : Bool :=
  d.source.all (·.isPrefixOf event.source.path.toList) &&
    d.field.all fun f =>
      f.name = "message".toList || event.fields.any fun (name, _) => name.toList = f.name

end LogDirective

/-- Directives, the most particular first, and no two with the same limits. -/
structure LogFilter where
  /-- Those that decide on events by themselves. -/
  directives : List LogDirective
  /-- Those about spans and fields. They keep nothing of a program that has no spans. -/
  inSpans : List LogDirective

namespace LogFilter

/-- The directive in its place; it replaces one with the same limits. -/
def insert (d : LogDirective) : List LogDirective → List LogDirective
  | [] => [d]
  | other :: rest =>
    match d.order other with
    | .eq => d :: rest
    | .gt => d :: other :: rest
    | .lt => other :: insert d rest

def sorted (ds : List LogDirective) : List LogDirective :=
  ds.foldl (fun placed d => insert d placed) []

/-- A field without a value says something both by itself and about spans. -/
def ofDirectives (ds : List LogDirective) : LogFilter :=
  let (spanned, others) := ds.partition LogDirective.isForSpans
  ⟨sorted (others ++ spanned.filter LogDirective.isPlain), sorted spanned⟩

def pieces : List Char → List (List Char)
  | [] => [[]]
  | c :: rest =>
    if c = ',' then [] :: pieces rest
    else match pieces rest with
      | [] => [[c]]
      | piece :: others => (c :: piece) :: others

/-- A filter from directives between commas; one that cannot be read spoils it. -/
def read? (text : List Char) : Option LogFilter :=
  (((pieces text).filter (! ·.isEmpty)).mapM LogDirective.read?).map ofDirectives

/-- The filter that was asked for, if it can be read, else that of a level. -/
def choose (asked : Option (List Char)) (level : List Char) : LogFilter :=
  match asked.bind read?, read? level with
  | some filter, _ => filter
  | none, some filter => filter
  | none, none => ofDirectives [{ level := some .info }]

def text (f : LogFilter) : String := ",".intercalate ((f.directives ++ f.inSpans).map LogDirective.text)

def keeps (f : LogFilter) (event : LogEvent) : Bool :=
  match f.directives.find? (·.appliesTo event) with
  | some d => d.level.any fun kept => event.level.detail ≤ kept.detail
  | none => false

end LogFilter
end ProofOfWork
