import ProofOfWork.Document.Access
import ProofOfWork.Document.Yaml.Layout
import ProofOfWork.Document.Yaml.Scalar
set_option autoImplicit false

/-!
Nodes of YAML: scalars, sequences and mappings with their tags, built from tokens. A node that was
given a name may be meant again by it, also inside itself, so an alias stays an alias until something
is asked of it. How a scalar is taken depends on what is asked for, so a node keeps its text and its
style.
-/
namespace ProofOfWork.Document.Yaml

inductive Node where
  | scalar (tag : Option (List Char)) (style : Style) (text : List Char)
  | sequence (items : List Node)
  | mapping (tag : Option (List Char)) (entries : List (Node × Node))
  /-- The named node of a number. -/
  | alias (number : Nat)

namespace Node

def empty : Node := .scalar none .plain []

structure Named where
  /-- How many named nodes began before it. -/
  place : Nat
  /-- How many different names there were when it began. -/
  number : Nat
  node : Node

/-- What is known while nodes are built: the handles of tags and the named nodes. -/
structure Context where
  handles : List (List Char × List Char)
  /-- The names given so far, each with the number of the node that took it last. -/
  names : List (List Char × Nat) := []
  /-- How many named nodes began. -/
  begun : Nat := 0
  /-- The named nodes that have ended. -/
  named : List Named := []

/-- What is left when something was built: the context and the tokens after it. -/
abbrev Left := Context × List Token

def Context.tag? (c : Context) (handle suffix : List Char) : Option (List Char) :=
  if handle.isEmpty then some suffix else (c.handles.lookup handle).map (· ++ suffix)

/-- The context after a node began, with a name or without. -/
def Context.beginNode (c : Context) : Option (List Char) → Context
  | some name =>
    { c with
      names := (name, c.names.length) :: c.names.filter fun other => other.1 ≠ name
      begun := c.begun + 1 }
  | none => c

/-- The context after a node that began in the context `start` has ended. -/
def Context.endNode (c start : Context) (node : Node) : Option (List Char) → Context
  | some _ => { c with named := ⟨start.begun, start.names.length, node⟩ :: c.named }
  | none => c

/-- The properties in front of a node: an anchor and a tag in either order, each at most once. -/
structure Properties where
  anchor : Option (List Char) := none
  tag : Option (List Char) := none

def Properties.isEmpty (p : Properties) : Bool := p.anchor.isNone && p.tag.isNone

def readProperties? (c : Context) : List Token → Option (Properties × List Token)
  | .anchor name :: .tag handle suffix :: rest => do
    return (⟨some name, some (← c.tag? handle suffix)⟩, rest)
  | .tag handle suffix :: .anchor name :: rest => do
    return (⟨some name, some (← c.tag? handle suffix)⟩, rest)
  | .anchor name :: rest => some (⟨some name, none⟩, rest)
  | .tag handle suffix :: rest => do return (⟨none, some (← c.tag? handle suffix)⟩, rest)
  | rest => some ({}, rest)

/-- Where a node stands decides which tokens may begin it. -/
inductive Place where
  /-- Inside brackets or braces. -/
  | flow
  /-- In a block; blocks may begin. -/
  | block
  /-- After a key of a block, where a sequence need not stand deeper than the key. -/
  | afterKey
  deriving DecidableEq

/-- Whether nothing is written where a node of a block could stand. -/
def isAbsent (ends : List Token) : List Token → Bool
  | [] => true
  | t :: _ => ends.contains t

mutual

/-- A node, written or not. -/
def build? (place : Place) : Nat → Context → List Token → Option (Node × Left)
  | 0, _, _ => none
  | fuel + 1, c, tokens =>
    match tokens with
    | .alias name :: rest => do
      return (.alias (← c.names.lookup name), c, rest)
    | tokens => do
      let (p, tokens) ← readProperties? c tokens
      let opened := c.beginNode p.anchor
      let named (built : Node × Left) : Node × Left :=
        (built.1, built.2.1.endNode c built.1 p.anchor, built.2.2)
      match tokens with
      | .scalar style text :: rest => return named (.scalar p.tag style text, opened, rest)
      | .flowSequence :: rest => do
        let (items, c, rest) ← flowItems? fuel true opened rest
        return named (.sequence items, c, rest)
      | .flowMapping :: rest => do
        let (entries, c, rest) ← flowEntries? fuel true opened rest
        return named (.mapping p.tag entries, c, rest)
      | .blockSequence :: rest =>
        if place = .flow then none
        else do
          let (items, c, rest) ← blockItems? fuel opened rest
          return named (.sequence items, c, rest)
      | .blockMapping :: rest =>
        if place = .flow then none
        else do
          let (entries, c, rest) ← blockEntries? fuel opened rest
          return named (.mapping p.tag entries, c, rest)
      | .entry :: rest =>
        if place = .afterKey then do
          let (items, c, rest) ← flushItems? fuel opened (.entry :: rest)
          return named (.sequence items, c, rest)
        else if p.isEmpty then none
        else return named (.scalar p.tag .plain [], opened, .entry :: rest)
      | rest => if p.isEmpty then none else return named (.scalar p.tag .plain [], opened, rest)

/-- A node, or an empty one before any of the given tokens. -/
def buildUnless? (ends : List Token) (place : Place) : Nat → Context → List Token → Option (Node × Left)
  | 0, _, _ => none
  | fuel + 1, c, tokens =>
    if isAbsent ends tokens then some (.empty, c, tokens) else build? place fuel c tokens

/-- The items of a block sequence up to its end. -/
def blockItems? : Nat → Context → List Token → Option (List Node × Left)
  | 0, _, _ => none
  | fuel + 1, c, tokens =>
    match tokens with
    | .blockEnd :: rest => some ([], c, rest)
    | .entry :: rest => do
      let (item, c, rest) ← buildUnless? [.entry, .blockEnd] .block fuel c rest
      let (items, c, rest) ← blockItems? fuel c rest
      return (item :: items, c, rest)
    | _ => none

/-- The items of a sequence that stands no deeper than its key; no token ends it. -/
def flushItems? : Nat → Context → List Token → Option (List Node × Left)
  | 0, _, _ => none
  | fuel + 1, c, tokens =>
    match tokens with
    | .entry :: rest => do
      let (item, c, rest) ← buildUnless? [.entry, .key, .value, .blockEnd] .block fuel c rest
      let (items, c, rest) ← flushItems? fuel c rest
      return (item :: items, c, rest)
    | rest => some ([], c, rest)

/-- The entries of a block mapping up to its end. -/
def blockEntries? : Nat → Context → List Token → Option (List (Node × Node) × Left)
  | 0, _, _ => none
  | fuel + 1, c, tokens =>
    match tokens with
    | .blockEnd :: rest => some ([], c, rest)
    | .key :: rest => do
      let (key, c, rest) ← buildUnless? [.key, .value, .blockEnd] .afterKey fuel c rest
      let (value, c, rest) ← match rest with
        | .value :: rest => buildUnless? [.key, .value, .blockEnd] .afterKey fuel c rest
        | rest => some (.empty, c, rest)
      let (entries, c, rest) ← blockEntries? fuel c rest
      return ((key, value) :: entries, c, rest)
    | _ => none

/-- The items of a sequence in brackets; a key there makes a mapping of one entry. -/
def flowItems? : Nat → (first : Bool) → Context → List Token → Option (List Node × Left)
  | 0, _, _, _ => none
  | fuel + 1, first, c, tokens => do
    let item? (tokens : List Token) : Option (List Node × Left) :=
      match tokens with
      | .flowSequenceEnd :: rest => some ([], c, rest)
      | .key :: rest => do
        let (entry, c, rest) ← flowPair? fuel c rest
        let (items, c, rest) ← flowItems? fuel false c rest
        return (.mapping none [entry] :: items, c, rest)
      | rest => do
        let (item, c, rest) ← build? .flow fuel c rest
        let (items, c, rest) ← flowItems? fuel false c rest
        return (item :: items, c, rest)
    match first, tokens with
    | true, tokens => item? tokens
    | false, .flowSequenceEnd :: rest => some ([], c, rest)
    | false, .comma :: rest => item? rest
    | false, _ => none

/-- A key in brackets and what follows it. The token after an empty key is passed over. -/
def flowPair? : Nat → Context → List Token → Option ((Node × Node) × Left)
  | 0, _, _ => none
  | fuel + 1, c, tokens => do
    let (key, c, rest) ←
      if isAbsent [.value, .comma, .flowSequenceEnd] tokens then
        some (.empty, c, tokens.drop 1)
      else build? .flow fuel c tokens
    let (value, c, rest) ← match rest with
      | .value :: rest => buildUnless? [.comma, .flowSequenceEnd] .flow fuel c rest
      | rest => some (.empty, c, rest)
    return ((key, value), c, rest)

/-- The entries of a mapping in braces. -/
def flowEntries? : Nat → (first : Bool) → Context → List Token → Option (List (Node × Node) × Left)
  | 0, _, _, _ => none
  | fuel + 1, first, c, tokens => do
    let entry? (tokens : List Token) : Option (List (Node × Node) × Left) :=
      match tokens with
      | .flowMappingEnd :: rest => some ([], c, rest)
      | .key :: rest => do
        let (key, c, rest) ← buildUnless? [.value, .comma, .flowMappingEnd] .flow fuel c rest
        let (value, c, rest) ← match rest with
          | .value :: rest => buildUnless? [.comma, .flowMappingEnd] .flow fuel c rest
          | rest => some (.empty, c, rest)
        let (entries, c, rest) ← flowEntries? fuel false c rest
        return ((key, value) :: entries, c, rest)
      | rest => do
        let (key, c, rest) ← build? .flow fuel c rest
        let (entries, c, rest) ← flowEntries? fuel false c rest
        return ((key, .empty) :: entries, c, rest)
    match first, tokens with
    | true, tokens => entry? tokens
    | false, .flowMappingEnd :: rest => some ([], c, rest)
    | false, .comma :: rest => entry? rest
    | false, _ => none

end

/-- The handles that need no directive. -/
def commonHandles : List (List Char × List Char) :=
  [(['!'], ['!']), (['!', '!'], "tag:yaml.org,2002:".toList)]

/-- What the directives in front of a document declare: no version twice, none but two known ones,
and no handle twice. -/
def readDirectives? (versions : Nat) (handles : List (List Char × List Char)) :
    List Token → Option (Bool × List (List Char × List Char) × List Token)
  | .version major minor :: rest =>
    if versions > 0 ∨ major ≠ 1 ∨ ¬(minor = 1 ∨ minor = 2) then none
    else readDirectives? (versions + 1) handles rest
  | .tagHandle handle start :: rest =>
    if (handles.lookup handle).isSome then none
    else readDirectives? versions ((handle, start) :: handles) rest
  | rest => some (versions > 0 || !handles.isEmpty, handles, rest)

end Node

/-- What a text stands for: its node, and the nodes that aliases in it mean. -/
structure Tree where
  root : Node
  named : List Node.Named

namespace Node

/-- The tree of the tokens of a text with one document; an empty node for a text without any. -/
def ofTokens? (tokens : List Token) : Option Tree := do
  let (directives, handles, rest) ← readDirectives? 0 [] tokens
  let c : Context := { handles := handles ++ commonHandles }
  let fuel := 4 * tokens.length + 8
  let (root, c, rest) ← match rest with
    | [] => if directives then none else some (.empty, c, [])
    | .documentStart :: rest =>
      buildUnless? [.documentStart, .documentEnd] .block fuel c rest
    | rest => if directives then none else build? .block fuel c rest
  if rest.all (· = .documentEnd) then some ⟨root, c.named⟩ else none

/-- The node of a number. Where a name is given again, two nodes may have one number; the one that
begins last is meant. -/
def meant? (number : Nat) : List Named → Option Named
  | [] => none
  | n :: rest =>
    match meant? number rest with
    | some other => if n.number = number ∧ other.place < n.place then some n else some other
    | none => if n.number = number then some n else none

/-- The node itself, or the one that it means. -/
def resolve (named : List Named) : Node → Node
  | .alias number => ((meant? number named).map Named.node).getD .empty
  | node => node

/-! What a node is taken for. -/

/-- Whether a scalar may be taken for something else than a text: if it has no quotes, or is a literal
block with the tag of what is asked for. -/
def takes (kind : String) (tag : Option (List Char)) : Style → Bool
  | .plain => true
  | .literal => tag = some ("tag:yaml.org,2002:" ++ kind).toList
  | .quoted => false

def word? : Node → Option UInt64
  | .scalar tag style text =>
    if takes "int" tag style then (natural? (2 ^ 64) text).map Nat.toUInt64 else none
  | _ => none

def boolean? : Node → Option Bool
  | .scalar tag style text => if takes "bool" tag style then Yaml.boolean? text else none
  | _ => none

def real? : Node → Option Float
  | .scalar tag style text => if takes "float" tag style then Yaml.real? text else none
  | _ => none

def text? : Node → Option (List Char)
  | .scalar _ _ text => some text
  | _ => none

/-- A local tag without its exclamation mark. -/
def localTag? : Option (List Char) → Option (List Char)
  | some ['!'] => some ['!']
  | some ('!' :: name) => some name
  | _ => none

/-- The name of an alternative is a text, or the local tag of a scalar that says no more. -/
def name? : Node → Option (List Char)
  | .scalar tag style text =>
    match localTag? tag with
    | some name => if style = .plain ∧ (text.isEmpty ∨ isNull text) then some name else none
    | none => some text
  | _ => none

/-- A record is a mapping with scalars as keys, or nothing at all. -/
def fields? (named : List Named) (names : List (List Char)) : Node → Option (List Char → Option Node)
  | .mapping _ entries => do
    let entries ← entries.mapM fun (key, v) => (key.resolve named).text?.map fun key => (key, v)
    namedFields? names entries
  | .scalar _ .plain [] => some fun _ => none
  | _ => none

end Node

/-- The nodes of a YAML text with these named nodes. -/
def access (named : List Node.Named) : Access Node where
  word? node := (node.resolve named).word?
  boolean? node := (node.resolve named).boolean?
  real? node := (node.resolve named).real?
  text? node := (node.resolve named).text?
  name? node := (node.resolve named).name?
  fields? names node := (node.resolve named).fields? named names

def read? (text : List Char) : Option Tree := do Node.ofTokens? (← tokens? text)

end ProofOfWork.Document.Yaml
