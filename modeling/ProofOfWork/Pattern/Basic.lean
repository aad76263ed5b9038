set_option autoImplicit false

namespace ProofOfWork

/-- Modes of matching that a pattern turns on or off, by their letters. -/
abbrev ModeChanges := List (Char × Bool)

/-- A set of letters, or what is written inside its brackets. -/
inductive CharSet where
  | empty
  | letter (c : Char)
  | range (first last : Char)
  /-- A set by its name between colons. -/
  | named (negated : Bool)
  /-- Digits, blanks or letters of words, by the letter after a backslash. -/
  | shorthand (negated : Bool)
  /-- The letters with a property, by the letter of the property. -/
  | property
  | union (items : List CharSet)
  | brackets (negated : Bool) (inner : CharSet)
  /-- What two sets have in common, or what one has and the other has not. -/
  | combined (left right : CharSet)

inductive Pattern where
  | empty
  /-- A letter; `byte` if it was written as the two digits of a byte. -/
  | letter (c : Char) (byte : Bool)
  | anyLetter
  /-- An edge of a line or of the text. -/
  | edge
  | wordEdge
  | set (s : CharSet)
  /-- Modes for what follows in the group. -/
  | modes (changes : ModeChanges)
  | group (changes : ModeChanges) (inner : Pattern)
  | repeated (p : Pattern)
  | sequence (ps : List Pattern)
  | choice (ps : List Pattern)

namespace CharSet

/-- The items between two brackets, or on one side of an operator. -/
def ofItems : List CharSet → CharSet
  | [] => empty
  | [item] => item
  | items => union items

mutual

def depth : CharSet → Nat
  | union items => depthOfItems items + 1
  | brackets _ inner => depth inner + 1
  | combined left right => max (depth left) (depth right) + 1
  | _ => 0

def depthOfItems : List CharSet → Nat
  | [] => 0
  | item :: rest => max (depth item) (depthOfItems rest)

end
end CharSet

namespace Pattern

/-- Some patterns one after the other. -/
def ofParts : List Pattern → Pattern
  | [] => empty
  | [p] => p
  | ps => sequence ps

/-- One of some patterns. -/
def ofBranches : List Pattern → Pattern
  | [] => empty
  | [p] => p
  | ps => choice ps

mutual

def depth : Pattern → Nat
  | set s => s.depth
  | group _ inner => depth inner + 1
  | repeated p => depth p + 1
  | sequence ps => depthOfParts ps + 1
  | choice ps => depthOfParts ps + 1
  | _ => 0

def depthOfParts : List Pattern → Nat
  | [] => 0
  | p :: rest => max (depth p) (depthOfParts rest)

end
end Pattern
end ProofOfWork
