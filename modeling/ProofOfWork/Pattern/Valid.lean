import ProofOfWork.Pattern.Read
set_option autoImplicit false

/-!
Which patterns can be used. Nothing is known of the properties of characters beyond ASCII: a pattern
of characters must not ask for them. A pattern of bytes asks for ASCII only, and may match no
byte outside of it.
-/
namespace ProofOfWork

/-- The modes that decide whether a pattern can be used. -/
structure MatchModes where
  /-- Capital and small letters count as the same. -/
  foldsCase : Bool := false
  /-- Texts are characters, not bytes. -/
  ofChars : Bool := true

def MatchModes.change (m : MatchModes) (changes : ModeChanges) : MatchModes where
  foldsCase := (changes.lookup 'i').getD m.foldsCase
  ofChars := (changes.lookup 'u').getD m.ofChars

def isAscii (c : Char) : Bool := c.toNat < 128

namespace CharSet

mutual

/-- Whether a set that can be used has members, as far as that matters: where case is folded, no set
that has members can be. -/
def members? (m : MatchModes) : CharSet → Option Bool
  | empty => some false
  | letter c => if m.ofChars || isAscii c then some true else none
  | range first last => if m.ofChars || (isAscii first && isAscii last) then some true else none
  | named negated => if m.ofChars then (if m.foldsCase then none else some true)
    else if negated then none else some true
  | shorthand negated => if m.ofChars || negated then none else some true
  | property => none
  | union items => membersOfItems? m items
  | brackets negated inner => do
    let any ← members? m inner
    if m.ofChars then if m.foldsCase && any then none else some (any != negated)
    else if negated then none else some any
  | combined left right => do
    let some l := members? m left | none
    let some r := members? m right | none
    if m.ofChars && m.foldsCase && (l || r) then none else some (l || r)

def membersOfItems? (m : MatchModes) : List CharSet → Option Bool
  | [] => some false
  | item :: rest => do return (← members? m item) || (← membersOfItems? m rest)

end
end CharSet

namespace Pattern

mutual

/-- The modes after a pattern that can be used. -/
def modesAfter? (m : MatchModes) : Pattern → Option MatchModes
  | empty => some m
  | letter c byte =>
    if (if m.ofChars then m.foldsCase else byte && !isAscii c) then none else some m
  | anyLetter => if m.ofChars then some m else none
  | edge => some m
  | wordEdge => if m.ofChars then none else some m
  | set s => (s.members? m).map fun _ => m
  | modes changes => some (m.change changes)
  | group changes inner => (modesAfter? (m.change changes) inner).map fun _ => m
  | repeated p => modesAfter? m p
  | sequence ps => modesAfterParts? m ps
  | choice ps => modesAfterParts? m ps

def modesAfterParts? (m : MatchModes) : List Pattern → Option MatchModes
  | [] => some m
  | p :: rest => (modesAfter? m p).bind fun m => modesAfterParts? m rest

end

def depthLimit : Nat := 250

/-- Whether a pattern can be used. -/
def isValid (p : Pattern) : Bool := p.depth ≤ depthLimit && (p.modesAfter? {}).isSome

end Pattern
end ProofOfWork
