import ProofOfWork.CommandLine.Flag
import ProofOfWork.Text.Basic
set_option autoImplicit false

/-!
The arguments of one level of a command line: its flags with their values, up to the name of a
command. A value that stands apart from its flag is only looked at when the next flag comes, or when
the level ends.
-/
namespace ProofOfWork

structure Level (α : Type) where
  flags : List (Flag α)
  /-- The names of the commands that may follow. -/
  commands : List (List Char)

/-- What has been taken from a level so far. -/
structure Taken (α : Type) where
  given : α
  /-- The last flag, if its value stands apart, and that value if it has come. -/
  pending : Option (Effect α × Option (List Char)) := none

/-- The name of a command and the arguments after it. -/
abbrev Branch := List Char × List (List Char)

namespace Taken
variable {α : Type}

def awaits (t : Taken α) : Bool :=
  match t.pending with
  | some (_, none) => true
  | _ => false

def settle (t : Taken α) : Except UsageFault α :=
  match t.pending with
  | none => .ok t.given
  | some (effect, value) => effect.accept t.given value

/-- The next flag, with the value that is attached to it. -/
def meet (t : Taken α) (effect : Effect α) (attached : Option (List Char)) :
    Except UsageFault (Taken α) := do
  if !effect.takesValue && attached.isSome then throw .needlessValue
  let given ← t.settle
  if effect.takesValue && attached.isNone then return { given, pending := some (effect, none) }
  else return { given := ← effect.accept given attached }

end Taken

namespace Level
variable {α : Type}

def short? (l : Level α) (c : Char) : Option (Effect α) :=
  (l.flags.find? fun f => f.short = some c).map Flag.effect

def long? (l : Level α) (name : List Char) : Option (Effect α) :=
  (l.flags.find? fun f => f.long.toList = name).map Flag.effect

/-- The value attached to a letter, with or without an equals sign. -/
def attachedTo : List Char → Option (List Char)
  | [] => none
  | '=' :: value => some value
  | value => some value

/-- The letters after one dash; the first that takes a value takes what follows. -/
def letters (l : Level α) : List Char → Taken α → Except UsageFault (Taken α)
  | [], t => .ok t
  | c :: rest, t =>
    match l.short? c with
    | none => .error .unknownArgument
    | some effect =>
      if effect.takesValue then t.meet effect (attachedTo rest)
      else do l.letters rest (← t.meet effect none)

/-- What is wrong with an argument that has no place; `afterDashes` if two dashes stand before it. -/
def stray (l : Level α) (afterDashes : Bool) (argument : List Char) : UsageFault :=
  if l.commands.isEmpty || (afterDashes && l.commands.contains argument) then .unknownArgument
  else .unknownCommand

/-- The arguments up to the name of a command, and that name with the arguments after it. -/
def read (l : Level α) : List (List Char) → Taken α → Except UsageFault (Taken α × Option Branch)
  | [], t => .ok (t, none)
  | argument :: rest, t =>
    if !t.awaits && l.commands.contains argument then .ok (t, some (argument, rest))
    else match argument with
      | ['-', '-'] =>
        match rest with
        | [] => .ok (t, none)
        | next :: _ => .error (l.stray true next)
      | '-' :: '-' :: text =>
        let (name, value) := match Text.splitAt? '=' text with
          | some (name, value) => (name, some value)
          | none => (text, none)
        match l.long? name with
        | none => .error .unknownArgument
        | some effect => do l.read rest (← t.meet effect value)
      | '-' :: c :: cluster => do l.read rest (← l.letters (c :: cluster) t)
      | value =>
        match t.pending with
        | some (effect, none) => l.read rest { t with pending := some (effect, some value) }
        | _ => .error (l.stray false value)

/-- What the environment says for the flags that are not given. -/
def fallBack (l : Level α) (setting : String → Option (List Char)) (given : α) :
    Except UsageFault α :=
  l.flags.foldlM (fun given f => f.fallBack setting given) given

end Level
end ProofOfWork
