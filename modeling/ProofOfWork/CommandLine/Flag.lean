set_option autoImplicit false

namespace ProofOfWork

/-- Why a command line is not followed: it is wrong, or it asks for a text and nothing else. -/
inductive UsageFault where
  /-- An argument that is no flag, no command and no value. -/
  | unknownArgument
  /-- A command that there is not. -/
  | unknownCommand
  /-- No value, or none of the alternatives. -/
  | invalidValue
  /-- A value that cannot be read. -/
  | unreadableValue
  /-- A value for a flag that takes none. -/
  | needlessValue
  /-- A flag that is given twice. -/
  | repeatedFlag
  /-- A flag that has to be given and is not. -/
  | missingFlag
  | helpWanted
  | versionWanted
  deriving DecidableEq, Repr

/-- What a flag does to what has been given. -/
inductive Effect (α : Type) where
  /-- The flag takes a value. -/
  | value (isGiven : α → Bool) (take : List Char → α → Except UsageFault α)
  /-- The flag says all by itself. -/
  | switch (isGiven : α → Bool) (take : α → α)
  /-- The flag asks for a text. -/
  | ask (fault : UsageFault)

structure Flag (α : Type) where
  /-- The letter after one dash. -/
  short : Option Char := none
  /-- The name after two dashes. -/
  long : String
  /-- The environment variable that stands for the flag where it is not given. -/
  setting : Option String := none
  effect : Effect α

namespace Effect
variable {α β : Type}

def takesValue : Effect α → Bool
  | .value .. => true
  | _ => false

def within (part : β → α) (put : α → β → β) : Effect α → Effect β
  | .value isGiven take =>
    .value (isGiven ∘ part) fun text given => (take text (part given)).map (put · given)
  | .switch isGiven take => .switch (isGiven ∘ part) fun given => put (take (part given)) given
  | .ask fault => .ask fault

/-- A value given to a flag that takes one, and no value to one that takes none; no flag is given
twice. -/
def accept (given : α) : Effect α → Option (List Char) → Except UsageFault α
  | .value _ _, none => .error .invalidValue
  | .value isGiven take, some text => if isGiven given then .error .repeatedFlag else take text given
  | .switch isGiven take, none => if isGiven given then .error .repeatedFlag else .ok (take given)
  | .ask fault, none => .error fault
  | .switch .., some _ => .error .needlessValue
  | .ask _, some _ => .error .needlessValue

end Effect

namespace Flag
variable {α β : Type}

def within (part : β → α) (put : α → β → β) (f : Flag α) : Flag β where
  short := f.short
  long := f.long
  setting := f.setting
  effect := f.effect.within part put

/-- What the environment says where the flag is not given. -/
def fallBack (setting : String → Option (List Char)) (f : Flag α) (given : α) :
    Except UsageFault α :=
  match f.effect, f.setting.bind setting with
  | .value isGiven take, some text => if isGiven given then .ok given else take text given
  | _, _ => .ok given

end Flag
end ProofOfWork
