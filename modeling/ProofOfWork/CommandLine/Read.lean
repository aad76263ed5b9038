import ProofOfWork.CommandLine.Basic
import ProofOfWork.CommandLine.Level
import ProofOfWork.Duration.Text
set_option autoImplicit false

/-!
Command lines from their arguments. Options may be given on both levels, before and after the name of
the command; the inner ones count more, and the environment counts where neither level gives an
option.
-/
namespace ProofOfWork
open Text

namespace Effect
variable {α β : Type}

/-- A value that is read and put into its place. -/
def reading (read : List Char → Except UsageFault β) (place : α → Option β) (put : β → α → α) :
    Effect α :=
  .value (fun given => (place given).isSome) fun text given => (read text).map (put · given)

end Effect

namespace Flag

/-- What was read, or the fault of a value that cannot be read. -/
def readable {β ε : Type} : Except ε β → Except UsageFault β
  | .ok b => .ok b
  | .error _ => .error .unreadableValue

/-- One of some alternatives, by its exact name. -/
def alternative {β : Type} (all : List β) (name : β → String) (text : List Char) :
    Except UsageFault β :=
  match named? all name text with
  | some b => .ok b
  | none => .error .invalidValue

def anyText (text : List Char) : Except UsageFault (List Char) := .ok text

def someText (text : List Char) : Except UsageFault (List Char) :=
  if text.isEmpty then .error .invalidValue else .ok text

def word (text : List Char) : Except UsageFault UInt64 := readable (readWord64 text)

def duration (text : List Char) : Except UsageFault Duration :=
  match Duration.read? text with
  | some d => .ok d
  | none => .error .unreadableValue

def help {α : Type} : Flag α where
  short := some 'h'
  long := "help"
  effect := .ask .helpWanted

def version {α : Type} : Flag α where
  short := some 'V'
  long := "version"
  effect := .ask .versionWanted

end Flag

open ProofOfWork.Flag

def CommonOptions.flags : List (Flag CommonOptions) := [
  { short := some 'c'
    long := "config"
    setting := some "PLUTONIUM_CONFIG"
    effect := .reading someText (·.config) fun path o => { o with config := some path } },
  { short := some 'a'
    long := "algorithm"
    setting := some "PLUTONIUM_ALGORITHM"
    effect := .reading (alternative HashAlgorithm.all HashAlgorithm.name) (·.algorithm)
      fun a o => { o with algorithm := some a } },
  { short := some 't'
    long := "target"
    setting := some "PLUTONIUM_TARGET"
    effect := .reading (fun text => readable (TargetSpec.read text)) (·.target)
      fun t o => { o with target := some t } },
  { short := some 'j'
    long := "threads"
    setting := some "PLUTONIUM_THREADS"
    effect := .reading word (·.threads) fun n o => { o with threads := some n } },
  { long := "mode"
    effect := .reading (alternative SearchMode.all SearchMode.name) (·.mode)
      fun m o => { o with mode := some m } },
  { short := some 'l'
    long := "log-level"
    effect := .reading (alternative LogLevel.all LogLevel.name) (·.logLevel)
      fun l o => { o with logLevel := some l } },
  { long := "log-format"
    effect := .reading (alternative LogFormat.all LogFormat.name) (·.logFormat)
      fun f o => { o with logFormat := some f } },
  { long := "print-config"
    effect := .switch (·.printConfig) fun o => { o with printConfig := true } }]

structure MineOptions where
  data : Option (List Char) := none
  maxAttempts : Option UInt64 := none
  start : Option UInt64 := none

namespace MineOptions

def flags : List (Flag MineOptions) := [
  { short := some 'd'
    long := "data"
    effect := .reading anyText (·.data) fun data o => { o with data := some data } },
  { short := some 'n'
    long := "max-attempts"
    effect := .reading word (·.maxAttempts) fun n o => { o with maxAttempts := some n } },
  { long := "start"
    effect := .reading word (·.start) fun n o => { o with start := some n } }]

def command (o : MineOptions) : Except UsageFault Command :=
  match o.data with
  | some data => .ok (.mine data o.maxAttempts (o.start.getD 0))
  | none => .error .missingFlag

end MineOptions

structure VerifyOptions where
  data : Option (List Char) := none
  nonce : Option UInt64 := none
  digest : Option (List Char) := none

namespace VerifyOptions

def flags : List (Flag VerifyOptions) := [
  { short := some 'd'
    long := "data"
    effect := .reading anyText (·.data) fun data o => { o with data := some data } },
  { short := some 'n'
    long := "nonce"
    effect := .reading word (·.nonce) fun n o => { o with nonce := some n } },
  { long := "digest"
    effect := .reading anyText (·.digest) fun digest o => { o with digest := some digest } }]

def command (o : VerifyOptions) : Except UsageFault Command :=
  match o.data, o.nonce, o.digest with
  | some data, some nonce, some digest => .ok (.verify data nonce digest)
  | _, _, _ => .error .missingFlag

end VerifyOptions

structure RunOptions where
  rounds : Option UInt64 := none
  payload : Option (List Char) := none
  targetPeriod : Option Duration := none
  noRetarget : Bool := false
  json : Bool := false

namespace RunOptions

def flags : List (Flag RunOptions) := [
  { short := some 'r'
    long := "rounds"
    effect := .reading word (·.rounds) fun n o => { o with rounds := some n } },
  { short := some 'p'
    long := "payload"
    effect := .reading anyText (·.payload) fun payload o => { o with payload := some payload } },
  { long := "target-period"
    effect := .reading duration (·.targetPeriod) fun d o => { o with targetPeriod := some d } },
  { long := "no-retarget"
    effect := .switch (·.noRetarget) fun o => { o with noRetarget := true } },
  { long := "json"
    effect := .switch (·.json) fun o => { o with json := true } }]

def command (o : RunOptions) : Except UsageFault Command :=
  .ok (.run (o.rounds.getD 10) (o.payload.getD "plutonium".toList) o.targetPeriod o.noRetarget o.json)

end RunOptions

namespace CommandLine

/-- The level of a command: flags of its own, the common ones, and help. -/
def inner {τ : Type} (own : List (Flag τ)) : Level (CommonOptions × τ) where
  flags :=
    own.map (Flag.within Prod.snd fun o given => (given.1, o)) ++
      CommonOptions.flags.map (Flag.within Prod.fst fun o given => (o, given.2)) ++ [Flag.help]
  commands := []

/-- What the arguments of a command come to. An unreadable environment is refused here too. -/
def readInner {τ : Type} (own : List (Flag τ)) (empty : τ) (command : τ → Except UsageFault Command)
    (setting : String → Option (List Char)) (arguments : List (List Char)) :
    Except UsageFault (CommonOptions × Command) := do
  let level := inner own
  let (taken, _) ← level.read arguments { given := ({}, empty) }
  let given ← taken.settle
  let _ ← level.fallBack setting given
  return (given.1, ← command given.2)

def readCommand (setting : String → Option (List Char)) (arguments : List (List Char)) :
    CommandName → Except UsageFault (CommonOptions × Command)
  | .mine => readInner MineOptions.flags {} MineOptions.command setting arguments
  | .verify => readInner VerifyOptions.flags {} VerifyOptions.command setting arguments
  | .run => readInner RunOptions.flags {} RunOptions.command setting arguments
  | .test => readInner [] () (fun _ => .ok .test) setting arguments
  | .miner => readInner [] () (fun _ => .ok .miner) setting arguments

def helpName : List Char := "help".toList

/-- The first level: the common flags, help and version, and the names of the commands. -/
def outer : Level CommonOptions where
  flags := CommonOptions.flags ++ [Flag.help, Flag.version]
  commands := CommandName.all.map (fun name => name.text.toList) ++ [helpName]

/-- Help is shown on all commands or on one of them. -/
def helpFault : List (List Char) → UsageFault
  | [] => .helpWanted
  | [name] => if outer.commands.contains name then .helpWanted else .unknownCommand
  | _ => .unknownCommand

/-- What follows on the first level: the options of a command and that command, if there is one. -/
def readBranch (setting : String → Option (List Char)) :
    Option Branch → Except UsageFault (CommonOptions × Option Command)
  | none => .ok ({}, none)
  | some (name, arguments) =>
    match named? CommandName.all CommandName.text name with
    | none => .error (helpFault arguments)
    | some command => (readCommand setting arguments command).map fun (o, command) => (o, some command)

/-- The command line of some arguments, in an environment. -/
def read (setting : String → Option (List Char)) (arguments : List (List Char)) :
    Except UsageFault CommandLine := do
  let (taken, branch) ← outer.read arguments { given := {} }
  let (options, command) ← readBranch setting branch
  let fallback ← outer.fallBack setting (← taken.settle)
  return { toCommonOptions := options.over fallback, command }

end CommandLine
end ProofOfWork
