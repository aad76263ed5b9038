import ProofOfWork.CommandLine.Read
set_option autoImplicit false

namespace ProofOfWork

def programName : String := "plutonium"

def programVersion : String := "0.1.0"

def Flag.usage {α : Type} (f : Flag α) : String :=
  let short := match f.short with
    | some c => "-" ++ c.toString ++ ", "
    | none => "    "
  let value := if f.effect.takesValue then " <VALUE>" else ""
  short ++ "--" ++ f.long ++ value

namespace CommandName

def purpose : CommandName → String
  | .mine => "Search for a nonce whose digest meets the target"
  | .verify => "Check a claimed solution"
  | .run => "Mine several rounds, retargeting between them"
  | .test => "Self-check, prints \x60Test 1\x60 on success"
  | .miner => "Mine the default payload, prints \x60Miner <record>\x60"

def usage : CommandName → List String
  | .mine => MineOptions.flags.map Flag.usage
  | .verify => VerifyOptions.flags.map Flag.usage
  | .run => RunOptions.flags.map Flag.usage
  | .test | .miner => []

end CommandName

namespace CommandLine

def help : List String :=
  ["Deterministic proof-of-work miner and verifier", "",
    "Usage: " ++ programName ++ " [OPTIONS] [COMMAND]", "", "Commands:"] ++
  (CommandName.all.flatMap fun command =>
    ("  " ++ command.text ++ ": " ++ command.purpose) :: command.usage.map ("      " ++ ·)) ++
  ["  help: Print this message", "", "Options:"] ++ outer.flags.map fun f => "  " ++ f.usage

def versionLine : String := programName ++ " " ++ programVersion

end CommandLine

def UsageFault.message : UsageFault → String
  | .unknownArgument => "unexpected argument found"
  | .unknownCommand => "unrecognized subcommand"
  | .invalidValue => "invalid value for an option"
  | .unreadableValue => "a value cannot be read"
  | .needlessValue => "a value for an option that takes none"
  | .repeatedFlag => "an option cannot be used multiple times"
  | .missingFlag => "a required option was not provided"
  | .helpWanted | .versionWanted => "a text is asked for"

end ProofOfWork
