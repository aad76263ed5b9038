import ProofOfWork.CommandLine.Basic
import ProofOfWork.Config.Basic
set_option autoImplicit false

namespace ProofOfWork.Config

/-- The settings that the options of any command replace. -/
def withOptions (o : CommonOptions) (c : Config) : Config :=
  { c with
    algorithm := o.algorithm.getD c.algorithm
    target := o.target.getD c.target
    engine := { c.engine with
      threads := o.threads.getD c.engine.threads
      mode := o.mode.getD c.engine.mode }
    logging := {
      level := o.logLevel.getD c.logging.level
      format := o.logFormat.getD c.logging.format } }

/-- The settings that a command replaces. -/
def withCommand (c : Config) : Command → Config
  | .mine _ maxAttempts _ => { c with maxAttempts := maxAttempts.getD c.maxAttempts }
  | .run _ _ targetPeriod noRetarget _ =>
    { c with session := { c.session with
        targetPeriod := targetPeriod.getD c.session.targetPeriod
        retarget := c.session.retarget && !noRetarget } }
  | _ => c

def override (line : CommandLine) (c : Config) : Config :=
  let c := c.withOptions line.toCommonOptions
  match line.command with
  | some command => c.withCommand command
  | none => c

end ProofOfWork.Config
