import ProofOfWork.Config.Basic
import ProofOfWork.Document.Access
import ProofOfWork.Duration.Text
set_option autoImplicit false

namespace ProofOfWork
open Document

variable {α : Type}

def Duration.ofDocument? (a : Access α) (v : α) : Option Duration := a.readText? Duration.read? v

def HashAlgorithm.ofDocument? (a : Access α) (v : α) : Option HashAlgorithm :=
  a.oneOf? HashAlgorithm.all HashAlgorithm.name v

def SearchMode.ofDocument? (a : Access α) (v : α) : Option SearchMode :=
  a.oneOf? SearchMode.all SearchMode.name v

def LogLevel.ofDocument? (a : Access α) (v : α) : Option LogLevel :=
  a.oneOf? LogLevel.all LogLevel.name v

def LogFormat.ofDocument? (a : Access α) (v : α) : Option LogFormat :=
  a.oneOf? LogFormat.all LogFormat.name v

def TargetSpec.ofDocument? (a : Access α) (v : α) : Option TargetSpec :=
  a.readText? (fun text => (TargetSpec.read text).toOption) v

namespace EngineConfig

def toDocument (c : EngineConfig) : Value :=
  .record [("threads", .natural c.threads.toNat), ("batch_size", .natural c.batch.toNat),
    ("mode", .word c.mode.name)]

def ofDocument? (a : Access α) (v : α) : Option EngineConfig := do
  let field ← a.record? ["threads", "batch_size", "mode"] v
  return {
    threads := ← field? 0 a.word? (field "threads")
    batch := ← field? 1000 a.word? (field "batch_size")
    mode := ← field? default (SearchMode.ofDocument? a) (field "mode") }

end EngineConfig

namespace SessionConfig

def toDocument (c : SessionConfig) : Value :=
  .record [("max_attempts", .natural c.maxAttempts.toNat), ("retarget", .boolean c.retarget),
    ("target_period", .word c.targetPeriod.text), ("tolerance", .real c.tolerance)]

def ofDocument? (a : Access α) (v : α) : Option SessionConfig := do
  let field ← a.record? ["max_attempts", "retarget", "target_period", "tolerance"] v
  return {
    maxAttempts := ← field? 1000000 a.word? (field "max_attempts")
    retarget := ← field? true a.boolean? (field "retarget")
    targetPeriod := ← field? (.ofSeconds 1) (Duration.ofDocument? a) (field "target_period")
    tolerance := ← field? 0.25 a.real? (field "tolerance") }

end SessionConfig

namespace LoggingConfig

def toDocument (c : LoggingConfig) : Value :=
  .record [("level", .word c.level.name), ("format", .word c.format.name)]

def ofDocument? (a : Access α) (v : α) : Option LoggingConfig := do
  let field ← a.record? ["level", "format"] v
  return {
    level := ← field? default (LogLevel.ofDocument? a) (field "level")
    format := ← field? default (LogFormat.ofDocument? a) (field "format") }

end LoggingConfig

namespace Config

def toDocument (c : Config) : Value :=
  .record [("algorithm", .word c.algorithm.name), ("target", .text c.target.text),
    ("max_attempts", .natural c.maxAttempts.toNat), ("engine", c.engine.toDocument),
    ("session", c.session.toDocument), ("logging", c.logging.toDocument)]

def ofDocument? (a : Access α) (v : α) : Option Config := do
  let field ← a.record? ["algorithm", "target", "max_attempts", "engine", "session", "logging"] v
  return {
    algorithm := ← field? default (HashAlgorithm.ofDocument? a) (field "algorithm")
    target := ← field? default (TargetSpec.ofDocument? a) (field "target")
    maxAttempts := ← field? 10000000 a.word? (field "max_attempts")
    engine := ← field? {} (EngineConfig.ofDocument? a) (field "engine")
    session := ← field? {} (SessionConfig.ofDocument? a) (field "session")
    logging := ← field? {} (LoggingConfig.ofDocument? a) (field "logging") }

end Config
end ProofOfWork
