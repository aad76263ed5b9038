import ProofOfWork.CommandLine.Help
import ProofOfWork.Config.Load
import ProofOfWork.Document.Json.Text
import ProofOfWork.Document.Results
import ProofOfWork.Document.Yaml.Text
import ProofOfWork.Hasher
import ProofOfWork.Program.World
import ProofOfWork.Session.Run
set_option autoImplicit false

namespace ProofOfWork

def SearchOutcome.lines (o : SearchOutcome) : List String :=
  let attempts := o.attempts.toNat
  let elapsed := o.elapsed.text
  let rate := o.hashRate.text
  let result := match o.result with
    | .found nonce digest =>
      let nonce := nonce.text
      let digest := String.ofList digest.hex
      s!"Found nonce {nonce} digest {digest}"
    | .exhausted => s!"Exhausted after {attempts} attempts"
  [result, s!"{attempts} attempts in {elapsed} ({rate})"]

def Document.Json.prettyLines (v : Document.Value) : List String :=
  ((pretty 0 v).splitOn '\n').map String.ofList

def Document.Yaml.textLines (v : Document.Value) : List String := (lines v).map String.ofList

namespace SessionReport

def lines (json : Bool) (r : SessionReport) : List String :=
  if json then Document.Json.prettyLines r.toDocument else Document.Yaml.textLines r.toDocument

def events (r : SessionReport) : List LogEvent :=
  let rounds := r.rounds.length
  let solutions := r.solutions
  let requested := r.roundsRequested.toNat
  let rate := r.hashRate.text
  let cancelled : List LogEvent := if r.cancelled then
      [{ level := .warn, source := .program, message := s!"Session cancelled after {rounds} rounds" }]
    else []
  cancelled ++
    [{ level := .info
       source := .program
       message := s!"{solutions} of {requested} rounds solved, {rate}" }]

end SessionReport

def startEvent : LogEvent where
  level := .info
  source := .program
  message := "Starting " ++ programName ++ " v" ++ programVersion

namespace Program
variable {m : Type → Type} [Monad m]

/-- Mines data from a nonce on. -/
def mine (host : Host m) (config : Config) (e : Engine) (data : List Char) (start : UInt64) :
    m Ending := do
  match Payload.read data with
  | .error fault => return .ofError fault
  | .ok data =>
    let searched ← e.searchOn host
      { data, start := ⟨start⟩, maxAttempts := config.maxAttempts, token := .idle }
    match searched.answer with
    | .error fault => return .ofError fault
    | .ok o => return { lines := o.lines }

/-- Checks a claimed solution; the run fails unless it is valid. -/
def verify (host : Host m) (e : Engine) (data : List Char) (nonce : UInt64) (digest : List Char) :
    m Ending := do
  match Payload.read data with
  | .error fault => return .ofError fault
  | .ok data =>
    match Digest.ofHex digest with
    | .error fault => return .ofError fault
    | .ok claimed =>
      let v ← e.verdictOn host data ⟨nonce⟩ claimed
      return { code := if v.isValid then 0 else 1, lines := [v.text] }

/-- Runs a session and prints its report. -/
def session (w : World m) (host : UInt64 → Host m) (config : SessionConfig) (e : Engine)
    (payload : List Char) (rounds : UInt64) (json : Bool) : m Ending := do
  match Payload.read payload with
  | .error fault => return .ofError fault
  | .ok payload =>
    match config.check with
    | .error fault => return .ofError fault
    | .ok () =>
      let ended ← Session.runOn host w.timed config e payload rounds .idle
      match ended.report with
      | .error fault => return .ofError fault
      | .ok report =>
        report.events.forM (host rounds).tell
        return { lines := report.lines json }

/-- Mines the fixed payload and checks the solution. -/
def test (host : Host m) (e : Engine) : m Ending := do
  match (← SelfTest.passesOn host e).1 with
  | .error fault => return .ofError fault
  | .ok passed => return { lines := [if passed then "Test 1" else "Test 0"] }

/-- Mines the fixed payload and prints the record. -/
def miner (host : Host m) (config : Config) (e : Engine) : m Ending := do
  match (← SelfTest.mineOn host e SelfTest.payload config.maxAttempts).1 with
  | .error fault => return .ofError fault
  | .ok made => return { lines := ["Miner " ++ String.ofList (Document.Json.compact made.toDocument)] }

def perform (w : World m) (host : UInt64 → Host m) (config : Config) (e : Engine) :
    Command → m Ending
  | .mine data _ start => mine (host 0) config e data start
  | .verify data nonce digest => verify (host 0) e data nonce digest
  | .run rounds payload _ _ json => session w host config.session e payload rounds json
  | .test => test (host 0) e
  | .miner => miner (host 0) config e

def follow (w : World m) (line : CommandLine) (config : Config) : m Ending := do
  if line.printConfig then
    return { lines := Document.Yaml.textLines config.toDocument ++ [""] }
  match line.command with
  | none => return { code := 1, lines := CommandLine.help }
  | some command =>
    let filter := LogFilter.choose (w.setting "RUST_LOG") config.logging.level.name.toList
    let host := w.host filter config.logging.format
    (host 0).tell startEvent
    match config.makeEngine w.cores with
    | .error _ => return .failed "Failed to build mining engine"
    | .ok e =>
      (host 0).tell e.announcement
      perform w host config e command

/-- What a command line leaves that is not followed. -/
def unfollowed : UsageFault → Ending
  | .helpWanted => { lines := CommandLine.help }
  | .versionWanted => { lines := [CommandLine.versionLine] }
  | fault => { code := 2, complaint := some ("error: " ++ fault.message) }

def run (w : World m) (arguments : List (List Char)) : m Ending := do
  match CommandLine.read w.setting arguments with
  | .error fault => return unfollowed fault
  | .ok line =>
    match ← Config.load w.contents line with
    | .error _ => return .failed "Failed to load configuration"
    | .ok config => follow w line config

end Program
end ProofOfWork
