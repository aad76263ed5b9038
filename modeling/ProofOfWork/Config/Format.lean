import ProofOfWork.Document.Json.Read
import ProofOfWork.Document.Settings
import ProofOfWork.Document.Toml.Read
import ProofOfWork.Document.Yaml.Node
set_option autoImplicit false

namespace ProofOfWork

inductive ConfigFormat where
  | yaml
  | json
  | toml
  deriving DecidableEq, Repr

namespace ConfigFormat

def title : ConfigFormat → String
  | .yaml => "Yaml"
  | .json => "Json"
  | .toml => "Toml"

/-- The last component of a path that names something. -/
def fileName? (path : List Char) : Option (List Char) :=
  let named := (path.splitOn '/').filter fun part => !part.isEmpty && part != ['.']
  match named.getLast? with
  | some ['.', '.'] => none
  | last => last

/-- What follows the last dot of a name, unless the name only begins with that dot. -/
def extension? (name : List Char) : Option (List Char) :=
  let tail := name.reverse.takeWhile (· != '.')
  if tail.length + 1 < name.length then some tail.reverse else none

def ofPath (path : List Char) : Except Error ConfigFormat :=
  let extension := ((fileName? path).bind extension?).getD []
  match String.ofList extension with
  | "yaml" | "yml" => .ok .yaml
  | "json" => .ok .json
  | "toml" => .ok .toml
  | _ => .error (.setting (.unknownExtension extension))

end ConfigFormat

namespace Config

/-- The configuration that a text of a format stands for. -/
def parse (content : List Char) : ConfigFormat → Except Error Config
  | .yaml =>
    match (Document.Yaml.read? content).bind fun tree =>
      ofDocument? (Document.Yaml.access tree.named) tree.root with
    | some c => .ok c
    | none => .error (.yaml "")
  | .json =>
    match (Document.Json.read? content).bind (ofDocument? Document.Json.access) with
    | some c => .ok c
    | none => .error (.json "")
  | .toml =>
    match (Document.Toml.read? content).bind (ofDocument? Document.Toml.access) with
    | some c => .ok c
    | none => .error (.toml "")

end Config
end ProofOfWork
