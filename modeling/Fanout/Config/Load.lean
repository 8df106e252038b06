import Fanout.Config.OfToml
import Fanout.Config.OfYaml
import Fanout.Error
import Fanout.Text.Utf8

/-!
# Loading configurations

The name of a file says in which format it is written: TOML if its extension says so, and YAML
otherwise.
-/

namespace Fanout

/-- The format of a configuration file. -/
inductive ConfigFormat where
  | yaml
  | toml
deriving DecidableEq, Repr

/-- The name of the file a path leads to, if it leads to one. Dots that stand for the directory they
are in do not count. -/
def fileName? (path : String) : Option (List Char) :=
  let parts := path.toList.splitOn '/'
  match (parts.filter fun part => !part.isEmpty && part != ['.']).getLast? with
  | some ['.', '.'] => none
  | name => name

/-- What follows the last dot of a file name, unless the name starts with that dot. -/
def extension? (name : List Char) : Option (List Char) :=
  match (name.splitOn '.').reverse with
  | last :: before =>
    if before.all List.isEmpty && before.length ≤ 1 then none else some last
  | [] => none

/-- The format a path announces. -/
def ConfigFormat.ofPath (path : String) : ConfigFormat :=
  match (fileName? path).bind extension? with
  | some extension => if extension.map Char.toLower == "toml".toList then .toml else .yaml
  | none => .yaml

namespace Config

/-- The configuration in a file, by the file's path and what reading it gives. -/
def load (path : String) (contents : Except IoError (List UInt8)) : Except ConfigError Config := do
  let bytes ← contents.mapError (.io path)
  let text ← (Utf8.decode bytes).mapError fun _ => .io path .notText
  match ConfigFormat.ofPath path with
  | .yaml => (ofYaml text).mapError .yaml
  | .toml => (ofToml text).mapError .toml

end Config

end Fanout
