import HttpLifecycle.Config.Decode
import HttpLifecycle.Document.Json
import HttpLifecycle.Document.Toml

namespace HttpLifecycle.Config

inductive Content where
  | missing
  | directory
  | bytes (b : ByteArray)

def Content.read : Content → Except Error String
  | missing => .error (.unreadable .notFound)
  | directory => .error (.unreadable .isDirectory)
  | bytes b => ((String.fromUTF8? b).map Except.ok).getD (.error (.unreadable .notText))

def steps (name : String) : List String :=
  (name.splitOn "/").filter fun step => step != "" && step != "."

/-- What follows the last dot in the last step of a path. A dot at its start
begins the name, and a step up is no file's name. -/
def extension (name : String) : String :=
  let file := (((steps name).getLast?.filter (· != "..")).getD "").toList.reverse
  let before := file.dropWhile (· != '.')
  if before.length ≤ 1 then "" else String.ofList (file.takeWhile (· != '.')).reverse

/-- Lists in a TOML file may be longer than the record they stand for. -/
def ofToml (s : String) : Except Error Config :=
  match (Document.Toml.parse? s).bind (decode? .ignored) with
  | some c => .ok c
  | none => .error .malformedToml

def ofJson (s : String) : Except Error Config :=
  match (Document.Json.parse? s).bind (decode? .refused) with
  | some c => .ok c
  | none => .error .malformedJson

/-- Loads the settings in a file. A path that names no file leads to a directory.
The format goes by the extension, in any case of letters, and is looked at only
once the file was read. -/
def load (name : String) (content : Content) : Except Error Config := do
  let s ← (if (steps name).all (· == "..") then Content.directory else content).read
  let config ←
    match (extension name).toLower with
    | "toml" => ofToml s
    | "json" => ofJson s
    | _ =>
      .error (.invalidConfig ("unsupported config file extension: " ++ extension name))
  config.validate
  return config

end HttpLifecycle.Config
