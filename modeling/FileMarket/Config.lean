import FileMarket.Storage.Directory
import FileMarket.Text.Blank
import FileMarket.Text.Utf8
import FileMarket.Toml.Reader

/-!
# Configuration

Where the node is, where downloads go, and how long to wait for an answer. A setting
comes from the environment, else from the configuration file, else from the defaults.
-/

namespace FileMarket

open Text

/-- The settings. -/
structure Config where
  apiUrl : String
  downloadDir : String
  timeoutSeconds : Nat
deriving DecidableEq, Repr

/-- Why the settings cannot be used. -/
inductive ConfigFault where
  /-- The file is there but its text cannot be had. -/
  | unreadable (path : String)
  /-- The text is no document, or a setting has the wrong type. -/
  | malformed (path : String)
  | emptyUrl
  | noTimeout
deriving DecidableEq, Repr

/-- The wording of a fault. -/
def ConfigFault.message : ConfigFault → String
  | .unreadable path => "failed to read " ++ path
  | .malformed path => "failed to parse " ++ path
  | .emptyUrl => "api_url must not be empty"
  | .noTimeout => "request_timeout_secs must be positive"

/-- What stands under the path of the configuration file. -/
inductive ConfigSource where
  | missing
  | unreadable
  | content (octets : List UInt8)

namespace Config

/-- The variable that overrides the node's URL. -/
def urlVariable : String := "ORCANET_API_URL"

/-- The variable that overrides the download directory. -/
def downloadVariable : String := "ORCANET_DOWNLOAD_DIR"

/-- The application's folder in a home directory. -/
def appDir (home : String) : String := joinPath home ".orcanet"

/-- The path of the configuration file. -/
def path (home : String) : String := joinPath (appDir home) "config.toml"

/-- The settings without file and environment. -/
def default (home : String) : Config where
  apiUrl := "http://localhost:3001"
  downloadDir := joinPath (appDir home) "downloads"
  timeoutSeconds := 30

/-- Refuses settings that cannot work. -/
def validate (config : Config) : Except ConfigFault Unit :=
  if allBlank config.apiUrl then .error .emptyUrl
  else if config.timeoutSeconds = 0 then .error .noTimeout
  else .ok ()

/-- A text setting; one that is not set is the default. -/
def textSetting? (key : String) (default : String) (fields : Toml.Fields) : Option String :=
  match fields.lookup key with
  | none => some default
  | some (.text s) => some s
  | some _ => none

/-- A setting that counts something. -/
def countSetting? (key : String) (default : Nat) (fields : Toml.Fields) : Option Nat :=
  match fields.lookup key with
  | none => some default
  | some (.integer n) => if 0 ≤ n then some n.toNat else none
  | some _ => none

/-- The settings in a document; unknown keys are passed over. -/
def ofFields? (home : String) (fields : Toml.Fields) : Option Config := do
  let standard := default home
  return {
    apiUrl := ← textSetting? "api_url" standard.apiUrl fields
    downloadDir := ← textSetting? "download_dir" standard.downloadDir fields
    timeoutSeconds := ← countSetting? "request_timeout_secs" standard.timeoutSeconds fields }

/-- Reads the configuration file. A file that is missing leaves the defaults, which are
not examined; the settings of a file must be usable before the environment is looked at. -/
def read (home : String) : ConfigSource → Except ConfigFault Config
  | .missing => .ok (default home)
  | .unreadable => .error (.unreadable (path home))
  | .content octets => do
    if !isUtf8 octets then throw (.unreadable (path home))
    match (Toml.parse? (ofUtf8 octets)).bind (ofFields? home) with
    | some config =>
      config.validate
      return config
    | none => throw (.malformed (path home))

/-- The settings with those that the environment overrides. A blank variable counts as
unset. -/
def override (config : Config) (environment : String → Option String) : Config :=
  let given (name : String) : Option String := (environment name).filter fun s => !allBlank s
  { config with
    apiUrl := (given urlVariable).getD config.apiUrl
    downloadDir := (given downloadVariable).getD config.downloadDir }

/-- The settings from file and environment. -/
def load (home : String) (source : ConfigSource) (environment : String → Option String) :
    Except ConfigFault Config :=
  (read home source).map (override · environment)

end Config

end FileMarket
