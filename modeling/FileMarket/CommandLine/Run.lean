import FileMarket.CommandLine.Arguments
import FileMarket.CommandLine.Tasks
import FileMarket.Config
import FileMarket.Http.Transport

/-!
# Runs of the command line

A run reads its arguments and settings, carries out one task against the node, and ends
with a code: 0 when all went well, 1 when the task failed, 2 when the arguments make no
sense.
-/

namespace FileMarket.CommandLine

/-- The program of a task. -/
def Client.program {σ : Type} (client : Client σ) : Task → Program σ Unit
  | .list target filters column descending => client.list target filters column descending
  | .wallet => client.wallet
  | .download hash peer yes => client.download hash peer yes
  | .delete target hashes yes => client.delete target hashes yes
  | .host source hash price yes => client.host source hash price yes
  | .share source hash yes => client.share source hash yes

/-- Where a run takes its settings from. -/
structure Surroundings where
  home : String
  configFile : ConfigSource
  environment : String → Option String
  /-- What stands under the path of the download directory. -/
  directoryAt : String → Directory
  today : Date

/-- Why a run stops before its task. -/
inductive SetupFault where
  | config (fault : ConfigFault)
  | badUrl (url : String) (error : MarketError)
deriving DecidableEq, Repr

/-- The wording of a fault. -/
def SetupFault.message : SetupFault → String
  | .config fault => fault.message
  | .badUrl url error => "cannot use api url " ++ url ++ ": " ++ error.message

/-- The settings for a run: arguments come before the environment and the file. -/
def settings (around : Surroundings) (arguments : Arguments) : Except SetupFault Config := do
  let config ← (Config.load around.home around.configFile around.environment).mapError .config
  let config := { config with
    apiUrl := arguments.api.getD config.apiUrl
    downloadDir := arguments.downloadDir.getD config.downloadDir }
  config.validate.mapError .config
  return config

/-- The node's base URL in the settings. -/
def baseUrl (config : Config) : Except SetupFault Url :=
  (Http.readBase config.apiUrl).mapError (.badUrl config.apiUrl)

/-- How a run ended: its code, what it complained about, and the console it leaves. -/
structure Ending (σ : Type) where
  code : Nat
  complaint : String
  console : Console σ

/-- The complaint about a failure. -/
def complaintOf (message : String) : String := "error: " ++ message ++ "\n"

/-- Carries out a task and ends the run. -/
def Client.finish {σ : Type} (client : Client σ) (task : Task) (console : Console σ) : Ending σ :=
  match (client.program task).run console with
  | .ok _ console => ⟨0, "", console⟩
  | .error fault console => ⟨1, complaintOf fault.message, console⟩

/-- A whole run with the given words, by the plain client over a wire. -/
def run {σ : Type} (around : Surroundings) (transport : Http.Transport σ) (server : σ)
    (typed : List Char) (words : List String) : Ending σ :=
  let stopped (code : Nat) (message : String) : Ending σ :=
    ⟨code, complaintOf message, .start ⟨server, .absent ""⟩ typed⟩
  match Arguments.read words with
  | .error fault => stopped 2 fault.message
  | .ok arguments => match settings around arguments with
    | .error fault => stopped 1 fault.message
    | .ok config => match baseUrl config with
      | .error fault => stopped 1 fault.message
      | .ok base =>
        let client : Client σ := ⟨Http.node base transport, around.today⟩
        client.finish arguments.task (.start ⟨server, around.directoryAt config.downloadDir⟩ typed)

end FileMarket.CommandLine
