import FileMarket.CommandLine.Playback
import FileMarket.Http.Octets
import Std.Async.DNS
import Std.Async.TCP
import Std.Time.Zoned

/-!
# The command line

The outer layer: it finds the settings and the day, shows text, reads lines, sends
requests, and writes the files of a purchase.
-/

namespace FileMarket

open CommandLine

/-- Today's date where the user is. -/
def currentDay : IO Date := do
  let day ← Std.Time.PlainDate.now
  return (Date.of? day.year.toInt day.month.val.toNat day.day.val.toNat).getD Date.first

/-- What stands under the path of the configuration file. -/
def readConfigFile (path : String) : IO ConfigSource := do
  try
    return .content (← IO.FS.readBinFile path).toList
  catch _ =>
    let place := (← IO.currentDir) / path
    return if ← place.pathExists then .unreadable else .missing

/-- The names in a directory; of what stands under them only the kind counts. -/
def readDirectory (path : String) : IO Directory := do
  let place := (← IO.currentDir) / path
  if !(← place.isDir) then return .absent path
  let entries ← (← place.readDir).mapM fun entry => do
    return (entry.fileName, if ← entry.path.isDir then Entry.folder [] else Entry.file [])
  return ⟨path, true, entries.toList⟩

/-- Writes the files that are not in the directory yet. -/
def writeNewFiles (before after : Directory) : IO Unit := do
  if after.isMade && !after.path.isEmpty then IO.FS.createDirAll after.path
  for (name, entry) in after.entries do
    if (before.entries.get? name).isNone then
      if let .file data := entry then
        IO.FS.writeBinFile (after.pathOf name) data.toByteArray

/-- The addresses of the sockets that a URL points to. A host in brackets is an address. -/
def addressesOf (url : Url) : Std.Async.Async (List Std.Net.SocketAddress) := do
  match url.authority with
  | none => return []
  | some authority =>
    let host := ((authority.host.dropPrefix "[").dropSuffix "]").toString
    let portNumber := UInt16.ofNat (authority.portNumber.getD 80)
    let addresses ← Std.Async.DNS.getAddrInfo host ""
    return addresses.toList.map fun
      | .v4 address => .v4 ⟨address, portNumber⟩
      | .v6 address => .v6 ⟨address, portNumber⟩

/-- Connects to the first of the addresses that accepts. -/
def connectAny : List Std.Net.SocketAddress →
    Std.Async.Async (Option Std.Async.TCP.Socket.Client)
  | [] => return none
  | address :: rest => do
    try
      let client ← Std.Async.TCP.Socket.Client.mk
      client.connect address
      return some client
    catch _ => connectAny rest

/-- Reads until a reply is complete. -/
partial def readReply (client : Std.Async.TCP.Socket.Client) (octets : List UInt8) :
    Std.Async.Async (Option Http.Reply) := do
  match Http.Reply.ofOctets? false octets with
  | some reply => return some reply
  | none =>
    match ← client.recv? 65536 with
    | some more => readReply client (octets ++ more.toList)
    | none => return Http.Reply.ofOctets? true octets

/-- Sends a request and waits for its reply. Nobody answers where no connection can be
made, and none is made to a node that asks for encryption. -/
def exchange (request : Http.Request) : IO (Option Http.Reply) := do
  if request.url.scheme ≠ "http" then return none
  let talk : Std.Async.Async (Option Http.Reply) := do
    match ← connectAny (← addressesOf request.url) with
    | none => return none
    | some client =>
      client.send request.octets.toByteArray
      readReply client []
  try talk.block
  catch _ => return none

/-- Shows the part of a text that has not been shown. -/
def showFrom (shown : Nat) (printed : String) : IO Unit := do
  let output ← IO.getStdout
  output.putStr (printed.drop shown).toString
  output.flush

/-- Plays a run, and gives it what it asks for, until it has ended. -/
partial def perform (around : Surroundings) (words : List String) (shown : Nat)
    (transcript : Transcript) : IO UInt32 := do
  match next around words transcript with
  | .send request =>
    let reply ← exchange request
    perform around words shown { transcript with replies := transcript.replies ++ [reply] }
  | .read printed =>
    showFrom shown printed
    let line ← (← IO.getStdin).getLine
    perform around words printed.length
      { transcript with typed := transcript.typed ++ line.toList, closed := line.isEmpty }
  | .finish ending =>
    let after := ending.console.world.directory
    try
      writeNewFiles (around.directoryAt after.path) after
      showFrom shown ending.console.printed
      (← IO.getStderr).putStr ending.complaint
      return UInt32.ofNat ending.code
    catch error =>
      (← IO.getStderr).putStr (complaintOf (MarketError.storage error.toString).message)
      return 1

/-- The surroundings of the program. The download directory is read once its path is known. -/
def surroundings (words : List String) : IO Surroundings := do
  let home := (← IO.getEnv "HOME").getD ""
  let url ← IO.getEnv Config.urlVariable
  let dir ← IO.getEnv Config.downloadVariable
  let environment (name : String) : Option String :=
    if name = Config.urlVariable then url
    else if name = Config.downloadVariable then dir
    else none
  let around : Surroundings :=
    ⟨home, ← readConfigFile (Config.path home), environment, .absent, ← currentDay⟩
  let config? := do settings around (← (Arguments.read words).toOption) |>.toOption
  match config? with
  | some config =>
    let directory ← readDirectory config.downloadDir
    return { around with directoryAt := fun _ => directory }
  | none => return around

end FileMarket

/-- Runs the command line. -/
def main (words : List String) : IO UInt32 := do
  let around ← FileMarket.surroundings words
  FileMarket.perform around words 0 ⟨[], [], false⟩
