import FileMarket.Desk.Drive

/-!
# Programs of the command line

A program works at a desk and with a console: it prints text, asks for lines that the
user types, and can fail. What was printed and what the node was told before a failure
stays.
-/

namespace FileMarket.CommandLine

open FileMarket.Text

/-- What a program works with. -/
structure Console (σ : Type) where
  world : World σ
  /-- What is typed and not yet read. -/
  typed : List Char
  printed : String
  /-- The server's state and the text printed when a line was first asked for and there
  was none. -/
  starved : Option (σ × String)

/-- A console on which nothing has been printed. -/
def Console.start {σ : Type} (world : World σ) (typed : List Char) : Console σ :=
  ⟨world, typed, "", none⟩

/-- Why a program fails. -/
inductive Fault where
  | refused (error : MarketError)
  | notLoaded (target : Section) (error : MarketError)
  /-- The desk says why in its line of status. -/
  | told (status : String)
  | notNumber (fault : CountFault)
  | noProvider (number : Nat)
deriving DecidableEq, Repr

/-- The wording of a fault. -/
def Fault.message : Fault → String
  | .refused error => error.message
  | .notLoaded target error => "failed to load " ++ target.label ++ ": " ++ error.message
  | .told status => status
  | .notNumber fault => "not a number: " ++ fault.message
  | .noProvider number => "no provider " ++ toString number

/-- A program with a result. -/
abbrev Program (σ : Type) := EStateM Fault (Console σ)

/-- The node that programs talk to, and the day they run on. -/
structure Client (σ : Type) where
  node : Node σ
  today : Date

variable {σ α : Type}

/-- Goes on with the value of an operation, or fails as it does. -/
def orRefuse : Outcome α → Program σ α
  | .ok value => return value
  | .error error => throw (.refused error)

/-- Prints a text. -/
def print (text : String) : Program σ Unit :=
  modify fun console => { console with printed := console.printed ++ text }

/-- Prints a line. -/
def printLine (line : String) : Program σ Unit := print (line ++ "\n")

/-- The console after its next line has been read. -/
def Console.afterLine (console : Console σ) : Console σ :=
  { console with
    typed := (console.typed.dropWhile (· != '\n')).drop 1
    starved := if console.typed.isEmpty then
        console.starved.or (some (console.world.server, console.printed))
      else console.starved }

/-- The next line typed, without its line break; empty when nothing is left. -/
def readLine : Program σ String :=
  modifyGet fun console =>
    (String.ofList (console.typed.takeWhile (· != '\n')), console.afterLine)

/-- Asks a question, and gives the answer without outer blanks. -/
def ask (question : String) : Program σ String := do
  print question
  return trim (← readLine)

/-- Asks whether to go on. Anything but yes is a no. -/
def confirm (question : String) : Program σ Bool := do
  let answer := lowerAscii (← ask (question ++ " [y/N] "))
  return answer = "y" || answer = "yes"

namespace Client

variable (client : Client σ)

/-- Carries out a command at the desk, and all that follows from it. -/
def perform (desk : Desk) (command : Command) : Program σ Desk :=
  modifyGet fun console =>
    let (desk, world) := desk.dispatch client.node client.today console.world command
    (desk, { console with world := world })

/-- A desk with a section that has been listed. -/
def openDesk (target : Section) : Program σ Desk := do
  let desk ← modifyGet fun console =>
    let (desk, jobs) := Desk.opened target
    let (desk, world) := desk.drive client.node client.today console.world jobs []
    (desk, { console with world := world })
  match desk.grid.error with
  | some error => throw (.notLoaded target error)
  | none => return desk

/-- Puts one question to the node. -/
def call (question : Call) : Program σ question.Answer := do
  let answer ← modifyGet fun console =>
    let (answer, server) := client.node question console.world.server
    (answer, { console with world := { console.world with server := server } })
  orRefuse answer

end Client

end FileMarket.CommandLine
