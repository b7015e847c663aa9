import FileMarket.Filter.Criteria

/-!
# Arguments of the command line

The options that come before the name of a task, and those and the plain arguments that
belong to it. A word that begins with a hyphen is never the value of an option unless an
equals sign joins the two; behind `--` every word is a plain argument.
-/

namespace FileMarket.CommandLine

/-- Why the arguments make no sense. -/
inductive UsageFault where
  | unknownOption (word : String)
  | unknownTask (word : String)
  | surplus (word : String)
  | repeated (option : String)
  | missingValue (option : String)
  | needlessValue (option : String)
  | missing (argument : String)
deriving DecidableEq, Repr

/-- The wording of a fault. -/
def UsageFault.message : UsageFault → String
  | .unknownOption word => "unknown option " ++ word
  | .unknownTask word => "unknown task " ++ word
  | .surplus word => "unexpected argument " ++ word
  | .repeated option => "--" ++ option ++ " is given more than once"
  | .missingValue option => "--" ++ option ++ " needs a value"
  | .needlessValue option => "--" ++ option ++ " takes no value"
  | .missing argument => "missing " ++ argument

/-- Which options a task has. -/
structure Options where
  /-- Those that take a value. -/
  valued : List String
  /-- Those that are there or not. -/
  flags : List String

/-- Arguments by their kind. -/
structure Collected where
  values : List (String × String)
  flags : List String
  plain : List String
deriving DecidableEq, Repr

namespace Collected

/-- No arguments. -/
def empty : Collected := ⟨[], [], []⟩

/-- Adds the value of an option, which can have only one. -/
def addValue (c : Collected) (name value : String) : Except UsageFault Collected :=
  if (c.values.lookup name).isSome then .error (.repeated name)
  else .ok { c with values := c.values ++ [(name, value)] }

/-- Adds a flag, which can be given only once. -/
def addFlag (c : Collected) (name : String) : Except UsageFault Collected :=
  if name ∈ c.flags then .error (.repeated name) else .ok { c with flags := c.flags ++ [name] }

/-- Adds a plain argument. -/
def addPlain (c : Collected) (word : String) : Collected := { c with plain := c.plain ++ [word] }

/-- Whether a flag is given. -/
def has (c : Collected) (name : String) : Bool := c.flags.contains name

/-- The value of an option. -/
def value? (c : Collected) (name : String) : Option String := c.values.lookup name

end Collected

/-- A word of the command line by its form. -/
inductive Word where
  | plain (text : String)
  /-- The mark behind which all words are plain. -/
  | mark
  | long (name : String) (value : Option String)
  | short (letters : List Char)
deriving DecidableEq, Repr

/-- The form of a word. A hyphen alone is plain. -/
def Word.read (word : String) : Word :=
  match word.toList with
  | ['-', '-'] => .mark
  | '-' :: '-' :: rest =>
    match rest.dropWhile (· != '=') with
    | [] => .long (String.ofList rest) none
    | _ :: value => .long (String.ofList (rest.takeWhile (· != '='))) (some (String.ofList value))
  | '-' :: c :: rest => .short (c :: rest)
  | _ => .plain word

/-- Sorts the words behind the name of a task by their kind. -/
def Options.collect (options : Options) (c : Collected) :
    List String → Except UsageFault Collected
  | [] => .ok c
  | word :: rest => match Word.read word with
    | .plain text => options.collect (c.addPlain text) rest
    | .mark => .ok (rest.foldl Collected.addPlain c)
    | .short _ => .error (.unknownOption word)
    | .long name value =>
      if name ∈ options.flags then
        if value.isSome then .error (.needlessValue name)
        else do options.collect (← c.addFlag name) rest
      else if name ∈ options.valued then
        match value, rest with
        | some value, rest => do options.collect (← c.addValue name value) rest
        | none, next :: rest => match Word.read next with
          | .plain text => do options.collect (← c.addValue name text) rest
          | _ => .error (.missingValue name)
        | none, [] => .error (.missingValue name)
      else .error (.unknownOption word)

/-- What the user asks for. -/
inductive Task where
  | list (target : String) (filters : List (FilterField × String)) (column : Option String)
      (descending : Bool)
  | wallet
  | download (hash : String) (peer : Option String) (yes : Bool)
  | delete (target : String) (hashes : List String) (yes : Bool)
  | host (source hash price : String) (yes : Bool)
  | share (source hash : String) (yes : Bool)
deriving DecidableEq, Repr

namespace Task

/-- The option for each filter control. -/
def filterOption : FilterField → String
  | .type => "type"
  | .size => "size"
  | .date => "date"
  | .price => "price"
  | .downloads => "downloads"

/-- The section that files are hosted and shared from unless another one is named. -/
def defaultSource : String := "storing"

/-- Refuses plain arguments that have no place. -/
def noMore : List String → Except UsageFault Unit
  | [] => .ok ()
  | word :: _ => .error (.surplus word)

/-- The first plain argument, and the others. -/
def first (argument : String) : List String → Except UsageFault (String × List String)
  | [] => .error (.missing argument)
  | word :: rest => .ok (word, rest)

/-- The only plain argument. -/
def only (argument : String) (plain : List String) : Except UsageFault String := do
  let (word, rest) ← first argument plain
  noMore rest
  return word

/-- The filter settings among the options, in the order of the controls. -/
def filters (c : Collected) : List (FilterField × String) :=
  FilterField.all.filterMap fun field => (c.value? (filterOption field)).map (field, ·)

/-- Reads the arguments of the task with a given name. -/
def read (name : String) (words : List String) : Except UsageFault Task := do
  match name with
  | "list" =>
    let options : Options := ⟨"sort" :: FilterField.all.map filterOption, ["desc"]⟩
    let c ← options.collect .empty words
    return .list (← only "the section" c.plain) (filters c) (c.value? "sort") (c.has "desc")
  | "wallet" =>
    let c ← Options.collect ⟨[], []⟩ .empty words
    noMore c.plain
    return .wallet
  | "download" =>
    let c ← Options.collect ⟨["peer"], ["yes"]⟩ .empty words
    return .download (← only "the hash" c.plain) (c.value? "peer") (c.has "yes")
  | "delete" =>
    let c ← Options.collect ⟨[], ["yes"]⟩ .empty words
    let (target, hashes) ← first "the section" c.plain
    if hashes.isEmpty then throw (.missing "the hashes")
    return .delete target hashes (c.has "yes")
  | "host" =>
    let c ← Options.collect ⟨["price", "from"], ["yes"]⟩ .empty words
    let hash ← only "the hash" c.plain
    match c.value? "price" with
    | some price =>
      return .host ((c.value? "from").getD defaultSource) hash price (c.has "yes")
    | none => throw (.missing "--price")
  | "share" =>
    let c ← Options.collect ⟨["from"], ["yes"]⟩ .empty words
    let hash ← only "the hash" c.plain
    return .share ((c.value? "from").getD defaultSource) hash (c.has "yes")
  | name => throw (.unknownTask name)

end Task

/-- The arguments of a run. -/
structure Arguments where
  api : Option String
  downloadDir : Option String
  /-- How often more log text is asked for. -/
  verbosity : Nat
  task : Task
deriving DecidableEq, Repr

namespace Arguments

/-- The options before the name of a task, as far as they have been read. -/
structure Draft where
  given : Collected
  verbosity : Nat

/-- Adds the value of an option. A path cannot be empty. -/
def Draft.addValue (draft : Draft) (name value : String) : Except UsageFault Draft :=
  if name = "download-dir" ∧ value.isEmpty then .error (.missingValue name)
  else (draft.given.addValue name value).map fun given => { draft with given := given }

/-- Reads the words of the command line. -/
def readFrom (draft : Draft) : List String → Except UsageFault Arguments
  | [] => .error (.missing "the task")
  | word :: rest => match Word.read word with
    | .plain name => do
      let task ← Task.read name rest
      return ⟨draft.given.value? "api", draft.given.value? "download-dir", draft.verbosity, task⟩
    | .mark => .error (.missing "the task")
    | .short letters =>
      if letters.all (· == 'v') then
        readFrom { draft with verbosity := draft.verbosity + letters.length } rest
      else .error (.unknownOption word)
    | .long name value =>
      if name = "verbose" then
        if value.isSome then .error (.needlessValue name)
        else readFrom { draft with verbosity := draft.verbosity + 1 } rest
      else if name = "api" ∨ name = "download-dir" then
        match value, rest with
        | some value, rest => do readFrom (← draft.addValue name value) rest
        | none, next :: rest => match Word.read next with
          | .plain text => do readFrom (← draft.addValue name text) rest
          | _ => .error (.missingValue name)
        | none, [] => .error (.missingValue name)
      else .error (.unknownOption word)

/-- Reads the words of the command line behind the program's name. -/
def read (words : List String) : Except UsageFault Arguments := readFrom ⟨.empty, 0⟩ words

end Arguments

end FileMarket.CommandLine
