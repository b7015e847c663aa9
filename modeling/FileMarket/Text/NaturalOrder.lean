import FileMarket.Text.Lowercase

/-!
# Natural order of names

Names are compared without regard to case and with runs of digits taken as
numbers, so `file2` comes before `file10`. A name is cut into chunks, one per
digit run and one per other character; the chunk lists are compared
lexicographically, and names with equal chunks by their characters.
-/

namespace FileMarket.Text

/-- A piece of a name: a run of digits, or one other character in lower case. -/
inductive Chunk where
  | digits (run : List Char)
  | letter (lower : List Char)
deriving DecidableEq, Repr

/-- The chunks of a name, in order. -/
def chunks : List Char → List Chunk
  | [] => []
  | c :: rest =>
    if c.isDigit then
      match chunks rest with
      | .digits run :: more => .digits (c :: run) :: more
      | more => .digits [c] :: more
    else .letter (lowerChar c) :: chunks rest

/-- Digit runs by the number they denote, then by their length, so that of two
spellings of a number the one with fewer leading zeros comes first. Numbers are
compared by their significant digits and never converted. -/
def compareRuns (a b : List Char) : Ordering :=
  let a' := a.dropWhile (· == '0')
  let b' := b.dropWhile (· == '0')
  (compare a'.length b'.length).then ((compare a' b').then (compare a.length b.length))

/-- The characters that decide between chunks of different kinds. -/
def Chunk.front : Chunk → List Char
  | .digits run => run.take 1
  | .letter lower => lower

/-- The order of two chunks. -/
def Chunk.compare : Chunk → Chunk → Ordering
  | .digits a, .digits b => compareRuns a b
  | a, b => Ord.compare a.front b.front

/-- The order of two names up to case and leading zeros of nothing but their chunks. -/
def compareFolded (a b : List Char) : Ordering :=
  List.compareLex Chunk.compare (chunks a) (chunks b)

/-- The natural order. Names that differ only in case are told apart by their characters. -/
def naturalCompare (a b : String) : Ordering :=
  (compareFolded a.toList b.toList).then (compare a.toList b.toList)

end FileMarket.Text
