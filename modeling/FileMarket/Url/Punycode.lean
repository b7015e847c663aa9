import FileMarket.Text.Lowercase

/-!
# ASCII forms of domain labels

A label with characters beyond ASCII is written as its ASCII characters, a hyphen, and
the others as a chain of distances in ascending order, each a number of variable
length in base 36.
-/

namespace FileMarket.Punycode

open FileMarket.Text

/-- The digit with a given value: letters come before decimal digits. -/
def digit (n : Nat) : Char := Char.ofNat (if n < 26 then 0x61 + n else 0x16 + n)

/-- Divides a distance by 35 until it is at most 455, and counts the divisions. -/
def shrink (delta steps : Nat) : Nat × Nat :=
  if 455 < delta then shrink (delta / 35) (steps + 1) else (delta, steps)
termination_by delta
decreasing_by omega

/-- The bias for the next distance. -/
def adapt (delta count : Nat) (first : Bool) : Nat :=
  let start := if first then delta / 700 else delta / 2
  let (delta, steps) := shrink (start + start / count) 0
  36 * steps + 36 * delta / (delta + 38)

/-- The threshold of the digit at a place, from the bias. -/
def threshold (place bias : Nat) : Nat := max 1 (min 26 (36 * (place + 1) - bias))

/-- A number of variable length: a digit below its threshold is the last. -/
def writeNumber (bias : Nat) : Nat → Nat → Nat → List Char
  | 0, _, q => [digit q]
  | fuel + 1, place, q =>
    let t := threshold place bias
    if q < t then [digit q]
    else digit (t + (q - t) % (36 - t)) :: writeNumber bias fuel (place + 1) ((q - t) / (36 - t))

/-- The state of writing the distances: what is written, the distance so far, the
bias, and how many characters have their place. -/
structure Chain where
  written : List Char
  delta : Nat
  bias : Nat
  placed : Nat

/-- Passes all characters of a label for one code: smaller ones lengthen the distance,
equal ones are written. -/
def Chain.pass (basic code : Nat) (chain : Chain) (c : Char) : Chain :=
  if c.toNat < code then { chain with delta := chain.delta + 1 }
  else if c.toNat = code then
    { written := chain.written ++ writeNumber chain.bias chain.delta 0 chain.delta
      delta := 0
      bias := adapt chain.delta (chain.placed + 1) (chain.placed == basic)
      placed := chain.placed + 1 }
  else chain

/-- Goes through the codes beyond ASCII of a label in ascending order. -/
def Chain.run (label : List Char) (basic : Nat) : Nat → List Nat → Chain → Chain
  | _, [], chain => chain
  | next, code :: codes, chain =>
    let chain := { chain with delta := chain.delta + (code - next) * (chain.placed + 1) }
    let chain := label.foldl (Chain.pass basic code) chain
    run label basic (code + 1) codes { chain with delta := chain.delta + 1 }

/-- The written form of a label. -/
def encode (label : List Char) : List Char :=
  let ascii := label.filter fun c => c.toNat < 0x80
  let codes := ((label.map Char.toNat).filter (0x80 ≤ ·)).mergeSort.eraseDups
  let chain := Chain.run label ascii.length 0x80 codes ⟨[], 0, 72, ascii.length⟩
  ascii ++ (if ascii.isEmpty then [] else ['-']) ++ chain.written

/-- The ASCII form of a domain, in lower case. -/
def domain (s : List Char) : List Char :=
  let labels := (s.flatMap lowerChar).splitOn '.'
  ['.'].intercalate (labels.map fun label =>
    if label.all fun c => c.toNat < 0x80 then label else "xn--".toList ++ encode label)

end FileMarket.Punycode
