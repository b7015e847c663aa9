import FileMarket.Text.Ascii

/-!
# Numeric hosts

Addresses of version 4, whose numbers may be octal or hexadecimal and of which the
last fills up the octets left, and addresses of version 6, in which one run of zeros
may be left out.
-/

namespace FileMarket

open Text

/-- Whether all characters of a text that is not empty satisfy a test. -/
def allAndSome (test : Char → Bool) (s : List Char) : Bool := !s.isEmpty && s.all test

namespace Ipv4

/-- The value of digits in a base of at most sixteen. -/
def valueIn (base : Nat) (ds : List Char) : Nat :=
  ds.foldl (fun n c => base * n + (hexValue? c).getD 0) 0

/-- A number of an address: hexadecimal behind `0x`, octal behind `0`, else decimal. -/
def number? : List Char → Option Nat
  | [] => none
  | ['0'] => some 0
  | '0' :: x :: ds =>
    if x = 'x' ∨ x = 'X' then
      if ds.all fun c => (hexValue? c).isSome then some (valueIn 16 ds) else none
    else if (x :: ds).all fun c => '0' ≤ c && c ≤ '7' then some (valueIn 8 (x :: ds)) else none
  | ds => if ds.all Char.isDigit then some (digitsValue ds) else none

/-- The parts between the dots; a dot at the end does not count. -/
def parts (s : List Char) : List (List Char) :=
  let parts := s.splitOn '.'
  if parts.getLast? = some [] then parts.dropLast else parts

/-- Whether a host has to be read as an address: its last part is a number. -/
def isMeant (s : List Char) : Bool :=
  match (parts s).getLast? with
  | some last => allAndSome Char.isDigit last || (number? last).isSome
  | none => false

/-- The value of the numbers of an address. All but the last are octets. -/
def combine (numbers : List Nat) : Option Nat :=
  match numbers.reverse with
  | [] => none
  | last :: front =>
    if 3 < front.length ∨ front.any (255 < ·) ∨ Nat.pow 256 (4 - front.length) ≤ last then none
    else
      let high := front.reverse.zipIdx.map fun (n, i) => n * Nat.pow 256 (3 - i)
      some (high.foldl (· + ·) last)

/-- The address in a host. -/
def ofHost? (s : List Char) : Option Nat := ((parts s).mapM number?).bind combine

/-- The dotted form of an address. -/
def print (address : Nat) : String :=
  ".".intercalate ([3, 2, 1, 0].map fun i => toString (address / Nat.pow 256 i % 256))

end Ipv4

namespace Ipv6

/-- A piece of sixteen bits, from one to four hexadecimal digits. -/
def piece? (ds : List Char) : Option Nat :=
  if ds.isEmpty || 4 < ds.length then none else hexDigitsValue? ds

/-- An octet of an embedded address, without zeros at its front. -/
def octet? (ds : List Char) : Option Nat :=
  if allAndSome Char.isDigit ds && ds.length ≤ 3 && (ds.length == 1 || ds.head? != some '0') &&
      digitsValue ds ≤ 255 then
    some (digitsValue ds)
  else none

/-- The two pieces of an embedded address of version 4. -/
def embedded? (s : List Char) : Option (List Nat) := do
  match ← (s.splitOn '.').mapM octet? with
  | [a, b, c, d] => return [256 * a + b, 256 * c + d]
  | _ => none

/-- The pieces between colons; the last may be an embedded address where one may stand. -/
def pieces? (endsAddress : Bool) : List (List Char) → Option (List Nat)
  | [] => some []
  | [last] =>
    if endsAddress && last.contains '.' then embedded? last else (piece? last).map ([·])
  | ds :: rest => do
    let n ← piece? ds
    let ns ← pieces? endsAddress rest
    return n :: ns

/-- The pieces on one side of the gap. -/
def side? (endsAddress : Bool) (s : List Char) : Option (List Nat) :=
  if s.isEmpty then some [] else pieces? endsAddress (s.splitOn ':')

/-- The text before the first two colons, and the text behind them. -/
def splitGap : List Char → Option (List Char × List Char)
  | ':' :: ':' :: rest => some ([], rest)
  | c :: rest => (splitGap rest).map fun (before, after) => (c :: before, after)
  | [] => none

/-- The eight pieces of an address. A gap stands for at least one piece of zero. -/
def parse? (s : List Char) : Option (List Nat) :=
  match splitGap s with
  | none => do
    let ns ← pieces? true (s.splitOn ':')
    if ns.length = 8 then some ns else none
  | some (before, after) => do
    let front ← side? false before
    let back ← side? true after
    if 7 < front.length + back.length then none
    else return front ++ List.replicate (8 - front.length - back.length) 0 ++ back

/-- The number of zeros at the front. -/
def zeroRun (ns : List Nat) : Nat := (ns.takeWhile (· == 0)).length

/-- Where the first of the longest runs of zeros begins, and its length. -/
def longestRun (ns : List Nat) : Nat × Nat :=
  (List.range ns.length).foldl
    (fun best i => if best.2 < zeroRun (ns.drop i) then (i, zeroRun (ns.drop i)) else best) (0, 0)

/-- A piece without zeros at its front. -/
def printPiece (n : Nat) : String := String.ofList (Nat.toDigits 16 n)

/-- Pieces between colons. -/
def printPieces (ns : List Nat) : String := ":".intercalate (ns.map printPiece)

/-- The short form of an address: the longest run of at least two zeros is left out. -/
def print (ns : List Nat) : String :=
  let (start, length) := longestRun ns
  if length < 2 then printPieces ns
  else printPieces (ns.take start) ++ "::" ++ printPieces (ns.drop (start + length))

end Ipv6

end FileMarket
