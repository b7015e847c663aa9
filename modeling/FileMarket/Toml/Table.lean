/-!
# Tables of a TOML document

The values of a document and how its lines build up the tables. A key can be set only
once, and a table can be opened by a header only once.
-/

namespace FileMarket

/-- How a table came about. -/
inductive TableOrigin where
  /-- By a header of its own. -/
  | header
  /-- As part of the path in a header. -/
  | implied
  /-- By a dotted key. -/
  | dotted
  /-- In braces; nothing can be added to it later. -/
  | inline
deriving DecidableEq, Repr

/-- A value of a document. -/
inductive Toml where
  | text (s : String)
  | integer (n : Int)
  /-- A fraction, a truth value, a date or a time. -/
  | scalar
  | array (items : List Toml)
  | table (origin : TableOrigin) (fields : List (String × Toml))
  /-- The tables that headers in double brackets have made. -/
  | tables (entries : List (List (String × Toml)))
deriving Inhabited

namespace Toml

/-- The keys of a table with their values. -/
abbrev Fields := List (String × Toml)

/-- Sets a key, in place of its present value if it has one. -/
def put (key : String) (value : Toml) : Fields → Fields
  | [] => [(key, value)]
  | (k, v) :: rest => if k = key then (key, value) :: rest else (k, v) :: put key value rest

/-- The fields of a table that a dotted key may lead through. -/
def throughDotted? : Option Toml → Option Fields
  | none => some []
  | some (.table .implied fields) | some (.table .dotted fields) => some fields
  | _ => none

/-- Sets a dotted key that has no value yet. The table that it ends in must have come
about by dotted keys. -/
def assign : List String → Toml → Fields → Option Fields
  | [], _, _ => none
  | [key], value, fields =>
    if (fields.lookup key).isSome then none else some (put key value fields)
  | [key, last], value, fields => match fields.lookup key with
    | none => some (put key (.table .dotted [(last, value)]) fields)
    | some (.table .dotted inner) =>
      if (inner.lookup last).isSome then none
      else some (put key (.table .dotted (put last value inner)) fields)
    | _ => none
  | key :: path, value, fields => do
    let inner ← throughDotted? (fields.lookup key)
    let origin := match fields.lookup key with
      | some (.table origin _) => origin
      | _ => .dotted
    return put key (.table origin (← assign path value inner)) fields

/-- Changes the table that the path of a header leads to. A table that is missing on the
way is made, and tables in double brackets stand for their last entry. -/
def alter (change : Fields → Option Fields) : List String → Fields → Option Fields
  | [], fields => change fields
  | key :: path, fields => match fields.lookup key with
    | none => do return put key (.table .implied (← alter change path [])) fields
    | some (.table .inline _) => none
    | some (.table origin inner) => do
      return put key (.table origin (← alter change path inner)) fields
    | some (.tables entries) => match entries.reverse with
      | [] => none
      | last :: front => do
        return put key (.tables (front.reverse ++ [← alter change path last])) fields
    | some _ => none

/-- Opens a table by a header. -/
def openTable (key : String) (fields : Fields) : Option Fields :=
  match fields.lookup key with
  | none => some (put key (.table .header []) fields)
  | some (.table .implied inner) => some (put key (.table .header inner) fields)
  | some _ => none

/-- Adds an entry by a header in double brackets. -/
def openEntry (key : String) (fields : Fields) : Option Fields :=
  match fields.lookup key with
  | none => some (put key (.tables [[]]) fields)
  | some (.tables entries) => some (put key (.tables (entries ++ [[]])) fields)
  | some _ => none

end Toml

end FileMarket
