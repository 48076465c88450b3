/-!
# TOML values

The values of a TOML document. Floats, booleans and moments are well formed, and read as `other`. A
table remembers how it was begun, because that decides what a document may still add to it: a table
that only stands on the way to another one can still get a header, a table made by dotted names can
be extended by dotted names, and a table in braces is complete.
-/

namespace JobLedger.Toml

/-- How a table was begun. -/
inductive Origin where
  /-- It is on the way to a table with a header. -/
  | implied
  /-- It has a header. -/
  | headed
  /-- It is on the way to a value with a dotted name. -/
  | dotted
  /-- It stands in braces. -/
  | inline
  deriving DecidableEq, Repr

/-- A TOML value. -/
inductive Value where
  | text (s : String)
  | int (i : Int)
  | array (items : List Value)
  | table (origin : Origin) (members : List (String × Value))
  /-- A float, a boolean or a moment. -/
  | other

/-- The named values of a table, each name once. -/
abbrev Members := List (String × Value)

namespace Members

/-- The members with the value of a name replaced. -/
def replace (name : String) (value : Value) (members : Members) : Members :=
  members.map fun member => if member.1 = name then (name, value) else member

/-- Adds a value under a dotted name. Tables on the way are made; one that is there has to be made
by dotted names too, and the last name must be new. -/
def add? (value : Value) : List String → Members → Option Members
  | [], _ => none
  | [name], members =>
    if (members.lookup name).isSome then none else some (members ++ [(name, value)])
  | name :: rest, members =>
    match members.lookup name with
    | none => (add? value rest []).map fun inner => members ++ [(name, .table .dotted inner)]
    | some (.table .dotted inner) =>
      (add? value rest inner).map fun inner => replace name (.table .dotted inner) members
    | some _ => none

/-- Begins a table with a header. Tables on the way are made as far as they are missing; the last
name must be new, or that of a table that was only on the way so far. -/
def begin? : List String → Members → Option Members
  | [], _ => none
  | [name], members =>
    match members.lookup name with
    | none => some (members ++ [(name, .table .headed [])])
    | some (.table .implied inner) => some (replace name (.table .headed inner) members)
    | some _ => none
  | name :: rest, members =>
    match members.lookup name with
    | none => (begin? rest []).map fun inner => members ++ [(name, .table .implied inner)]
    | some (.table .inline _) => none
    | some (.table origin inner) =>
      (begin? rest inner).map fun inner => replace name (.table origin inner) members
    | some _ => none

/-- Adds a value under a dotted name to the table with a given header. -/
def addUnder? (value : Value) (path : List String) : List String → Members → Option Members
  | [], members => add? value path members
  | name :: rest, members =>
    match members.lookup name with
    | some (.table origin inner) =>
      (addUnder? value path rest inner).map fun inner => replace name (.table origin inner) members
    | _ => none

end Members

end JobLedger.Toml
