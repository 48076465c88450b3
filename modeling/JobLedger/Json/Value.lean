/-!
# JSON values

The values that a JSON text denotes. Numbers are kept where they are integers and strings where they
are Unicode text; what a well-formed text may hold besides is kept as `other`, which no record takes
as the value of a field. Members of an object keep their order, and a name may occur twice.
-/

namespace JobLedger.Json

/-- A JSON value. -/
inductive Value where
  | null
  | bool (b : Bool)
  | int (i : Int)
  | text (s : String)
  | array (items : List Value)
  | object (members : List (String × Value))
  /-- A number with a fraction, an exponent or a negative zero, a string that is no Unicode text,
  or an object with such a string as a name. -/
  | other

namespace Value

/-- The entries that a record with fields of the given names takes from a value. An object gives
each field at most one entry, and its members of other names are passed over; an array gives every
field one entry, in order. -/
def columns? (names : List String) : Value → Option (List (Option Value))
  | object members =>
    names.mapM fun name =>
      match members.filter fun member => member.1 = name with
      | [] => some none
      | [member] => some (some member.2)
      | _ => none
  | array items => if items.length = names.length then some (items.map some) else none
  | _ => none

end Value

end JobLedger.Json
