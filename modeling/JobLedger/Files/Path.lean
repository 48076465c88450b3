import JobLedger.Text.Cut

/-!
# Paths

A path is a text of names with slashes between them. A name that is empty or a single dot leads
nowhere, two dots lead to the directory above, and a slash in front leads to the root. The parent of
a path is the path without its last name.
-/

namespace JobLedger.Files

open Text

/-- The names of a path, in order; at least one. -/
def segments (path : String) : List String := (parts '/' path.toList).map String.ofList

/-- The name leads nowhere. -/
def isIdle (name : String) : Bool := name = "" || name = "."

/-- The path starts at the root. -/
def isRooted (path : String) : Bool := path.toList.head? = some '/'

/-- Names without the idle ones at their end. -/
def dropIdleEnd (names : List String) : List String :=
  (names.reverse.dropWhile isIdle).reverse

/-- The path without its last name. Neither the root nor the empty path has one. A dot counts as a
name where it comes first. -/
def parent? (path : String) : Option String :=
  match segments path with
  | [] => none
  | first :: others =>
    match dropIdleEnd others with
    | [] => if first = "" then none else some ""
    | names =>
      match first, dropIdleEnd names.dropLast with
      | "", [] => some "/"
      | _, kept => some ("/".intercalate (first :: kept))

/-- The most octets of a name. -/
def nameLimit : Nat := 255

/-- The most octets of a path in a setting. -/
def pathLimit : Nat := 4096

/-- A path has a name that is too long. -/
def hasLongName (path : String) : Bool :=
  (segments path).any fun name => nameLimit < name.utf8ByteSize

/-- No file can be looked up under a path: it is empty, too long for a request, or holds the
character that ends one. -/
def isUnusable (path : String) : Bool :=
  path = "" || pathLimit ≤ path.utf8ByteSize || path.toList.contains '\x00'

end JobLedger.Files
