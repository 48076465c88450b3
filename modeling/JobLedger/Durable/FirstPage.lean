import JobLedger.Durable.Settings
import JobLedger.Text.Utf8

/-!
# First pages

A database that was made elsewhere comes as a file of pages. The first page has a header of a
hundred octets, which says how large the pages are, how many of them there are and how the journal is
kept, and behind it the list of tables. Only a database without tables is taken over, so the first
page is all that is read of it.

Octets that the file does not have are zeros.
-/

namespace JobLedger.FirstPage

open Text

/-- The number in so many octets from a position on, the most significant first. -/
def numberAt (content : Octets) (position count : Nat) : Nat :=
  (List.range count).foldl (fun n k => 256 * n + (content[position + k]?.getD 0).toNat) 0

/-- What the file of a database starts with. -/
def title : Octets := octets "SQLite format 3\x00".toList

/-- The sizes that a page may have. -/
def sizes : List Nat := [512, 1024, 2048, 4096, 8192, 16384, 32768, 65536]

/-- The number in two octets where zero stands for what is too large for them. -/
def orLargest (n : Nat) : Nat := if n = 0 then 65536 else n

variable (content : Octets)

/-- The size of the pages. The octets of the number are swapped where it is too large for them. -/
def pageSize : Nat :=
  256 * (numberAt content 16 1 + 256 * numberAt content 17 1)

/-- The octets of a page that are used. -/
def usableSize : Nat := pageSize content - numberAt content 20 1

/-- The pages that the file has, the last one perhaps in part. -/
def pagesHeld : Nat := (content.length + pageSize content - 1) / pageSize content

/-- The pages that there are to be. The header says so as far as it is up to date. -/
def pageCount : Nat :=
  let stated := numberAt content 28 4
  if stated ≠ 0 ∧ numberAt content 24 4 = numberAt content 92 4 then stated else pagesHeld content

/-- The header is one of a database that can be read. -/
def hasHeader : Bool :=
  title.isPrefixOf content && numberAt content 19 1 ≤ 2 && numberAt content 21 3 = 0x402020 &&
    sizes.contains (pageSize content) && 480 ≤ usableSize content &&
    pageCount content ≤ pagesHeld content && numberAt content 47 1 ≤ 4

/-- There are no tables. -/
def isBare : Bool := numberAt content 100 1 = 13 && numberAt content 103 2 = 0

/-- Tables can be added: the database may be written, no page and no part of the first one waits to
be used again, and what is free on that is where it can be. -/
def hasRoom : Bool :=
  let top := orLargest (numberAt content 105 2) + numberAt content 107 1
  numberAt content 18 1 ≤ 2 && numberAt content 36 4 = 0 && numberAt content 101 2 = 0 &&
    numberAt content 52 4 ≤ pageCount content && 108 ≤ top && top ≤ usableSize content

/-- How the journal of a database without tables is kept. -/
def journalMode? : Option JournalMode :=
  if hasHeader content && isBare content then
    some (if numberAt content 19 1 = 2 then .wal else .delete)
  else none

end JobLedger.FirstPage
