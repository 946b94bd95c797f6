import JobLedger.Job.Record
/-!
# Listing queries

A filter and a page. Listings run from the newest job to the oldest, ties by identifier from the greatest.
-/
namespace JobLedger

/-- A filter on name and state, and the page of the matching records to show. -/
structure ListQuery where
  name : Option String := none
  state : Option JobState := none
  page : UInt32 := 1
  pageSize : UInt32 := 20
deriving DecidableEq

namespace ListQuery

def maxPageSize : Nat := 1000

/-- A page size brought into 1 to the greatest. -/
def clampSize (n : Nat) : Nat := max 1 (min n maxPageSize)

/-- A query for a page, with the number and the size of the page brought into range. -/
def ofPage (page pageSize : UInt32) : ListQuery where
  page := max page 1
  pageSize := UInt32.ofNat (clampSize pageSize.toNat)

def limit (q : ListQuery) : Nat := clampSize q.pageSize.toNat

/-- The number of records before the page. -/
def offset (q : ListQuery) : Nat := (max q.page.toNat 1 - 1) * q.limit

def accepts (q : ListQuery) (r : JobRecord) : Bool :=
  (q.name.all fun n => r.name == n) && (q.state.all fun s => r.state == s)

/-- Whether one record is listed no later than another. -/
def listedBefore (a b : JobRecord) : Bool :=
  ((b.createdAt.order a.createdAt).then (b.id.order a.id)).isLE

/-- The records of the page: those that pass, in order, windowed. -/
def select (q : ListQuery) (records : List JobRecord) : List JobRecord :=
  (((records.filter q.accepts).mergeSort listedBefore).drop q.offset).take q.limit

end ListQuery

end JobLedger
