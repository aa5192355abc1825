import FlowEngine.Json.Basic
/-!
# `FlowEngine.Store.Query` — what a record store is asked, and what it answers

Records are objects with a text under `id`; they live in collections.  A query selects records of a
collection by a filter, sorts them, cuts out one page and projects fields; the answer is that page
and how many records there are on all pages together.
-/

namespace FlowEngine

/-- Relations to expand and fields to keep when a record is read. -/
structure FetchOptions where
  expand : Option String := none
  fields : Option String := none
deriving DecidableEq, Repr

/-- A query for the records of a collection. -/
structure ListQuery where
  filter : Option String := none
  sort : Option String := none
  limit : UInt32 := 50
  page : UInt32 := 1
  expand : Option String := none
  fields : Option String := none
deriving DecidableEq, Repr

/-- One page of records and how many match in all. -/
structure RecordPage where
  items : List Json
  total : Nat

def RecordPage.toJson (page : RecordPage) : Json :=
  .record [("items", .array page.items), ("total", .ofNat page.total)]

end FlowEngine
