import SubqlConcordium.Js.Value

/-!
# The project manifest

Data sources, their handlers, and the filters of these. A handler is given by its kind; the
handlers of a custom data source may have kinds of their own.

## What is left out

The name of the function that a handler runs, the file it is in, and the assets of a data source
have no part in choosing what the handler is called for, so they are not kept. Neither is the start
block. Which data sources are active at a height is for node-core to say, and wherever that matters
they are given by the height.

A filter keeps the difference between a property that is absent, one that is `null`, and one that
has a value. The source tests for it now in one way and now in another.

## Main definitions

* `BlockFilter`, `ValuesFilter` — the filters
* `ItemKind`, `SubqlHandler` — the kinds of handlers
* `ConcordiumDatasource`, `isCustomDs`, `isRuntimeDs` — data sources
-/

namespace SubqlConcordium

open Js

/-- The filter of a block handler. The schedule of its cron expression is read and advanced by
node-core alone. -/
structure BlockFilter where
  modulo : Optional ℚ
  /-- The state of the schedule. -/
  cronSchedule : Value

/-- The filter of a transaction, event or special event handler. -/
structure ValuesFilter where
  type : Optional String
  values : Optional StringMap

/-- `filter.modulo`, where it counts as true: absent, `null` and `0` do not. -/
def BlockFilter.modulo? (filter : BlockFilter) : Option ℚ := filter.modulo.get?.filter (· ≠ 0)

/-- The kinds of items that are filtered by type and values. -/
inductive ItemKind where
  | transaction
  | transactionEvent
  | specialEvent
  deriving DecidableEq

/-- A handler, by its kind. The handlers of custom data sources may have kinds of their own. -/
inductive SubqlHandler where
  | block (filter : Option BlockFilter)
  | item (kind : ItemKind) (filter : Option ValuesFilter)
  | custom (kind : String) (filter : Option Obj)

structure ConcordiumDatasource where
  kind : String
  processor : Option Obj
  /-- `mapping.handlers`. -/
  handlers : List SubqlHandler

def isCustomDs (ds : ConcordiumDatasource) : Bool :=
  ds.kind ≠ "concordium/Runtime" && ds.processor.isSome

def isRuntimeDs (ds : ConcordiumDatasource) : Bool := ds.kind = "concordium/Runtime"

/-- The truthy modulo of a block handler. -/
def SubqlHandler.modulo? : SubqlHandler → Option ℚ
  | block (some filter) => filter.modulo?
  | _ => none

end SubqlConcordium
