import SubqlConcordium.Filter
import SubqlConcordium.IndexerManager

/-!
# The handlers that are called

`indexBlockData` offers every item of a block to every data source. Which handlers of a data source
then run is for node-core's `indexData` to find out: those of the kind of the item, whose filter
accepts it. The filters are the program's, by kind, in `FilterTypeMap`.

## Schedules do not move

Whether a block handler is due by its cron schedule is asked of node-core's `filterBlockTimestamp`,
which is a parameter: a function of the time of the block and of the filter, the same one for all
blocks of a run. node-core keeps the time at which a schedule is next due and moves it on whenever a
block is due, so over several blocks its answers are those of one function only as long as no
schedule moves in between, or where there is none. The results about runs of blocks assume this.

## Data sources of a block

The data sources are those at the height of the block, fixed while the block is indexed. A data
source that a handler creates takes part in the same block (`IndexerManager`), and so these results
are about blocks in which none is created.

## Main definitions

* `FilterTypeMap` — the filters by kind
* `IndexData`, `IndexData.Documented` — node-core's `indexData`, and what is assumed of it
* `blockHandlerCalls`, `runHandlerCalls` — the handlers called for a block, and for a run of blocks
-/

namespace SubqlConcordium

open Js

/-- `FilterTypeMap`, at the kind of the data. It is not consulted for handlers of other kinds. -/
def FilterTypeMap (filterBlockTimestamp : ℤ → Option BlockFilter → Bool) :
    Indexed → SubqlHandler → Except JsError Bool
  | .block data, .block filter => .ok (filterBlocksProcessor filterBlockTimestamp data filter)
  | .transaction data, .item .transaction filter => .ok (filterTransactionsProcessor data filter)
  | .transactionEvent data, .item .transactionEvent filter => filterTxEventProcessor data filter
  | .specialEvent data, .item .specialEvent filter => filterTxEventProcessor data filter
  | _, _ => .ok false

/-- node-core's `indexData`: the handlers it runs for a call, in order. -/
abbrev IndexData := IndexCall → Except JsError (List SubqlHandler)

/-- What `indexData` is assumed to run: of a runtime data source, the handlers of the kind that
their filter accepts. -/
def IndexData.Documented (filterBlockTimestamp : ℤ → Option BlockFilter → Bool)
    (indexData : IndexData) : Prop :=
  ∀ call, isRuntimeDs call.ds = true →
    indexData call = filterE (FilterTypeMap filterBlockTimestamp call.data) call.ds.handlers

/-- `indexData` as it is documented. -/
def IndexData.reference (filterBlockTimestamp : ℤ → Option BlockFilter → Bool) : IndexData :=
  fun call => filterE (FilterTypeMap filterBlockTimestamp call.data) call.ds.handlers

theorem IndexData.reference_documented (filterBlockTimestamp : ℤ → Option BlockFilter → Bool) :
    (IndexData.reference filterBlockTimestamp).Documented filterBlockTimestamp :=
  fun _ _ => rfl

/-- A handler that is called, and the call of `indexData` that it is called for. -/
structure HandlerCall where
  call : IndexCall
  handler : SubqlHandler

section

variable (sdk : Sdk) (lodash : Lodash) (indexData : IndexData)

/-- The handlers called for one call of `indexData`. -/
def handlerCalls (call : IndexCall) : Except JsError (List HandlerCall) := do
  let handlers ← indexData call
  return handlers.map fun handler => ⟨call, handler⟩

/-- The handlers called for a block. -/
def blockHandlerCalls (dataSources : List ConcordiumDatasource) (c : BlockContent) :
    Except JsError (List HandlerCall) := do
  let b ← assembleContent sdk lodash c
  let calls ← (dispatchOrder sdk c b dataSources).mapM (handlerCalls indexData)
  return calls.flatten

/-- The handlers called for a run of blocks. The data sources are those at the height. -/
def runHandlerCalls (getDataSources : ℕ → List ConcordiumDatasource) (blocks : List BlockContent) :
    Except JsError (List HandlerCall) := do
  let calls ← blocks.mapM fun c =>
    blockHandlerCalls sdk lodash indexData (getDataSources c.info.blockHeight) c
  return calls.flatten

end

/-- An item of a kind as the data of a call. -/
def Indexed.ofItem : ItemKind → Obj → Indexed
  | .transaction => .transaction
  | .transactionEvent => .transactionEvent
  | .specialEvent => .specialEvent

variable {fbt : ℤ → Option BlockFilter → Bool} {sdk : Sdk} {lodash : Lodash} {indexData : IndexData}
  {dataSources : List ConcordiumDatasource} {c : BlockContent} {calls : List HandlerCall}

/-- A handler that is called belongs to its data source, and its filter accepts the data. -/
theorem accepted_of_handlerCalls (hindexData : indexData.Documented fbt) {call : IndexCall}
    (hruntime : isRuntimeDs call.ds = true) (h : handlerCalls indexData call = .ok calls) :
    ∀ called ∈ calls, called.call = call ∧ called.handler ∈ call.ds.handlers ∧
      FilterTypeMap fbt call.data called.handler = .ok true := by
  obtain ⟨handlers, hhandlers, hcalls⟩ := bind_eq_ok_iff.mp h
  cases hcalls
  rw [hindexData call hruntime] at hhandlers
  intro called hcalled
  obtain ⟨handler, hhandler, rfl⟩ := List.mem_map.mp hcalled
  exact ⟨rfl, filterE_sound hhandlers handler hhandler⟩

theorem ds_mem_of_dispatchOrder {b : ConcordiumBlock} {call : IndexCall}
    (h : call ∈ dispatchOrder sdk c b dataSources) :
    call.ds ∈ dataSources ∧
      (call.data = .block b ∨
        (∃ tx ∈ c.transactions,
          call.data = .transaction (linkItem (earlyContent sdk c) (wrapTransaction tx))) ∨
        (∃ tx ∈ c.transactions, ∃ evt ∈ eventsOf sdk (wrapTransaction tx),
          call.data = .transactionEvent (linkItem (earlyContent sdk c) evt)) ∨
        ∃ evt ∈ c.specialEvents.mapIdx wrapSpecialEvent,
          call.data = .specialEvent (linkItem (earlyContent sdk c) evt)) := by
  have hforEach {data : Indexed} (h : call ∈ forEach dataSources data) :
      call.ds ∈ dataSources ∧ call.data = data := by
    obtain ⟨ds, hds, rfl⟩ := List.mem_map.mp h
    exact ⟨hds, rfl⟩
  rw [dispatchOrder, List.mem_append, List.mem_append, List.mem_flatMap, List.mem_flatMap] at h
  rcases h with (hblock | ⟨wtx, hwtx, hitem⟩) | ⟨evt, hevt, hspecial⟩
  · exact (hforEach hblock).imp_right Or.inl
  · obtain ⟨tx, htx, rfl⟩ := List.mem_map.mp hwtx
    rcases List.mem_append.mp hitem with htransaction | hevents
    · exact (hforEach htransaction).imp_right fun hdata => .inr (.inl ⟨tx, htx, hdata⟩)
    · obtain ⟨evt, hevt, hevent⟩ := List.mem_flatMap.mp hevents
      exact (hforEach hevent).imp_right fun hdata => .inr (.inr (.inl ⟨tx, htx, evt, hevt, hdata⟩))
  · exact (hforEach hspecial).imp_right fun hdata => .inr (.inr (.inr ⟨evt, hevt, hdata⟩))

theorem blockHandlerCalls_eq_nil
    (h : blockHandlerCalls sdk lodash indexData dataSources c = .ok calls)
    (hnone : ∀ b, assembleContent sdk lodash c = .ok b →
      ∀ call ∈ dispatchOrder sdk c b dataSources, ∀ called,
        handlerCalls indexData call = .ok called → called = []) :
    calls = [] := by
  obtain ⟨b, hb, h⟩ := bind_eq_ok_iff.mp h
  obtain ⟨callss, hcallss, h⟩ := bind_eq_ok_iff.mp h
  cases h
  obtain ⟨hreturns, rfl⟩ := (mapM_eq_ok_iff []).mp hcallss
  rw [List.flatten_eq_nil_iff, List.forall_mem_map]
  intro call hcall
  obtain ⟨called, hcalled⟩ := hreturns call hcall
  rw [hcalled, Except.toOption, Option.getD_some]
  exact hnone b hb call hcall called hcalled

/-- Blocks for which nothing is called may be left out of a run. -/
theorem runHandlerCalls_filter {getDataSources : ℕ → List ConcordiumDatasource}
    {blocks : List BlockContent} {keep : BlockContent → Bool}
    (h : runHandlerCalls sdk lodash indexData getDataSources blocks = .ok calls)
    (hskip : ∀ c ∈ blocks, keep c = false → ∀ called,
      blockHandlerCalls sdk lodash indexData (getDataSources c.info.blockHeight) c = .ok called →
        called = []) :
    runHandlerCalls sdk lodash indexData getDataSources (blocks.filter keep) = .ok calls := by
  obtain ⟨callss, hcallss, h⟩ := bind_eq_ok_iff.mp h
  cases h
  obtain ⟨callss', hcallss', hflatten⟩ := mapM_filter_flatten hcallss hskip
  rw [runHandlerCalls, hcallss', ← hflatten]
  rfl

end SubqlConcordium
