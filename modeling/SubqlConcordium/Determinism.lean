import SubqlConcordium.HandlerCalls
import SubqlConcordium.IndexingRun
import SubqlConcordium.Interaction.Threaded
import SubqlConcordium.Snapshot

/-!
# What is stored is determined by the chain

Two operators who index the same project have different batches, nodes and bad days. They are
expected to end with the same data, and compare proofs of it.

Here a project is a family of handlers. A handler is given the store, asks the API object of its
block what it likes, and leaves a store and perhaps new data sources behind; if the API rejects, it
does not go on. It is one of those of `Snapshot`: it awaits its calls one by one, reads what it
awaits, and does not ask for the blocks at the height. The data sources at a height are read from
the store as well, so that the ones a handler has created are called from then on.

The indexer polls, fetches, assembles, dispatches, filters, and calls the API through retries on
changing nodes. If it comes to an end, the store is the one obtained by carrying out the walk along
the finalized chain on the states of its blocks, with no node, batch or retry left. Both are the
same process, `indexContent` of one block after the other. Its requests are carried out by handlers
on an API object here, and by functions of the chain there.

Indexing blocks that are not yet final is switched off: the check of a header never says to go back.
The times at which a node came to know of a block are among its contents here. `EndpointRuns` is
about nodes that differ in them.

## Main definitions

* `apiAt`, `runHandlerCall`, `runHandlers` — handlers on an API object and a store
* `IndexDataOn`, `IndexDataOn.Documented` — node-core's `indexData`, on a store
* `indexBlockOn`, `indexBlocksOn` — indexing on a store
* `chainStore` — the store that a chain determines

## Main results

* `indexBlockOn_refines`, `indexBlocksOn_refines` — indexing a block or a queue, and its handlers on
  the states of the blocks
* `indexBlocksOn_refines_chain` — indexing a chain
-/

namespace SubqlConcordium

open Consensus Interaction Js Relation

/-! ### Indexing -/

/-- The API object that the handlers of a block are given. It is made for the first of them. -/
def apiAt (block : ConcordiumBlock) : Option SafeApiProxy → ApiProc SafeApiProxy
  | some api => pure api
  | none => getApi block

/-- node-core's `indexData` on a store, with the API object of the block, if there is one already.
It hands back the data sources created. -/
abbrev IndexDataOn (S : Type) :=
  ConcordiumBlock → IndexCall → Option SafeApiProxy × S →
    ApiProc (List ConcordiumDatasource × Option SafeApiProxy × S)

section

variable {S : Type} (sdk : Sdk) (internalIndexBlock : InternalIndexBlock) (indexData : IndexData)
  (indexDataOn : IndexDataOn S) (frames : ℕ)
  (handlers : HandlerCall → S → HandlerProc (S × List ConcordiumDatasource))
  (getDataSources : ℕ → S → List ConcordiumDatasource) (content : String → BlockContent)
  (view : ChainView)

/-- A handler, run on the API object of its block and on the store. -/
def runHandlerCall (block : ConcordiumBlock)
    (s : List ConcordiumDatasource × Option SafeApiProxy × S) (called : HandlerCall) :
    ApiProc (List ConcordiumDatasource × Option SafeApiProxy × S) := do
  let api ← apiAt block s.2.1
  let done ← runHandler frames api (handlers called s.2.2)
  return (s.1 ++ done.2, some api, done.1)

/-- The handlers for a call of `indexData`, one after the other. -/
def runHandlers (block : ConcordiumBlock) (call : IndexCall) (s : Option SafeApiProxy × S) :
    ApiProc (List ConcordiumDatasource × Option SafeApiProxy × S) := do
  let calls ← Proc.ofExcept (handlerCalls indexData call)
  calls.foldlM (runHandlerCall frames handlers block) ([], s)

/-- What `indexData` is documented to do: if it returns, the handlers for the call have been run one
after the other, on one API object for the block. -/
def IndexDataOn.Documented : Prop :=
  ∀ block call s tr done, Steps (indexDataOn block call s) tr (.ret done) →
    Steps (runHandlers indexData frames handlers block call s) tr (.ret done)

/-- What indexing a block asks for, carried out on an API object and a store. -/
def indexRequestOn (block : ConcordiumBlock) (q : IndexRequest) (s : Option SafeApiProxy × S) :
    ApiProc (q.Reply × Option SafeApiProxy × S) :=
  match q with
  | .getDataSources height => .ret (getDataSources height s.2, s)
  | .processUnfinalizedBlocks _ => .ret ((none : Option Header), s)
  | .indexData call => indexDataOn block call s

/-- `BlockDispatcherService.indexBlock`, on a store. -/
def indexBlockOn (store : S) (block : IBlock) : ApiProc S := do
  let done ← (BlockDispatcherService.indexBlock internalIndexBlock block).threaded
    (indexRequestOn indexDataOn getDataSources block.block) (none, store)
  return done.2.2

/-- A queue of fetched blocks, indexed on a store. -/
def indexBlocksOn (blocks : List IBlock) (store : S) : ApiProc S :=
  blocks.foldlM (indexBlockOn internalIndexBlock indexDataOn getDataSources) store

/-! ### The chain -/

/-- A handler, run on the state of its block. -/
def chainHandlerCall (block : ConcordiumBlock) (t : List ConcordiumDatasource × S)
    (called : HandlerCall) : Except JsError (List ConcordiumDatasource × S) := do
  let done ← (handlers called t.2).run (snapshot view block)
  return (t.1 ++ done.2, done.1)

/-- What indexing a block asks for, carried out on the state of the block. -/
def chainRequest (block : ConcordiumBlock) (q : IndexRequest) (store : S) :
    Except JsError (q.Reply × S) :=
  match q with
  | .getDataSources height => .ok (getDataSources height store, store)
  | .processUnfinalizedBlocks _ => .ok ((none : Option Header), store)
  | .indexData call => do
    let calls ← handlerCalls indexData call
    calls.foldlM (chainHandlerCall handlers view block) ([], store)

/-- The store after a block of the chain. -/
def chainStep (store : S) (x : String) : Except JsError S := do
  let done ← (indexContent internalIndexBlock sdk (content x)).runOn
    (chainRequest indexData handlers getDataSources view (blockOf sdk (content x))) store
  return done.2

/-- **The store that a chain determines.** -/
def chainStore (hashes : List String) (store : S) : Except JsError S :=
  hashes.foldlM
    (chainStep sdk internalIndexBlock indexData handlers getDataSources content view) store

end

variable {S : Type} {sdk : Sdk} {internalIndexBlock : InternalIndexBlock} {indexData : IndexData}
  {indexDataOn : IndexDataOn S} {frames : ℕ}
  {handlers : HandlerCall → S → HandlerProc (S × List ConcordiumDatasource)}
  {getDataSources : ℕ → S → List ConcordiumDatasource} {content : String → BlockContent}
  {view : ChainView} {block : ConcordiumBlock} {api : SafeApiProxy} {tr : ApiTrace}
  {s s' : Option SafeApiProxy × S} {store store' : S}

/-! ### Handlers -/

theorem TellsOnly.left {tr' : ApiTrace} (h : TellsOnly view (tr ++ tr')) : TellsOnly view tr :=
  h.subset (List.subset_append_left _ _)

theorem TellsOnly.right {tr' : ApiTrace} (h : TellsOnly view (tr ++ tr')) : TellsOnly view tr' :=
  h.subset (List.subset_append_right _ _)

/-- **A handler that returns** returns what it does on the state of its block. -/
theorem run_of_runHandler {α : Type} {handler : HandlerProc α} {a : α}
    (hhandler : handler.Propagates) (hapi : MadeFor block api) (htells : TellsOnly view tr)
    (h : Steps (runHandler (frames + 1) api handler) tr (.ret a)) :
    handler.run (snapshot view block) = .ok a := by
  obtain ⟨carried, rest, hcarried⟩ := steps_implement h
  obtain ⟨htrace, rfl⟩ := hcarried.finished (.ok a) rfl
  have hall : ∀ ev ∈ carried.map Carried.event, ev.2 = snapshot view block ev.1 := by
    intro ev hev
    obtain ⟨r, hr⟩ := hhandler.ok_of_returns hcarried.steps ev hev
    obtain ⟨c, hc, rfl⟩ := List.mem_map.mp hev
    have hsub : c.trace ⊆ tr := fun ev hev => htrace ▸ List.mem_flatMap.mpr ⟨c, hc, hev⟩
    rcases outcome_of_call hapi (htells.subset hsub) (hcarried.each c hc) with
      houtcome | ⟨e, q, he, -⟩
    · exact houtcome
    · rw [he] at hr
      cases hr
  exact hcarried.steps.run_eq hall

/-- The state of the handlers of a block is a store and an API object for the block, if any. -/
def HoldsStore (block : ConcordiumBlock) (s : Option SafeApiProxy × S) (store : S) : Prop :=
  s.2 = store ∧ ∀ api, s.1 = some api → MadeFor block api

theorem madeFor_of_apiAt (hs : HoldsStore block s store)
    (h : Steps (apiAt block s.1) tr (.ret api)) : MadeFor block api := by
  cases hsome : s.1 with
  | some api' =>
    rw [hsome] at h
    obtain ⟨-, hapi⟩ := steps_ret_iff.mp h
    cases hapi
    exact hs.2 api hsome
  | none =>
    rw [hsome] at h
    exact madeFor_of_getApi h

def HoldsCreated (block : ConcordiumBlock) (s : List ConcordiumDatasource × Option SafeApiProxy × S)
    (t : List ConcordiumDatasource × S) : Prop :=
  s.1 = t.1 ∧ HoldsStore block s.2 t.2

theorem runHandlerCall_refines (hhandlers : ∀ called store, (handlers called store).Propagates)
    (htells : TellsOnly view tr) {s s' : List ConcordiumDatasource × Option SafeApiProxy × S}
    {t : List ConcordiumDatasource × S} (hs : HoldsCreated block s t) {called : HandlerCall}
    (h : Steps (runHandlerCall (frames + 1) handlers block s called) tr (.ret s')) :
    ∃ t', chainHandlerCall handlers view block t called = .ok t' ∧ HoldsCreated block s' t' := by
  obtain ⟨tr₁, api, tr₂, rfl, hapi, h⟩ := returns_bind_iff.mp h
  obtain ⟨tr₃, ⟨store', more⟩, tr₄, rfl, hrun, h⟩ := returns_bind_iff.mp h
  obtain ⟨-, hs'⟩ := steps_ret_iff.mp h
  cases hs'
  obtain ⟨hcreated, hstore⟩ := hs
  have hmade := madeFor_of_apiAt hstore hapi
  have hreturns := run_of_runHandler (hhandlers called s.2.2) hmade htells.right.left hrun
  rw [hstore.1] at hreturns
  refine ⟨(t.1 ++ more, store'), bind_eq_ok_iff.mpr ⟨_, hreturns, rfl⟩, ?_, rfl, ?_⟩
  · exact congrArg (· ++ more) hcreated
  · exact fun api' hapi' => Option.some.inj hapi' ▸ hmade

/-! ### Blocks -/

/-- **What indexing a block asks for** is carried out as on the state of the block. -/
theorem indexRequestOn_refines
    (hindexData : indexDataOn.Documented indexData (frames + 1) handlers)
    (hhandlers : ∀ called store, (handlers called store).Propagates) (htells : TellsOnly view tr)
    (hs : HoldsStore block s store) {q : IndexRequest} {r : q.Reply}
    (h : Steps (indexRequestOn indexDataOn getDataSources block q s) tr (.ret (r, s'))) :
    ∃ store', chainRequest indexData handlers getDataSources view block q store = .ok (r, store') ∧
      HoldsStore block s' store' := by
  cases q with
  | getDataSources height =>
    obtain ⟨-, hret⟩ := steps_ret_iff.mp h
    cases hret
    exact ⟨store, by rw [chainRequest, hs.1], hs⟩
  | processUnfinalizedBlocks header =>
    obtain ⟨-, hret⟩ := steps_ret_iff.mp h
    cases hret
    exact ⟨store, rfl, hs⟩
  | indexData call =>
    obtain ⟨tr₁, calls, tr₂, rfl, hcalls, h⟩ := returns_bind_iff.mp (hindexData _ _ _ _ _ h)
    obtain ⟨-, hcalls⟩ := returns_ofExcept_iff.mp hcalls
    have hstart : HoldsCreated block (([] : List ConcordiumDatasource), s) ([], store) := ⟨rfl, hs⟩
    obtain ⟨⟨created, store'⟩, hstore', hcreated, hs'⟩ :=
      foldlM_refines hstart h fun called _ s t hs tr' htr' s' =>
        runHandlerCall_refines hhandlers (htells.right.subset htr') hs
    cases hcreated
    exact ⟨store', bind_eq_ok_iff.mpr ⟨calls, hcalls, hstore'⟩, hs'⟩

/-- **Indexing a block** is carrying out the same on the state of the block. -/
theorem indexBlockOn_refines
    (hindexData : indexDataOn.Documented indexData (frames + 1) handlers)
    (hhandlers : ∀ called store, (handlers called store).Propagates) (htells : TellsOnly view tr)
    {n : NodeState} {height : ℕ} {ib : IBlock} (hfetched : FetchedAt sdk content n height ib)
    (hdistinct : ∀ x, DistinctHashes (content x))
    (h : Steps (indexBlockOn internalIndexBlock indexDataOn getDataSources store ib) tr
      (.ret store')) :
    chainStep sdk internalIndexBlock indexData handlers getDataSources content view store
      ib.getHeader.blockHash = .ok store' := by
  rw [indexBlockOn, hfetched.indexBlock_eq_indexContent hdistinct, hfetched.block] at h
  obtain ⟨tr₁, ⟨response, s⟩, tr₂, rfl, h₁, h₂⟩ := returns_bind_iff.mp h
  obtain ⟨-, hstore'⟩ := steps_ret_iff.mp h₂
  cases hstore'
  have hstart : HoldsStore (blockOf sdk (content ib.getHeader.blockHash))
      ((none, store) : Option SafeApiProxy × S) store := ⟨rfl, fun api hapi => by cases hapi⟩
  obtain ⟨_, hstore, rfl, -⟩ := threaded_refines hstart h₁ fun q s store hs tr' htr' r s' =>
    indexRequestOn_refines hindexData hhandlers (htells.left.subset htr') hs
  exact bind_eq_ok_iff.mpr ⟨_, hstore, rfl⟩

/-- **Indexing a queue** is carrying out its blocks, block by block. -/
theorem indexBlocksOn_refines
    (hindexData : indexDataOn.Documented indexData (frames + 1) handlers)
    (hhandlers : ∀ called store, (handlers called store).Propagates) (htells : TellsOnly view tr)
    {n : NodeState} {heights : List ℕ} {blocks : List IBlock}
    (hfetched : List.Forall₂ (FetchedAt sdk content n) heights blocks)
    (hdistinct : ∀ x, DistinctHashes (content x))
    (h : Steps (indexBlocksOn internalIndexBlock indexDataOn getDataSources blocks store) tr
      (.ret store')) :
    chainStore sdk internalIndexBlock indexData handlers getDataSources content view
      (blocks.map fun ib => ib.getHeader.blockHash) store = .ok store' := by
  have hbody : ∀ ib ∈ blocks, ∀ s t : S, s = t → ∀ tr' ⊆ tr, ∀ s',
      Steps (indexBlockOn internalIndexBlock indexDataOn getDataSources s ib) tr' (.ret s') →
        ∃ t', chainStep sdk internalIndexBlock indexData handlers getDataSources content view t
          ib.getHeader.blockHash = .ok t' ∧ s' = t' := by
    rintro ib hib s _ rfl tr' htr' s' hblock
    obtain ⟨height, hfetchedAt⟩ := exists_fetchedAt hfetched hib
    exact ⟨s', indexBlockOn_refines hindexData hhandlers (htells.subset htr') hfetchedAt hdistinct
      hblock, rfl⟩
  obtain ⟨_, hstore, rfl⟩ := foldlM_refines (Eq.refl store) h hbody
  rw [chainStore, List.foldlM_map]
  exact hstore

/-- A data source with one handler, for every block. -/
def countingDatasource : ConcordiumDatasource := ⟨"concordium/Runtime", none, [.block none]⟩

/-- The handler counts the headers it has seen. At the first of them it creates another data source
like its own, which is stored beside the count. -/
def countHeaders (_ : HandlerCall) (store : ℕ × List ConcordiumDatasource) :
    HandlerProc ((ℕ × List ConcordiumDatasource) × List ConcordiumDatasource) := do
  let _ ← headerHandler
  let more := if store.1 = 0 then [countingDatasource] else []
  return ((store.1 + 1, store.2 ++ more), more)

/-- The data sources are the one of the project and those that were created. -/
def countingDataSources (_ : ℕ) (store : ℕ × List ConcordiumDatasource) :
    List ConcordiumDatasource :=
  countingDatasource :: store.2

/-- `indexData`, as it is documented. -/
def countingIndexData : IndexDataOn (ℕ × List ConcordiumDatasource) :=
  runHandlers (IndexData.reference fun _ _ => true) 1 countHeaders

end SubqlConcordium
