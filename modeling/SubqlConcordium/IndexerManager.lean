import SubqlConcordium.Api
import SubqlConcordium.Interaction.Live
import SubqlConcordium.Manifest
import Mathlib.Data.List.Nodup

/-!
# The order of handler calls

`IndexerManager.indexBlockData` hands a block to the data sources: the block itself, each
transaction with its events, the special events. The events of a block arrive flattened over all
transactions, and are regrouped here by transaction hash.

The data sources are an array that node-core keeps a hold of. When a handler creates a dynamic data
source, node-core pushes it onto that array, while the call of `indexData` that runs the handler is
awaited. All loops go over the array itself. So a data source created by one handler is called for
what is left of the block, beginning with the very item that its creator was called for. What a call
is answered is therefore the data sources created meanwhile, and every loop hands on the array as it
then is.

Nothing else is open. The items are fixed by what the node sent, before anything was copied or
flattened: `dispatchItems` writes them down in the order in which they are due, and `dispatch` calls
every data source for each of them. With no data source created, the calls are the fixed list
`dispatchOrder`.

## Main definitions

* `Indexed`, `IndexCall`, `indexData` — what `indexData` is called with
* `IndexRequest`, `IndexProc` — what indexing may have to wait for
* `indexBlockData` — `IndexerManager.indexBlockData`
* `dispatchItems`, `dispatch` — the items of a block, each for every data source there is by then
* `dataSourcesAfter`, `Dispatches`, `DispatchesSome` — the same, of a trace
* `dispatchOrder` — the calls, if no data source is created

## Main results

* `eventsOfTransaction_link` — regrouping undoes flattening
* `indexBlockData_eq_dispatch` — every item is called for, in order
* `steps_dispatch`, `indexBlockData_dispatches` — what that means for the calls made
-/

namespace SubqlConcordium

open Js Interaction

/-- The data of an `indexData` call, by handler kind. -/
inductive Indexed where
  | block (data : ConcordiumBlock)
  | transaction (data : Obj)
  | transactionEvent (data : Obj)
  | specialEvent (data : Obj)

/-- A call of `indexData`. The function that provides a sandbox is the same for all of them. -/
structure IndexCall where
  data : Indexed
  ds : ConcordiumDatasource

/-- What indexing may have to wait for: the data sources at a height, the check of a header against
the finalized chain, and the handlers of a data source. -/
inductive IndexRequest where
  /-- `projectService.getDataSources(height)`. -/
  | getDataSources (height : ℕ)
  /-- `unfinalizedBlocksService.processUnfinalizedBlocks(header)`, of node-core. -/
  | processUnfinalizedBlocks (header : Header)
  /-- `indexData(kind, data, ds, getVM)`, of node-core. -/
  | indexData (call : IndexCall)

/-- Handlers hand back nothing, but may have created data sources. The header is that of the block
to go back to, if the chain was left. -/
def IndexRequest.Reply : IndexRequest → Type
  | getDataSources _ => List ConcordiumDatasource
  | processUnfinalizedBlocks _ => Option Header
  | indexData _ => List ConcordiumDatasource

/-- A process that makes such requests. -/
abbrev IndexProc := Proc IndexRequest IndexRequest.Reply JsError

abbrev IndexTrace := List (Event IndexRequest IndexRequest.Reply JsError)

/-- The number of elements an array can have. -/
def maxArrayLength : ℕ := 2 ^ 32 - 1

/-- `projectService.getDataSources(height)`. -/
def ProjectService.getDataSources (height : ℕ) : IndexProc (List ConcordiumDatasource) :=
  Proc.await (IndexRequest.getDataSources height)

/-- `unfinalizedBlocksService.processUnfinalizedBlocks(header)`. -/
def processUnfinalizedBlocks (header : Header) : IndexProc (Option Header) :=
  Proc.await (IndexRequest.processUnfinalizedBlocks header)

/-- `indexData`, of node-core: the data sources created meanwhile. -/
def indexData (data : Indexed) (ds : ConcordiumDatasource) :
    IndexProc (List ConcordiumDatasource) :=
  Proc.await (IndexRequest.indexData ⟨data, ds⟩)

/-- `for (const ds of dataSources) await this.indexData(..)`, over the array itself. What is created
meanwhile is at its end before the loop looks for the next. -/
def indexForEach (data : Indexed) (dataSources : List ConcordiumDatasource) :
    IndexProc (List ConcordiumDatasource) :=
  Proc.forLive maxArrayLength (fun ds => indexData data ds) dataSources

def indexBlockContent (block : ConcordiumBlock) (dataSources : List ConcordiumDatasource) :
    IndexProc (List ConcordiumDatasource) :=
  indexForEach (.block block) dataSources

def indexTransaction (tx : Obj) (dataSources : List ConcordiumDatasource) :
    IndexProc (List ConcordiumDatasource) :=
  indexForEach (.transaction tx) dataSources

def indexSpecialEvent (event : Obj) (dataSources : List ConcordiumDatasource) :
    IndexProc (List ConcordiumDatasource) :=
  indexForEach (.specialEvent event) dataSources

def indexTransactionEvent (event : Obj) (dataSources : List ConcordiumDatasource) :
    IndexProc (List ConcordiumDatasource) :=
  indexForEach (.transactionEvent event) dataSources

/-- `evt.transaction.hash === tx.hash`. -/
def sameTransaction (tx evt : Obj) : Except JsError Bool := do
  return strictEq (← (evt.prop "transaction").member "hash") (tx.prop "hash")

/-- `block.transactionEvents?.filter(..) ?? []`. -/
def eventsOfTransaction (block : ConcordiumBlock) (tx : Obj) : Except JsError (List Obj) :=
  match block.transactionEvents with
  | some events => filterE (sameTransaction tx) events
  | none => .ok []

/-- One round of the loop over the transactions. -/
def indexTransactionRound (block : ConcordiumBlock) (dataSources : List ConcordiumDatasource)
    (tx : Obj) : IndexProc (List ConcordiumDatasource) := do
  let dataSources ← indexTransaction tx dataSources
  let events ← Proc.ofExcept (eventsOfTransaction block tx)
  events.foldlM (fun dataSources event => indexTransactionEvent event dataSources) dataSources

/-- `IndexerManager.indexBlockData`. What is returned is the array of data sources then. -/
def indexBlockData (block : ConcordiumBlock) (dataSources : List ConcordiumDatasource) :
    IndexProc (List ConcordiumDatasource) := do
  let dataSources ← indexBlockContent block dataSources
  let dataSources ← block.transactions.foldlM (indexTransactionRound block) dataSources
  block.specialEvents.foldlM (fun dataSources event => indexSpecialEvent event dataSources)
    dataSources

/-! ### The order of the calls -/

/-- The items of a block `b` assembled from `c`, in the order in which they are due: the block, then
each transaction followed by the events extracted from it, then the special events. -/
def dispatchItems (sdk : Sdk) (c : BlockContent) (b : ConcordiumBlock) : List Indexed :=
  let link := linkItem (earlyContent sdk c)
  .block b ::
    ((c.transactions.map wrapTransaction).flatMap fun tx =>
      .transaction (link tx) ::
        (eventsOf sdk tx).map fun event => .transactionEvent (link event)) ++
    (c.specialEvents.mapIdx wrapSpecialEvent).map fun event => .specialEvent (link event)

/-- Items in turn, each for every data source there is by then. -/
def dispatch (dataSources : List ConcordiumDatasource) (items : List Indexed) :
    IndexProc (List ConcordiumDatasource) :=
  items.foldlM (fun dataSources item => indexForEach item dataSources) dataSources

/-- The same data for each data source in order. -/
def forEach (dataSources : List ConcordiumDatasource) (data : Indexed) : List IndexCall :=
  dataSources.map fun ds => ⟨data, ds⟩

/-- The calls due for a block `b` assembled from `c`, for data sources to which none is added: the
block, then each transaction followed by the events extracted from it, then the special events. -/
def dispatchOrder (sdk : Sdk) (c : BlockContent) (b : ConcordiumBlock)
    (dataSources : List ConcordiumDatasource) : List IndexCall :=
  let link := linkItem (earlyContent sdk c)
  forEach dataSources (.block b) ++
    (c.transactions.map wrapTransaction).flatMap (fun tx =>
      forEach dataSources (.transaction (link tx)) ++
        (eventsOf sdk tx).flatMap fun event =>
          forEach dataSources (.transactionEvent (link event))) ++
    (c.specialEvents.mapIdx wrapSpecialEvent).flatMap fun event =>
      forEach dataSources (.specialEvent (link event))

/-- The data sources created during a request. -/
def created : Event IndexRequest IndexRequest.Reply JsError → List ConcordiumDatasource
  | ⟨.indexData _, .ok more⟩ => more
  | _ => []

/-- The array of data sources at the end of a trace. -/
def dataSourcesAfter (dataSources : List ConcordiumDatasource) (tr : IndexTrace) :
    List ConcordiumDatasource :=
  tr.foldl (fun dataSources ev => pushUpTo maxArrayLength dataSources (created ev)) dataSources

/-- A trace consists of the calls for some items in turn, each for every data source there is when
the last call for it has been answered. -/
def Dispatches : List Indexed → List ConcordiumDatasource → IndexTrace → Prop
  | [], _, tr => tr = []
  | item :: items, dataSources, tr => ∃ tr₁ tr₂, tr = tr₁ ++ tr₂ ∧
      tr₁.map Sigma.fst =
        (forEach (dataSourcesAfter dataSources tr₁) item).map IndexRequest.indexData ∧
      Dispatches items (dataSourcesAfter dataSources tr₁) tr₂

/-- A trace consists of the calls for the first of some items, and the first calls for the next. -/
def DispatchesSome (items : List Indexed) (dataSources : List ConcordiumDatasource)
    (tr : IndexTrace) : Prop :=
  ∃ done rest tr₁ tr₂, items = done ++ rest ∧ tr = tr₁ ++ tr₂ ∧ Dispatches done dataSources tr₁ ∧
    tr₂.map Sigma.fst <+:
      ((rest.take 1).flatMap (forEach (dataSourcesAfter dataSources tr))).map IndexRequest.indexData

/-! ### Regrouping -/

variable {sdk : Sdk} {lodash : Lodash} {c : BlockContent} {b : ConcordiumBlock}
  {dataSources : List ConcordiumDatasource}

/-- Whether an event belongs to a transaction is a matter of the hash of the transaction it was
extracted from. -/
theorem sameTransaction_link {tx tx' evt : Obj} (hevt : evt ∈ eventsOf sdk tx') :
    sameTransaction (linkItem b tx) (linkItem b evt) =
      .ok (strictEq (tx'.prop "hash") (tx.prop "hash")) := by
  rw [sameTransaction, prop_linkItem (by decide), prop_linkItem (by decide),
    prop_transaction_of_mem_eventsOf hevt, Value.member_obj]
  rfl

/-- **Regrouping undoes flattening.** The events whose transaction has the hash of a transaction
are those extracted from it. -/
theorem eventsOfTransaction_link {early : ConcordiumBlock} {txs : List Obj}
    (hevents : early.transactionEvents = some (txs.flatMap (eventsOf sdk)))
    {hs : List String} (hnodup : hs.Nodup) (hhashes : txs.map (·.prop "hash") = hs.map .str)
    {tx : Obj} (htx : tx ∈ txs) :
    eventsOfTransaction (early.linkTo b) (linkItem b tx) =
      .ok ((eventsOf sdk tx).map (linkItem b)) := by
  have hvalues : (txs.map (·.prop "hash")).Nodup := by
    rw [hhashes]
    exact hnodup.map fun s t h => Value.str.inj h
  obtain ⟨s, -, hs'⟩ : ∃ s ∈ hs, Value.str s = tx.prop "hash" := by
    rw [← List.mem_map, ← hhashes]
    exact List.mem_map_of_mem htx
  let test (evt : Obj) : Bool :=
    strictEq ((evt.prop "transaction").field "hash") (tx.prop "hash")
  have htest : ∀ tx' evt, evt ∈ eventsOf sdk tx' →
      test (linkItem b evt) = strictEq (tx'.prop "hash") (tx.prop "hash") := by
    intro tx' evt hevt
    simp only [test]
    rw [prop_linkItem (by decide), prop_transaction_of_mem_eventsOf hevt, Value.field]
  have hfilter : (txs.flatMap (eventsOf sdk)).filter (test ∘ linkItem b) = eventsOf sdk tx := by
    refine filter_flatMap_of_nodup hvalues htx fun tx' _ evt hevt => ?_
    rw [Function.comp_apply, htest tx' evt hevt, ← hs', strictEq_str_iff]
  have hcalls : ∀ evt ∈ (txs.flatMap (eventsOf sdk)).map (linkItem b),
      sameTransaction (linkItem b tx) evt = .ok (test evt) := by
    intro evt hevt
    obtain ⟨evt', hevt', rfl⟩ := List.mem_map.mp hevt
    obtain ⟨tx', -, hmem⟩ := List.mem_flatMap.mp hevt'
    rw [sameTransaction_link hmem, htest tx' evt' hmem]
  rw [eventsOfTransaction, ConcordiumBlock.linkTo, hevents, Option.map_some]
  simp only [filterE_eq_ok hcalls, List.filter_map, hfilter]

/-! ### The items that are called for -/

theorem indexTransactionRound_eq (hb : b = (earlyContent sdk c).linkTo (earlyContent sdk c))
    {hs : List String} (hnodup : hs.Nodup)
    (hhashes : c.transactions.map (·.prop "hash") = hs.map .str) {tx : Obj}
    (htx : tx ∈ c.transactions.map wrapTransaction) :
    indexTransactionRound b dataSources (linkItem (earlyContent sdk c) tx) =
      dispatch dataSources (.transaction (linkItem (earlyContent sdk c) tx) ::
        (eventsOf sdk tx).map fun event =>
          .transactionEvent (linkItem (earlyContent sdk c) event)) := by
  have hearly : (c.transactions.map wrapTransaction).map (·.prop "hash") = hs.map .str := by
    rw [← hhashes, List.map_map]
    exact List.map_congr_left fun tx _ => Obj.prop_put_of_ne _ _ (by decide)
  rw [hb, indexTransactionRound, eventsOfTransaction_link rfl hnodup hearly htx,
    Proc.ofExcept_ok, dispatch, List.foldlM_cons, indexTransaction]
  refine congrArg _ (funext fun dataSources => ?_)
  rw [Proc.ret_bind, List.foldlM_map, List.foldlM_map]
  rfl

/-- **Every item is called for, in order**, for every data source there is by then. -/
theorem indexBlockData_eq_dispatch (hb : b = (earlyContent sdk c).linkTo (earlyContent sdk c))
    {hs : List String} (hnodup : hs.Nodup)
    (hhashes : c.transactions.map (·.prop "hash") = hs.map .str) :
    indexBlockData b dataSources = dispatch dataSources (dispatchItems sdk c b) := by
  have htransactions : ∀ dataSources, b.transactions.foldlM (indexTransactionRound b) dataSources =
      dispatch dataSources ((c.transactions.map wrapTransaction).flatMap fun tx =>
        .transaction (linkItem (earlyContent sdk c) tx) :: (eventsOf sdk tx).map fun event =>
          .transactionEvent (linkItem (earlyContent sdk c) event)) := by
    intro dataSources
    have hlist : b.transactions =
        (c.transactions.map wrapTransaction).map (linkItem (earlyContent sdk c)) := by rw [hb]; rfl
    rw [hlist, List.foldlM_map, dispatch, foldlM_flatMap]
    exact foldlM_congr fun dataSources tx htx => indexTransactionRound_eq hb hnodup hhashes htx
  have hspecial : ∀ dataSources,
      (b.specialEvents.foldlM (fun dataSources event => indexSpecialEvent event dataSources)
        dataSources) =
      dispatch dataSources ((c.specialEvents.mapIdx wrapSpecialEvent).map fun event =>
        .specialEvent (linkItem (earlyContent sdk c) event)) := by
    intro dataSources
    have hlist : b.specialEvents =
        (c.specialEvents.mapIdx wrapSpecialEvent).map (linkItem (earlyContent sdk c)) := by
      rw [hb]
      rfl
    rw [hlist, List.foldlM_map, dispatch, List.foldlM_map]
    rfl
  simp only [indexBlockData, htransactions, hspecial]
  rw [dispatch, dispatchItems, List.cons_append, List.foldlM_cons, indexBlockContent]
  exact congrArg _ (funext fun dataSources => List.foldlM_append.symm)

/-! ### The calls made -/

theorem length_dataSourcesAfter_le (hlength : dataSources.length ≤ maxArrayLength)
    (tr : IndexTrace) : (dataSourcesAfter dataSources tr).length ≤ maxArrayLength := by
  induction tr generalizing dataSources with
  | nil => exact hlength
  | cons ev tr ih => exact ih (length_pushUpTo_le maxArrayLength dataSources (created ev))

theorem dataSourcesAfter_append (dataSources : List ConcordiumDatasource) (tr tr' : IndexTrace) :
    dataSourcesAfter dataSources (tr ++ tr') =
      dataSourcesAfter (dataSourcesAfter dataSources tr) tr' :=
  List.foldl_append

/-- Data sources are only ever added. -/
theorem isPrefix_dataSourcesAfter (hlength : dataSources.length ≤ maxArrayLength)
    (tr : IndexTrace) : dataSources <+: dataSourcesAfter dataSources tr := by
  induction tr generalizing dataSources with
  | nil => exact List.prefix_rfl
  | cons ev tr ih =>
    exact (isPrefix_pushUpTo hlength (created ev)).trans
      (ih (length_pushUpTo_le maxArrayLength dataSources (created ev)))

theorem dataSourcesAfter_of_quiet (hlength : dataSources.length ≤ maxArrayLength) {tr : IndexTrace}
    (hquiet : ∀ ev ∈ tr, created ev = []) : dataSourcesAfter dataSources tr = dataSources := by
  induction tr with
  | nil => rfl
  | cons ev tr ih =>
    rw [List.forall_mem_cons] at hquiet
    rw [dataSourcesAfter, List.foldl_cons, hquiet.1, pushUpTo_nil hlength]
    exact ih hquiet.2

/-- What a loop over the data sources has done, at a position: it has called for the first so many
of those there are by now. -/
def CalledFor (item : Indexed) (dataSources : List ConcordiumDatasource) (i : ℕ)
    (live : List ConcordiumDatasource) (tr : IndexTrace) : Prop :=
  live = dataSourcesAfter dataSources tr ∧
    tr.map Sigma.fst = (forEach (live.take i) item).map IndexRequest.indexData

theorem forEach_take_succ {live : List ConcordiumDatasource} {i : ℕ} {ds : ConcordiumDatasource}
    (hds : live[i]? = some ds) (item : Indexed) :
    forEach (live.take (i + 1)) item = forEach (live.take i) item ++ [⟨item, ds⟩] := by
  rw [List.take_add_one, hds, forEach, List.map_append]
  rfl

theorem CalledFor.step {item : Indexed} {i : ℕ} {live more : List ConcordiumDatasource}
    {ds : ConcordiumDatasource} {tr tr' : IndexTrace} (hlive : live.length ≤ maxArrayLength)
    (hds : live[i]? = some ds) (h : CalledFor item dataSources i live tr)
    (hcall : Steps (indexData item ds) tr' (.ret more)) :
    CalledFor item dataSources (i + 1) (pushUpTo maxArrayLength live more) (tr ++ tr') := by
  obtain ⟨rfl, hrequests⟩ := h
  obtain rfl : tr' = [⟨.indexData ⟨item, ds⟩, .ok more⟩] := returns_await_iff.mp hcall
  refine ⟨by rw [dataSourcesAfter_append]; rfl, ?_⟩
  obtain ⟨rest, hrest⟩ := isPrefix_pushUpTo hlive more
  have hi : i < (dataSourcesAfter dataSources tr).length := (List.getElem?_eq_some_iff.mp hds).1
  rw [← hrest, List.take_append_of_le_length hi, forEach_take_succ hds, List.map_append,
    List.map_append, hrequests]
  rfl

/-- **Calls for one item.** The calls made are the first ones for the data sources there are by
then, and all of them if the loop has returned. -/
theorem steps_indexForEach (hlength : dataSources.length ≤ maxArrayLength) {item : Indexed}
    {tr : IndexTrace} {p : IndexProc (List ConcordiumDatasource)}
    (h : Steps (indexForEach item dataSources) tr p) :
    tr.map Sigma.fst <+:
        (forEach (dataSourcesAfter dataSources tr) item).map IndexRequest.indexData ∧
      ∀ live, p = .ret live → live = dataSourcesAfter dataSources tr ∧
        tr.map Sigma.fst = (forEach live item).map IndexRequest.indexData := by
  have hvisit : ∀ i live ds tr tr' more, live.length ≤ maxArrayLength → live[i]? = some ds →
      CalledFor item dataSources i live tr → Steps (indexData item ds) tr' (.ret more) →
        CalledFor item dataSources (i + 1) (pushUpTo maxArrayLength live more) (tr ++ tr') :=
    fun _ _ _ _ _ _ hlive hds hcalled hcall => hcalled.step hlive hds hcall
  rcases steps_forLive hvisit hlength ⟨rfl, rfl⟩ h with ⟨live, rfl, hlive, hrequests⟩ | hmiddle
  · rw [List.take_length] at hrequests
    refine ⟨?_, fun live' hlive' => ?_⟩
    · rw [hrequests]
      exact hlive ▸ List.prefix_rfl
    · obtain rfl := Proc.ret.inj hlive'
      exact ⟨hlive, hrequests⟩
  · obtain ⟨i, live, ds, tr₁, tr₂, p', hds, ⟨rfl, hrequests⟩, rfl, hcall, hp', hp⟩ := hmiddle
    refine ⟨?_, fun live hlive => absurd hlive (hp live)⟩
    have hlive := length_dataSourcesAfter_le hlength tr₁
    have hcalls : (forEach ((dataSourcesAfter dataSources tr₁).take (i + 1)) item).map
        IndexRequest.indexData <+:
          (forEach (dataSourcesAfter dataSources (tr₁ ++ tr₂)) item).map
            IndexRequest.indexData := by
      rw [dataSourcesAfter_append]
      exact (((List.take_prefix _ _).trans (isPrefix_dataSourcesAfter hlive tr₂)).map _).map _
    refine List.IsPrefix.trans ?_ hcalls
    rw [List.map_append, hrequests, forEach_take_succ hds, List.map_append,
      List.prefix_append_right_inj]
    rcases steps_ask_iff.mp hcall with ⟨rfl, -⟩ | ⟨r, tr', rfl, hr⟩
    · exact List.nil_prefix
    · -- a reply to the only request of the visit, and it was not the end of it: an error
      cases r with
      | ok more => exact absurd (steps_ret_iff.mp hr).2 (hp' more)
      | error e =>
        obtain ⟨rfl, -⟩ := steps_fail_iff.mp hr
        exact List.prefix_rfl

theorem DispatchesSome.cons {item : Indexed} {items : List Indexed} {tr tr' : IndexTrace}
    (hitem : tr.map Sigma.fst =
      (forEach (dataSourcesAfter dataSources tr) item).map IndexRequest.indexData)
    (hitems : DispatchesSome items (dataSourcesAfter dataSources tr) tr') :
    DispatchesSome (item :: items) dataSources (tr ++ tr') := by
  obtain ⟨done, rest, tr₁, tr₂, rfl, rfl, hdone, hrest⟩ := hitems
  rw [← dataSourcesAfter_append] at hrest
  exact ⟨item :: done, rest, tr ++ tr₁, tr₂, rfl, (List.append_assoc _ _ _).symm,
    ⟨tr, tr₁, rfl, hitem, hdone⟩, hrest⟩

/-- **The calls made for some items** are those for the first of them, in order, and the first ones
for the next; and all of them, if what makes them has returned. -/
theorem steps_dispatch (hlength : dataSources.length ≤ maxArrayLength) {items : List Indexed}
    {tr : IndexTrace} {p : IndexProc (List ConcordiumDatasource)}
    (h : Steps (dispatch dataSources items) tr p) :
    DispatchesSome items dataSources tr ∧
      ∀ live, p = .ret live → live = dataSourcesAfter dataSources tr ∧
        Dispatches items dataSources tr := by
  induction items generalizing dataSources tr with
  | nil =>
    obtain ⟨rfl, rfl⟩ := steps_ret_iff.mp h
    refine ⟨⟨[], [], [], [], rfl, rfl, rfl, List.nil_prefix⟩, fun live hlive => ?_⟩
    obtain rfl := Proc.ret.inj hlive
    exact ⟨rfl, rfl⟩
  | cons item items ih =>
    rw [dispatch, List.foldlM_cons] at h
    have hnext : ∀ {tr₁ tr₂ live}, Steps (indexForEach item dataSources) tr₁ (.ret live) →
        Steps (dispatch live items) tr₂ p →
        DispatchesSome (item :: items) dataSources (tr₁ ++ tr₂) ∧
          ∀ live, p = .ret live → live = dataSourcesAfter dataSources (tr₁ ++ tr₂) ∧
            Dispatches (item :: items) dataSources (tr₁ ++ tr₂) := by
      intro tr₁ tr₂ live hfirst hrest
      obtain ⟨rfl, hitem⟩ := (steps_indexForEach hlength hfirst).2 live rfl
      obtain ⟨hsome, hall⟩ := ih (length_dataSourcesAfter_le hlength tr₁) hrest
      refine ⟨hsome.cons hitem, fun live hlive => ?_⟩
      obtain ⟨hafter, hitems⟩ := hall live hlive
      exact ⟨by rw [hafter, dataSourcesAfter_append], tr₁, tr₂, rfl, hitem, hitems⟩
    rcases steps_bind_iff.mp h with ⟨p', hp, rfl⟩ | ⟨tr₁, live, tr₂, rfl, hfirst, hrest⟩
    · have hsome : DispatchesSome (item :: items) dataSources tr :=
        ⟨[], item :: items, [], tr, rfl, rfl, rfl, by simpa using (steps_indexForEach hlength hp).1⟩
      cases p' with
      | ret live => simpa using hnext hp (.refl _)
      | fail e => exact ⟨hsome, fun live hlive => by cases hlive⟩
      | ask q k => exact ⟨hsome, fun live hlive => by cases hlive⟩
    · exact hnext hfirst hrest

theorem relays_dispatch (dataSources : List ConcordiumDatasource) (items : List Indexed) :
    (dispatch dataSources items).Relays :=
  Proc.Relays.foldlM (fun _ _ => Proc.Relays.forLive fun _ => relays_await _) items dataSources

/-! ### Calls that create nothing -/

theorem flatMap_dispatchItems (sdk : Sdk) (c : BlockContent) (b : ConcordiumBlock)
    (dataSources : List ConcordiumDatasource) :
    (dispatchItems sdk c b).flatMap (forEach dataSources) = dispatchOrder sdk c b dataSources := by
  simp only [dispatchItems, dispatchOrder, List.flatMap_append, List.flatMap_cons,
    List.flatMap_assoc, List.flatMap_map]

theorem Dispatches.requests_of_quiet (hlength : dataSources.length ≤ maxArrayLength)
    {items : List Indexed} {tr : IndexTrace} (hquiet : ∀ ev ∈ tr, created ev = [])
    (h : Dispatches items dataSources tr) :
    tr.map Sigma.fst = (items.flatMap (forEach dataSources)).map IndexRequest.indexData := by
  induction items generalizing tr with
  | nil =>
    obtain rfl : tr = [] := h
    rfl
  | cons item items ih =>
    obtain ⟨tr₁, tr₂, rfl, hitem, hitems⟩ := h
    obtain ⟨hquiet₁, hquiet₂⟩ := List.forall_mem_append.mp hquiet
    rw [dataSourcesAfter_of_quiet hlength hquiet₁] at hitem hitems
    rw [List.map_append, hitem, ih hquiet₂ hitems, List.flatMap_cons, List.map_append]

theorem DispatchesSome.requests_of_quiet (hlength : dataSources.length ≤ maxArrayLength)
    {items : List Indexed} {tr : IndexTrace} (hquiet : ∀ ev ∈ tr, created ev = [])
    (h : DispatchesSome items dataSources tr) :
    tr.map Sigma.fst <+: (items.flatMap (forEach dataSources)).map IndexRequest.indexData := by
  obtain ⟨done, rest, tr₁, tr₂, rfl, rfl, hdone, hrest⟩ := h
  rw [dataSourcesAfter_of_quiet hlength hquiet] at hrest
  obtain ⟨hquiet₁, -⟩ := List.forall_mem_append.mp hquiet
  rw [List.map_append, hdone.requests_of_quiet hlength hquiet₁, List.flatMap_append,
    List.map_append, List.prefix_append_right_inj]
  refine hrest.trans (List.IsPrefix.map _ ?_)
  cases rest with
  | nil => exact List.nil_prefix
  | cons item rest => simp

theorem run_dispatch (hlength : dataSources.length ≤ maxArrayLength) (items : List Indexed)
    {answer : (q : IndexRequest) → Except JsError q.Reply}
    (hanswer : ∀ call, answer (.indexData call) = .ok ([] : List ConcordiumDatasource)) :
    (dispatch dataSources items).run answer = .ok dataSources ∧
      ((dispatch dataSources items).log answer).map Sigma.fst =
        (items.flatMap (forEach dataSources)).map IndexRequest.indexData := by
  have hvisit : ∀ item, ∀ ds ∈ dataSources, (indexData item ds).run answer = .ok [] :=
    fun item ds _ => (Proc.run_await _).trans (hanswer ⟨item, ds⟩)
  induction items with
  | nil => exact ⟨rfl, rfl⟩
  | cons item items ih =>
    obtain ⟨hrun, hlog⟩ := run_forLive hlength (hvisit item)
    have hfirst : (indexForEach item dataSources).run answer = .ok dataSources := hrun
    rw [dispatch, List.foldlM_cons, Proc.run_bind, hfirst, Proc.log_bind hfirst]
    refine ⟨ih.1, ?_⟩
    have hitem : ((indexForEach item dataSources).log answer).map Sigma.fst =
        (forEach dataSources item).map IndexRequest.indexData := by
      have hlogs : ∀ ds, ((indexData item ds).log answer).map Sigma.fst = [.indexData ⟨item, ds⟩] :=
        fun ds => congrArg (List.map Sigma.fst) (Proc.log_await _)
      rw [indexForEach, hlog, List.map_flatMap, funext hlogs, forEach, List.map_map,
        List.map_eq_flatMap]
      rfl
    rw [List.map_append, hitem, List.flatMap_cons, List.map_append]
    exact congrArg _ ih.2

/-! ### Blocks that were fetched -/

/-- **Dispatch is complete, in order, and without repetition.** For a block assembled from `c`,
whose transactions have different hashes: what has been called at any time are the calls for the
first items of the block in order, each for every data source there is by then, and the first ones
for the next item; a run that returns has called for all items; and it only fails when a call does.
As long as no data source is created, what has been called is an initial segment of a fixed list,
and all of it if the run returns. -/
theorem indexBlockData_dispatches (sdk : Sdk) (lodash : Lodash) (hlodash : lodash.Documented)
    (height : ℕ) (hashes : List String) (c : BlockContent) (ib : IBlock)
    (hfetch : Steps (getAndWrapBlock sdk lodash height) (fetchTrace height hashes c) (.ret ib))
    (hs : List String) (hnodup : hs.Nodup)
    (hhashes : c.transactions.map (·.prop "hash") = hs.map .str)
    (dataSources : List ConcordiumDatasource) (hlength : dataSources.length ≤ maxArrayLength) :
    (∀ tr p, Steps (indexBlockData ib.block dataSources) tr p →
        DispatchesSome (dispatchItems sdk c ib.block) dataSources tr) ∧
      (∀ tr live, Steps (indexBlockData ib.block dataSources) tr (.ret live) →
        live = dataSourcesAfter dataSources tr ∧
          Dispatches (dispatchItems sdk c ib.block) dataSources tr) ∧
      (∀ tr e, Steps (indexBlockData ib.block dataSources) tr (.fail e) →
        ∃ q, ⟨q, .error e⟩ ∈ tr) ∧
      ∀ tr p, Steps (indexBlockData ib.block dataSources) tr p → (∀ ev ∈ tr, created ev = []) →
        tr.map Sigma.fst <+:
            (dispatchOrder sdk c ib.block dataSources).map IndexRequest.indexData ∧
          ∀ live, p = .ret live → tr.map Sigma.fst =
            (dispatchOrder sdk c ib.block dataSources).map IndexRequest.indexData := by
  obtain ⟨hashes', c', htrace, hblock⟩ := returns_fetchBlock_iff.mp hfetch
  have hcontent : assembleContent sdk lodash c = .ok ib.block := by
    obtain ⟨-, rfl⟩ := fetchTrace_injective htrace
    exact hblock
  obtain ⟨-, hlinked⟩ := (assembleContent_eq_ok_iff hlodash).mp hcontent
  rw [indexBlockData_eq_dispatch hlinked hnodup hhashes]
  refine ⟨fun tr p h => (steps_dispatch hlength h).1,
    fun tr live h => (steps_dispatch hlength h).2 live rfl, fun tr e h => ?_,
    fun tr p h hquiet => ?_⟩
  · obtain ⟨tr₁, q, rfl, -⟩ := (relays_dispatch dataSources _).fails h
    exact ⟨q, List.mem_append_right _ List.mem_cons_self⟩
  · obtain ⟨hsome, hall⟩ := steps_dispatch hlength h
    rw [← flatMap_dispatchItems]
    exact ⟨hsome.requests_of_quiet hlength hquiet,
      fun live hlive => (hall live hlive).2.requests_of_quiet hlength hquiet⟩

/-- A data source whose handler creates another one, and the one that it creates. -/
def factoryDatasource : ConcordiumDatasource :=
  ⟨"concordium/Runtime", none, [.item .transaction none]⟩

def createdDatasource : ConcordiumDatasource := ⟨"concordium/Runtime", none, []⟩

/-- The handler does so when it is called for one transaction. -/
def answerCreating : (q : IndexRequest) → Except JsError q.Reply
  | .indexData ⟨.transaction tx, ds⟩ =>
    .ok (if strictEq (tx.prop "hash") (.str "t1") && !ds.handlers.isEmpty then [createdDatasource]
      else [])
  | .indexData _ => .ok []
  | .getDataSources _ => .ok [factoryDatasource]
  | .processUnfinalizedBlocks _ => .ok none

theorem run_answerCreating :
    (indexBlockData transferBlockAssembled [factoryDatasource]).run answerCreating =
      .ok [factoryDatasource, createdDatasource] := by rfl

/-- The block is dispatched, while a data source is created. -/
theorem transferBlock_dispatches :
    ∃ tr, Steps (indexBlockData transferBlockAssembled [factoryDatasource]) tr
        (.ret [factoryDatasource, createdDatasource]) ∧
      Dispatches (dispatchItems Sdk.reference transferBlock transferBlockAssembled)
        [factoryDatasource] tr := by
  obtain ⟨tr, hrun, -⟩ := run_eq_ok_iff.mp run_answerCreating
  exact ⟨tr, hrun, ((indexBlockData_dispatches Sdk.reference Lodash.reference
    Lodash.reference_documented 9 ["b9"] transferBlock ⟨transferBlockAssembled⟩
    (returns_fetchBlock_iff.mpr ⟨_, _, rfl, rfl⟩) ["t1", "t2"] (by decide) rfl
    [factoryDatasource] (by decide)).2.1 tr _ hrun).2⟩

/-- The data source that was created is called for what is left of the block, so more calls are
made than for the data sources that there were. -/
theorem not_dispatchOrder_of_created :
    ∃ tr live, Steps (getAndWrapBlock Sdk.reference Lodash.reference 9)
        (fetchTrace 9 ["b9"] transferBlock) (.ret ⟨transferBlockAssembled⟩) ∧
      Steps (indexBlockData transferBlockAssembled [factoryDatasource]) tr (.ret live) ∧
      tr.map Sigma.fst ≠
        (dispatchOrder Sdk.reference transferBlock transferBlockAssembled [factoryDatasource]).map
          IndexRequest.indexData := by
  obtain ⟨hrun, -⟩ := steps_run answerCreating
    (indexBlockData transferBlockAssembled [factoryDatasource])
  rw [run_answerCreating] at hrun
  refine ⟨_, _, returns_fetchBlock_iff.mpr ⟨_, _, rfl, rfl⟩, hrun, fun h => ?_⟩
  exact absurd (congrArg List.length h) (by decide +kernel)

end SubqlConcordium
