import SubqlConcordium.Endpoints
import SubqlConcordium.Finality
import SubqlConcordium.HandlerCalls
import SubqlConcordium.Js.Object

/-!
# One run from two endpoints

The filter of a block handler may depend on the node, by the time at which the node received the
block. Nothing else does. For two runs over the same blocks of a chain, each as another node has
them, the same handlers are called with the same items in the same order, if the schedules answer
alike for the times that the two nodes report.

Items are linked to their block, and so differ where the blocks do. A filter may ask for `block`
like for any property, but a block is not an address, so no comparison with it succeeds.

## What is assumed of the schedules

As in `HandlerCalls`, one function `filterBlockTimestamp` answers for the cron schedules over the
whole run, whichever node it is on; `SchedulesAgree` asks this function for the times that the two
nodes report. Nothing is said of schedules that have moved differently in the two runs.

## Main definitions

* `SameBlock` — a block as two nodes have it
* `HandlerCall.SameAt` — the same call, for the same item of a block

## Main results

* `FilterTypeMap_sameItem` — the filters do not tell the nodes apart
* `runHandlerCalls_endpoints` — the handlers called over a run
-/

namespace SubqlConcordium

open Js

/-! ### The same items -/

/-- What a node adds to a block does not make it look like an address. -/
def BlockInfo.IsNoAddress (info : BlockInfo) : Prop :=
  info.rest.lookup "type" = none ∧ info.rest.lookup "index" = none

/-- A block as two nodes have it. -/
structure SameBlock (c c' : BlockContent) : Prop extends SameChainContent c c' where
  blockHash : c.info.blockHash = c'.info.blockHash
  isNoAddress : c.info.IsNoAddress
  isNoAddress' : c'.info.IsNoAddress

/-- The same data of a block that two nodes have. -/
inductive SameItem (sdk : Sdk) (c c' : BlockContent) : Indexed → Indexed → Prop
  | block : SameItem sdk c c' (.block (blockOf sdk c)) (.block (blockOf sdk c'))
  | item (kind : ItemKind) (item : Obj) :
    SameItem sdk c c' (.ofItem kind (linkItem (earlyContent sdk c) item))
      (.ofItem kind (linkItem (earlyContent sdk c') item))

/-- The same call for the same data. -/
def IndexCall.SameAt (sdk : Sdk) (c c' : BlockContent) (x y : IndexCall) : Prop :=
  x.ds = y.ds ∧ SameItem sdk c c' x.data y.data

/-- The same handler, called for the same data of some block. -/
def HandlerCall.SameAt (sdk : Sdk) (x y : HandlerCall) : Prop :=
  x.handler = y.handler ∧ ∃ c c', SameBlock c c' ∧ IndexCall.SameAt sdk c c' x.call y.call

/-- The schedules of the block handlers answer alike for the times at which two nodes received a
block. -/
def SchedulesAgree (filterBlockTimestamp : ℤ → Option BlockFilter → Bool)
    (dataSources : List ConcordiumDatasource) (c c' : BlockContent) : Prop :=
  ∀ ds ∈ dataSources, ∀ filter, .block filter ∈ ds.handlers →
    filterBlockTimestamp c.info.blockReceiveTime filter =
      filterBlockTimestamp c'.info.blockReceiveTime filter

variable {sdk : Sdk} {lodash : Lodash} {fbt : ℤ → Option BlockFilter → Bool} {c c' : BlockContent}
  {dataSources : List ConcordiumDatasource} {indexData : IndexData}

/-! ### Filters do not tell the nodes apart -/

/-- A property of the block, other than those that are fetched besides its info. -/
theorem prop_toObj {b : ConcordiumBlock} {k : String}
    (hk : k ∉ ["finalizationSummary", "transactions", "transactionEvents", "specialEvents"]) :
    b.toObj.prop k = b.toBlockInfo.toObj.prop k := by
  simp only [List.mem_cons, List.not_mem_nil, or_false, not_or] at hk
  obtain ⟨h₁, h₂, h₃, h₄⟩ := hk
  rw [ConcordiumBlock.toObj, Obj.prop_put_of_ne _ _ h₄, Obj.prop_put_of_ne _ _ h₃,
    Obj.prop_put_of_ne _ _ h₂, Obj.prop_put_of_ne _ _ h₁]

theorem BlockInfo.IsNoAddress.prop_eq {info : BlockInfo} (h : info.IsNoAddress) :
    info.toObj.prop "type" = .undefined ∧ info.toObj.prop "index" = .undefined := by
  have htype : info.toObj.lookup "type" = info.rest.lookup "type" := rfl
  have hindex : info.toObj.lookup "index" = info.rest.lookup "index" := rfl
  exact ⟨Obj.prop_of_lookup_none (by decide) (htype.trans h.1),
    Obj.prop_of_lookup_none (by decide) (hindex.trans h.2)⟩

/-- **No comparison with a block succeeds.** -/
theorem equalsValue_block {b : ConcordiumBlock} (hb : b.toBlockInfo.IsNoAddress) (s : String) :
    equalsValue (.obj b.toObj) s = .ok false := by
  have hdefined : (Value.obj b.toObj).Defined := trivial
  have htype : (Value.obj b.toObj).field "type" = .undefined :=
    (prop_toObj (by decide)).trans hb.prop_eq.1
  have hindex : (Value.obj b.toObj).field "index" = .undefined :=
    (prop_toObj (by decide)).trans hb.prop_eq.2
  have hnotAccount : ¬ IsAccount (.obj b.toObj) s := by simp [IsAccount, htype]
  have hnotContract : ¬ IsContract (.obj b.toObj) := by simp [IsContract, hindex, Value.typeof]
  have hnotTagged : ¬ IsTagged (.obj b.toObj) := by simp [IsTagged, htype]
  have haddress : equalsAddress (.obj b.toObj) s = .ok false := by
    rw [equalsAddress, isAddress_eq_false_iff.mpr ⟨hdefined, hnotTagged⟩]
    rfl
  have hbigint : equalsBigInt (.obj b.toObj) s = false := by
    rw [equalsBigInt]
    cases bigIntOfString s <;> rfl
  simp only [equalsValue, orM_eq_false_iff]
  exact ⟨rfl, equalsAddressAccount_eq_false_iff.mpr ⟨hdefined, hnotAccount⟩,
    equalsContractAddress_eq_false_iff.mpr ⟨hdefined, fun h => absurd h hnotContract⟩, haddress,
    congrArg Except.ok hbigint⟩

theorem equalsValue_linkItem {b b' : ConcordiumBlock} (hb : b.toBlockInfo.IsNoAddress)
    (hb' : b'.toBlockInfo.IsNoAddress) (item : Obj) (k s : String) :
    equalsValue ((linkItem b item).prop k) s = equalsValue ((linkItem b' item).prop k) s := by
  by_cases hk : k = "block"
  · subst hk
    rw [linkItem, linkItem, Obj.prop_put_self, Obj.prop_put_self, equalsValue_block hb,
      equalsValue_block hb']
  · rw [prop_linkItem hk, prop_linkItem hk]

theorem filterValuesLoop_congr {o o' : Obj}
    (h : ∀ k s, equalsValue (o.prop k) s = equalsValue (o'.prop k) s)
    (entries : List (String × String)) :
    filterValuesLoop o entries = filterValuesLoop o' entries := by
  induction entries with
  | nil => rfl
  | cons p entries ih =>
    obtain ⟨k, s⟩ := p
    rw [filterValuesLoop, filterValuesLoop, h, ih]

theorem filterTransactionsProcessor_linkItem (b b' : ConcordiumBlock) (item : Obj)
    (filter : Option ValuesFilter) :
    filterTransactionsProcessor (linkItem b item) filter =
      filterTransactionsProcessor (linkItem b' item) filter := by
  have htype : (linkItem b item).prop "type" = (linkItem b' item).prop "type" := by
    rw [prop_linkItem (by decide), prop_linkItem (by decide)]
  have hsame : ∀ k s, strictEq (.str s) ((linkItem b item).prop k) =
      strictEq (.str s) ((linkItem b' item).prop k) := by
    intro k s
    by_cases hk : k = "block"
    · subst hk
      rw [linkItem, linkItem, Obj.prop_put_self, Obj.prop_put_self]
      rfl
    · rw [prop_linkItem hk, prop_linkItem hk]
  simp only [filterTransactionsProcessor, htype, hsame]

theorem filterTxEventProcessor_linkItem {b b' : ConcordiumBlock} (hb : b.toBlockInfo.IsNoAddress)
    (hb' : b'.toBlockInfo.IsNoAddress) (item : Obj) (filter : Option ValuesFilter) :
    filterTxEventProcessor (linkItem b item) filter =
      filterTxEventProcessor (linkItem b' item) filter := by
  have htag : (linkItem b item).prop "tag" = (linkItem b' item).prop "tag" := by
    rw [prop_linkItem (by decide), prop_linkItem (by decide)]
  simp only [filterTxEventProcessor, htag,
    filterValuesLoop_congr (equalsValue_linkItem hb hb' item)]

/-- **The filters do not tell the nodes apart**, as long as the schedules do not. -/
theorem FilterTypeMap_sameItem (h : SameBlock c c') {data data' : Indexed}
    (hdata : SameItem sdk c c' data data') {handler : SubqlHandler}
    (hschedule : ∀ filter, handler = .block filter →
      fbt c.info.blockReceiveTime filter = fbt c'.info.blockReceiveTime filter) :
    FilterTypeMap fbt data handler = FilterTypeMap fbt data' handler := by
  cases hdata with
  | block =>
    cases handler with
    | block filter =>
      have hheight : (blockOf sdk c).blockHeight = (blockOf sdk c').blockHeight := h.blockHeight
      have htime : fbt (blockOf sdk c).blockReceiveTime filter =
          fbt (blockOf sdk c').blockReceiveTime filter := hschedule filter rfl
      rw [FilterTypeMap, FilterTypeMap, filterBlocksProcessor_eq, filterBlocksProcessor_eq, hheight,
        htime]
    | _ => rfl
  | item kind item =>
    have hevent : ∀ filter, filterTxEventProcessor (linkItem (earlyContent sdk c) item) filter =
        filterTxEventProcessor (linkItem (earlyContent sdk c') item) filter :=
      filterTxEventProcessor_linkItem h.isNoAddress h.isNoAddress' item
    rcases handler with filter | ⟨kind', filter⟩ | ⟨kind', filter⟩
    · cases kind <;> rfl
    · cases kind <;> cases kind' <;> first
        | rfl
        | exact hevent filter
        | exact congrArg Except.ok (filterTransactionsProcessor_linkItem _ _ item filter)
    · cases kind <;> rfl

/-! ### The same calls -/

theorem forEach_sameAt {data data' : Indexed} (hdata : SameItem sdk c c' data data') :
    List.Forall₂ (fun x y => x.ds ∈ dataSources ∧ IndexCall.SameAt sdk c c' x y)
      (forEach dataSources data) (forEach dataSources data') := by
  rw [forEach, forEach, List.forall₂_map_left_iff, List.forall₂_map_right_iff, List.forall₂_same]
  exact fun ds hds => ⟨hds, rfl, hdata⟩

/-- **The same calls are due** for a block that two nodes have. -/
theorem dispatchOrder_sameAt (h : SameBlock c c') :
    List.Forall₂ (fun x y => x.ds ∈ dataSources ∧ IndexCall.SameAt sdk c c' x y)
      (dispatchOrder sdk c (blockOf sdk c) dataSources)
      (dispatchOrder sdk c' (blockOf sdk c') dataSources) := by
  have hflatMap : ∀ {items : List Obj} {f f' : Obj → List IndexCall},
      (∀ item, List.Forall₂ (fun x y => x.ds ∈ dataSources ∧ IndexCall.SameAt sdk c c' x y)
        (f item) (f' item)) →
      List.Forall₂ (fun x y => x.ds ∈ dataSources ∧ IndexCall.SameAt sdk c c' x y)
        (items.flatMap f) (items.flatMap f') := by
    intro items f f' hf
    refine List.rel_flatMap (List.forall₂_same.mpr fun item _ => rfl) ?_
    rintro item _ rfl
    exact hf item
  rw [dispatchOrder, dispatchOrder, h.transactions, h.specialEvents]
  refine List.rel_append (List.rel_append (forEach_sameAt .block) (hflatMap fun tx => ?_))
    (hflatMap fun evt => forEach_sameAt (.item .specialEvent evt))
  exact List.rel_append (forEach_sameAt (.item .transaction tx))
    (hflatMap fun evt => forEach_sameAt (.item .transactionEvent evt))

/-- **The same handlers are called** for the same call. -/
theorem handlerCalls_sameAt (hindexData : indexData.Documented fbt) (h : SameBlock c c')
    {x y : IndexCall} (hxy : IndexCall.SameAt sdk c c' x y) (hruntime : isRuntimeDs x.ds = true)
    (hschedules : ∀ filter, .block filter ∈ x.ds.handlers →
      fbt c.info.blockReceiveTime filter = fbt c'.info.blockReceiveTime filter)
    {calls : List HandlerCall} (hcalls : handlerCalls indexData x = .ok calls) :
    ∃ calls', handlerCalls indexData y = .ok calls' ∧
      List.Forall₂ (HandlerCall.SameAt sdk) calls calls' := by
  obtain ⟨handlers, hhandlers, hcalls⟩ := bind_eq_ok_iff.mp hcalls
  cases hcalls
  have hruntime' : isRuntimeDs y.ds = true := hxy.1 ▸ hruntime
  have hsame : indexData x = indexData y := by
    rw [hindexData x hruntime, hindexData y hruntime', ← hxy.1]
    exact filterE_congr fun handler hhandler =>
      FilterTypeMap_sameItem h hxy.2 fun filter hfilter => hschedules filter (hfilter ▸ hhandler)
  refine ⟨handlers.map fun handler => ⟨y, handler⟩, ?_, ?_⟩
  · rw [handlerCalls, ← hsame, hhandlers]
    rfl
  · rw [List.forall₂_map_left_iff, List.forall₂_map_right_iff, List.forall₂_same]
    exact fun handler _ => ⟨rfl, c, c', h, hxy⟩

theorem assembleContent_sameBlock (hlodash : lodash.Documented) (h : SameBlock c c')
    {b : ConcordiumBlock} (hb : assembleContent sdk lodash c = .ok b) :
    b = blockOf sdk c ∧ assembleContent sdk lodash c' = .ok (blockOf sdk c') := by
  obtain ⟨hevents, hb⟩ := (assembleContent_eq_ok_iff hlodash).mp hb
  exact ⟨hb, (assembleContent_eq_ok_iff hlodash).mpr ⟨h.transactions ▸ hevents, rfl⟩⟩

/-- **The same handlers are called** for a block that two nodes have. -/
theorem blockHandlerCalls_sameAt (hlodash : lodash.Documented)
    (hindexData : indexData.Documented fbt) (h : SameBlock c c')
    (hruntime : ∀ ds ∈ dataSources, isRuntimeDs ds = true)
    (hschedules : SchedulesAgree fbt dataSources c c') {calls : List HandlerCall}
    (hcalls : blockHandlerCalls sdk lodash indexData dataSources c = .ok calls) :
    ∃ calls', blockHandlerCalls sdk lodash indexData dataSources c' = .ok calls' ∧
      List.Forall₂ (HandlerCall.SameAt sdk) calls calls' := by
  obtain ⟨b, hb, hcalls⟩ := bind_eq_ok_iff.mp hcalls
  obtain ⟨rfl, hb'⟩ := assembleContent_sameBlock hlodash h hb
  obtain ⟨callss, hcallss, hcalls⟩ := bind_eq_ok_iff.mp hcalls
  cases hcalls
  obtain ⟨callss', hcallss', hsame⟩ := mapM_rel (dispatchOrder_sameAt h)
    (fun x y hxy called hcalled => handlerCalls_sameAt hindexData h hxy.2 (hruntime _ hxy.1)
      (hschedules _ hxy.1) hcalled) hcallss
  exact ⟨callss'.flatten, bind_eq_ok_iff.mpr ⟨_, hb', bind_eq_ok_iff.mpr ⟨_, hcallss', rfl⟩⟩,
    List.rel_flatten hsame⟩

/-- **A run does not depend on the endpoint**, schedules aside. Two nodes have the blocks of a run,
each with what only it knows of them, and the data sources at each height are runtime ones. If the
schedules of their block handlers answer alike for the times at which the nodes received a block,
and the run over the blocks of one node returns, the one over the blocks of the other returns calls
of the same handlers for the same items in the same order. -/
theorem runHandlerCalls_endpoints (sdk : Sdk) (lodash : Lodash) (hlodash : lodash.Documented)
    (filterBlockTimestamp : ℤ → Option BlockFilter → Bool) (indexData : IndexData)
    (hindexData : indexData.Documented filterBlockTimestamp)
    (getDataSources : ℕ → List ConcordiumDatasource)
    (hruntime : ∀ height, ∀ ds ∈ getDataSources height, isRuntimeDs ds = true)
    (blocks blocks' : List BlockContent)
    (hblocks : List.Forall₂ (fun c c' => SameBlock c c' ∧
      SchedulesAgree filterBlockTimestamp (getDataSources c.info.blockHeight) c c') blocks blocks')
    (calls : List HandlerCall)
    (hcalls : runHandlerCalls sdk lodash indexData getDataSources blocks = .ok calls) :
    ∃ calls', runHandlerCalls sdk lodash indexData getDataSources blocks' = .ok calls' ∧
      List.Forall₂ (HandlerCall.SameAt sdk) calls calls' := by
  obtain ⟨callss, hcallss, hcalls⟩ := bind_eq_ok_iff.mp hcalls
  cases hcalls
  have hbody : ∀ c c', SameBlock c c' ∧
        SchedulesAgree filterBlockTimestamp (getDataSources c.info.blockHeight) c c' →
      ∀ called, blockHandlerCalls sdk lodash indexData (getDataSources c.info.blockHeight) c =
          .ok called →
        ∃ called', blockHandlerCalls sdk lodash indexData (getDataSources c'.info.blockHeight) c' =
            .ok called' ∧ List.Forall₂ (HandlerCall.SameAt sdk) called called' := by
    rintro c c' ⟨hsame, hschedules⟩ called hcalled
    rw [← hsame.blockHeight]
    exact blockHandlerCalls_sameAt hlodash hindexData hsame (hruntime _) hschedules hcalled
  obtain ⟨callss', hcallss', hsame⟩ := mapM_rel hblocks hbody hcallss
  exact ⟨callss'.flatten, bind_eq_ok_iff.mpr ⟨_, hcallss', rfl⟩, List.rel_flatten hsame⟩

/-- The block with a transfer, as a node that received it earlier has it. -/
def transferBlockEarlier : BlockContent :=
  { transferBlock with info := { transferBlock.info with blockReceiveTime := 2300 } }

/-- A data source with handlers of blocks and of transactions, without filters. -/
def unfilteredDatasource : ConcordiumDatasource where
  kind := "concordium/Runtime"
  processor := none
  handlers := [.block none, .item .transaction none]

theorem runHandlerCalls_transferBlock :
    ∃ calls calls',
      runHandlerCalls Sdk.reference Lodash.reference (IndexData.reference pastSchedule)
        (fun _ => [unfilteredDatasource]) [transferBlock] = .ok calls ∧
      runHandlerCalls Sdk.reference Lodash.reference (IndexData.reference pastSchedule)
        (fun _ => [unfilteredDatasource]) [transferBlockEarlier] = .ok calls' ∧
      List.Forall₂ (HandlerCall.SameAt Sdk.reference) calls calls' := by
  have hsame : SameBlock transferBlock transferBlockEarlier :=
    { blockHeight := rfl, blockParent := rfl, blockSlotTime := rfl, finalizationSummary := rfl,
      transactions := rfl, specialEvents := rfl, blockHash := rfl, isNoAddress := ⟨rfl, rfl⟩,
      isNoAddress' := ⟨rfl, rfl⟩ }
  have hschedules : SchedulesAgree pastSchedule [unfilteredDatasource] transferBlock
      transferBlockEarlier := by
    intro ds hds filter hfilter
    obtain rfl := List.mem_singleton.mp hds
    simp only [unfilteredDatasource, List.mem_cons, SubqlHandler.block.injEq, reduceCtorEq,
      List.not_mem_nil, or_false] at hfilter
    rw [hfilter]
    rfl
  obtain ⟨calls', hcalls', hcalls⟩ := runHandlerCalls_endpoints Sdk.reference Lodash.reference
    Lodash.reference_documented pastSchedule (IndexData.reference pastSchedule)
    (IndexData.reference_documented pastSchedule) (fun _ => [unfilteredDatasource])
    (fun _ ds hds => by rw [List.mem_singleton.mp hds]; rfl) [transferBlock] [transferBlockEarlier]
    (.cons ⟨hsame, hschedules⟩ .nil) _ rfl
  exact ⟨_, calls', rfl, hcalls', hcalls⟩

end SubqlConcordium
