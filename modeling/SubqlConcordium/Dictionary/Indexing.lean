import SubqlConcordium.Dictionary.Run
import SubqlConcordium.IndexingRun

/-!
# Indexing a chain with a dictionary

The parts put together: blocks that the dictionary lets through are fetched from a node, round after
round and along any interleaving, assembled, and indexed one after the other. What comes out of it
are the handler calls due along the whole finalized chain, of which the indexer has seen a few
blocks.

## What is composed

Three results meet here. `fetchRun_refines_walk` says which calls are made for the blocks fetched,
`runHandlerCalls_dictionary` says that a block the dictionary does not let through has no handlers
to be called, and `FetchRun.fetchedAt` says that the blocks fetched are those of the one chain.

The first two speak of different things. Indexing is a process and its calls are requests, whose
replies are not up to the indexer, whereas the second is about a function. So the end-to-end
statement is about every indexing that returns, under two conditions on its replies: the data
sources are those given by height, and none is created on the way.

## Main definitions

* `emptyDictionary` — the dictionary of the example

## Main results

* `mapM_handlerCalls_dueCalls` — the calls due along a chain, and the handlers they are made of
* `indexBlocks_dictionary` — what is indexed with a dictionary is the whole chain
-/

namespace SubqlConcordium

open Consensus Interaction Js

variable {sdk : Sdk} {lodash : Lodash} {indexData : IndexData} {content : String → BlockContent}
  {getDataSources : ℕ → List ConcordiumDatasource} {hashes : List String}

theorem mapM_handlerCalls_dispatchOrder (hlodash : lodash.Documented) {c : BlockContent}
    {dataSources : List ConcordiumDatasource} {calls : List HandlerCall}
    (h : blockHandlerCalls sdk lodash indexData dataSources c = .ok calls) :
    ∃ callss, (dispatchOrder sdk c (blockOf sdk c) dataSources).mapM (handlerCalls indexData) =
      .ok callss ∧ callss.flatten = calls := by
  obtain ⟨b, hb, h⟩ := bind_eq_ok_iff.mp h
  obtain rfl : b = blockOf sdk c := ((assembleContent_eq_ok_iff hlodash).mp hb).2
  obtain ⟨callss, hcallss, h⟩ := bind_eq_ok_iff.mp h
  exact ⟨callss, hcallss, Except.ok.inj h⟩

/-- **The handlers called over a run** are those called for what is due along the chain. -/
theorem mapM_handlerCalls_dueCalls (hlodash : lodash.Documented) {calls : List HandlerCall}
    (h : runHandlerCalls sdk lodash indexData getDataSources (hashes.map content) = .ok calls) :
    ∃ callss, (dueCalls sdk content getDataSources hashes).mapM (handlerCalls indexData) =
      .ok callss ∧ callss.flatten = calls := by
  obtain ⟨perBlock, hperBlock, h⟩ := bind_eq_ok_iff.mp h
  cases h
  have hsame : List.Forall₂ (fun c x => c = content x) (hashes.map content) hashes := by
    rw [List.forall₂_map_left_iff, List.forall₂_same]
    exact fun _ _ => rfl
  have hbody : ∀ c x, c = content x → ∀ calls,
      blockHandlerCalls sdk lodash indexData (getDataSources c.info.blockHeight) c = .ok calls →
        ∃ callss : List (List HandlerCall),
          (dispatchOrder sdk (content x) (blockOf sdk (content x))
            (getDataSources (content x).info.blockHeight)).mapM (handlerCalls indexData) =
              .ok callss ∧ calls = callss.flatten := by
    rintro c x rfl calls hcalls
    obtain ⟨callss, hcallss, hflatten⟩ := mapM_handlerCalls_dispatchOrder hlodash hcalls
    exact ⟨callss, hcallss, hflatten.symm⟩
  obtain ⟨nested, hnested, hflatten⟩ := mapM_rel hsame hbody hperBlock
  refine ⟨nested.flatten, mapM_flatMap hnested, ?_⟩
  have hperBlock : perBlock = nested.map List.flatten := by
    rw [← List.forall₂_eq_eq_eq, List.forall₂_map_right_iff]
    exact hflatten
  rw [hperBlock, List.flatten_flatten]

/-- **The blocks fetched with a dictionary** are those of a walk that it lets through. -/
theorem hashes_of_fetchRun (hlodash : lodash.Documented) {n n' : NodeState}
    (hn : n.Finalizes content) {heights : List ℕ} {fetched : ℕ → Bool} {blocks : List IBlock}
    (hfetch : FetchRun sdk lodash content n (heights.filter fetched) blocks n')
    (hwalk : Walk (NodeState.IsParent content) (NodeState.heightOf content) n'.lastFinalized
      heights hashes) :
    (blocks.map fun ib => ib.getHeader.blockHash) =
      hashes.filter fun x => fetched (NodeState.heightOf content x) :=
  (walk_of_fetchedAt (hfetch.fetchedAt hlodash hn).2).unique (NodeState.ancestry content)
    (.inl .refl) (hwalk.filter fetched)

/-- **What is indexed with a dictionary is the whole chain.** Of the heights of a walk along the
finalized chain, those that the dictionary lets through are fetched, over any number of rounds and
along any interleaving in each, and indexed in order. The data sources are fixed by height, some
active at each height that is fetched, no handler creates one, and the chain is not left. If the
handlers due along the whole walk can be told, they are those that are called by any indexing that
returns, in the same order. -/
theorem indexBlocks_dictionary (sdk : Sdk) (lodash : Lodash) (hlodash : lodash.Documented)
    (filterBlockTimestamp : ℤ → Option BlockFilter → Bool) (indexData : IndexData)
    (hindexData : indexData.Documented filterBlockTimestamp) (getModulos : GetModulos)
    (hmodulos : getModulos.Documented) (internalIndexBlock : InternalIndexBlock)
    (isActive : ℕ → ConcordiumDatasource → Bool)
    (hinternal : internalIndexBlock.Documented isActive)
    (getDataSources : ℕ → List ConcordiumDatasource)
    (entries : ℕ → List DictionaryQueryEntry) (dictionary : Dictionary) (fetched : ℕ → Bool)
    (hdecides : dictionary.Decides lodash getModulos (activeAt isActive getDataSources) entries
      fetched)
    (content : String → BlockContent) (hdistinct : ∀ x, DistinctHashes (content x))
    (n n' : NodeState) (hn : n.Finalizes content) (heights : List ℕ)
    (hsafe : ∀ height ∈ heights, height < 2 ^ 53)
    (hstocked : Stocked isActive getDataSources (heights.filter fetched)) (blocks : List IBlock)
    (hfetch : FetchRun sdk lodash content n (heights.filter fetched) blocks n')
    (hashes : List String)
    (hwalk : Walk (NodeState.IsParent content) (NodeState.heightOf content) n'.lastFinalized
      heights hashes)
    (hcovers : ∀ x ∈ hashes, dictionary.Covers sdk (content x)) (calls : List HandlerCall)
    (hcalls : runHandlerCalls sdk lodash indexData (activeAt isActive getDataSources)
      (hashes.map content) = .ok calls) (tr : IndexTrace)
    (hrun : Steps (indexBlocks internalIndexBlock blocks) tr (.ret ()))
    (hquiet : Quiet getDataSources tr) :
    ∃ callss, (indexCalls (tr.map Sigma.fst)).mapM (handlerCalls indexData) = .ok callss ∧
      callss.flatten = calls := by
  have hskip : ∀ c ∈ hashes.map content, fetched c.info.blockHeight = false → ∀ called,
      blockHandlerCalls sdk lodash indexData
        (activeAt isActive getDataSources c.info.blockHeight) c = .ok called → called = [] := by
    intro c hc hnot called hcalled
    obtain ⟨x, hx, rfl⟩ := List.mem_map.mp hc
    have hheight : (content x).info.blockHeight < 2 ^ 53 :=
      hsafe _ (hwalk.map_height ▸ List.mem_map_of_mem hx)
    exact hdecides.calls_eq_nil hlodash hindexData hmodulos (hcovers x hx) hheight hnot hcalled
  have hfilteredCalls := runHandlerCalls_filter hcalls hskip
  rw [List.filter_map] at hfilteredCalls
  obtain ⟨-, hdue⟩ := calls_indexBlocks (hfetch.fetchedAt hlodash hn).2 hdistinct hinternal
    hstocked hrun hquiet
  rw [hdue rfl, hashes_of_fetchRun hlodash hn hfetch hwalk]
  exact mapM_handlerCalls_dueCalls hlodash hfilteredCalls

/-- A dictionary without rows. -/
def emptyDictionary : Dictionary := ⟨fun _ _ => []⟩

theorem emptyDictionary_decides :
    emptyDictionary.Decides Lodash.reference GetModulos.reference constantDataSources
      (fun _ => accountTransactionEntries) fun height => decide (10 ∣ height) := by
  refine constantDataSources_decided fun height hfetches => ?_
  rcases hfetches with hdvd | ⟨entry, -, row, hrow⟩
  · exact decide_eq_true hdvd
  · cases hrow

theorem rawItems_twoBlocks (x : String) (kind : ItemKind) :
    rawItems Sdk.reference (twoBlocks x) kind = [] := by
  rw [twoBlocks]
  split <;> cases kind <;> rfl

theorem emptyDictionary_covers (x : String) :
    emptyDictionary.Covers Sdk.reference (twoBlocks x) := by
  intro kind fields hfields
  rw [rawItems_twoBlocks] at hfields
  cases hfields

theorem twoBlocks_walk :
    Walk (NodeState.IsParent twoBlocks) (NodeState.heightOf twoBlocks) twoBlockNode.lastFinalized
      [0, 1] ["b0", "b1"] :=
  have hparent : NodeState.IsParent twoBlocks "b0" "b1" := ⟨rfl, rfl⟩
  .cons ⟨.single hparent, rfl⟩ (.cons ⟨.refl, rfl⟩ .nil)

/-- Of two blocks, the second is neither at a multiple of the modulo nor in the dictionary. It is
skipped, and nothing was to be called for it. -/
theorem indexBlocks_twoBlocks :
    ∃ calls tr, runHandlerCalls Sdk.reference Lodash.reference (IndexData.reference fun _ _ => true)
        constantDataSources (["b0", "b1"].map twoBlocks) = .ok calls ∧
      Steps (indexBlocks (.reference (activeFrom 0)) [⟨blockOf Sdk.reference (twoBlocks "b0")⟩]) tr
        (.ret ()) ∧
      ∃ callss, (indexCalls (tr.map Sigma.fst)).mapM
          (handlerCalls (IndexData.reference fun _ _ => true)) =
        .ok callss ∧ callss.flatten = calls := by
  have hreturns : (indexBlocks (.reference (activeFrom 0))
      [⟨blockOf Sdk.reference (twoBlocks "b0")⟩]).run (quietAnswer constantDataSources) =
        .ok () := rfl
  obtain ⟨tr, hrun, hreplies⟩ := run_eq_ok_iff.mp hreturns
  have hquiet : Quiet constantDataSources tr := fun ev hev r hr => by
    rw [hreplies ev hev] at hr
    exact (Except.ok.inj hr).symm
  have hstocked : Stocked (activeFrom 0) constantDataSources
      ([0, 1].filter fun height => decide (10 ∣ height)) :=
    ⟨fun _ => by simp [constantDataSources, maxArrayLength],
      fun _ _ => by simp [activeFrom, constantDataSources]⟩
  refine ⟨_, tr, rfl, hrun, indexBlocks_dictionary Sdk.reference Lodash.reference
    Lodash.reference_documented (fun _ _ => true) _ (IndexData.reference_documented _)
    GetModulos.reference GetModulos.reference_documented (.reference (activeFrom 0)) (activeFrom 0)
    (InternalIndexBlock.reference_documented _) constantDataSources
    (fun _ => accountTransactionEntries) emptyDictionary (fun height => decide (10 ∣ height))
    ?_ twoBlocks twoBlocks_distinctHashes twoBlockNode twoBlockNode twoBlockNode_finalizes [0, 1]
    (by decide) hstocked _ (FetchRun.nil.round (twoBlocks_fetchRound (.inl ⟨rfl, rfl⟩)))
    ["b0", "b1"] twoBlocks_walk (fun x _ => emptyDictionary_covers x) _ ?_ tr hrun hquiet⟩
  · rw [activeAt_activeFrom_zero]
    exact emptyDictionary_decides
  · rw [activeAt_activeFrom_zero]
    rfl

end SubqlConcordium
