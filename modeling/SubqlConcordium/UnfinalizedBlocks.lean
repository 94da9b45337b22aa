import SubqlConcordium.ProjectService

/-!
# Headers for fork detection

`UnfinalizedBlocksService` asks the API for the header of a block by hash, by height, and for the
last finalized one. The API object is untyped where it does so: a property that is not there is
`undefined`, and calling it throws before anything is sent.

## Calls by name

The type checker has nothing to say about these calls, so the model may not assume the methods
either. A name is looked up among the members of the class and what every object inherits, and only
two cases are modelled: the one method that is there, and names that are not. A name for which a
call would do something else is refused by `IsModelledName`, so that nothing can be proved about it
by accident.

## Main definitions

* `concordiumApiMembers`, `callApi` — the API object, and calls on it by name
* `getFinalizedHead`, `getHeaderForHash`, `getHeaderForHeight` — the service
* `HeaderAgreement` — the three give the header that indexing gives

## Main results

* `getHeader_of_fetchBlock` — the header of a fetched block is that of the block at its height
* `not_headerAgreement` — the headers by hash and by height never come; the finalized one does
-/

namespace SubqlConcordium

open Js Interaction

/-- The fields, methods and accessors of `ConcordiumApi`. -/
def concordiumApiMembers : List String :=
  ["client", "transport", "chainId", "name", "eventEmitter", "init", "getFinalizedBlock",
    "getFinalizedBlockHeight", "getBestBlockHeight", "getRuntimeChain", "getChainId",
    "getGenesisHash", "getSpecName", "getBlockByHash", "getAndWrapSpecialEvents",
    "wrapTransactionEvents", "getAndWrapTransactions", "getAndWrapBlock", "fetchBlock",
    "fetchBlocks", "api", "getSafeApi", "connect", "disconnect"]

/-- A name that calls on the API object are modelled for: a method that resolves to a block info
without an argument, or no property at all. -/
def IsModelledName (name : String) : Prop :=
  name = "getFinalizedBlock" ∨ (name ∉ concordiumApiMembers ∧ name ∉ objectPrototype)

instance (name : String) : Decidable (IsModelledName name) :=
  inferInstanceAs (Decidable (_ ∨ _))

/-- `this.apiService.api[name](argument)`. -/
def callApi (name : String) (_ : IsModelledName name) (_argument : Value) : NodeProc BlockInfo :=
  if name = "getFinalizedBlock" then getFinalizedBlock
  else .fail (typeError s!"this.apiService.api.{name} is not a function")

/-- `UnfinalizedBlocksService.getFinalizedHead`. -/
def getFinalizedHead : NodeProc Header := do
  let finalizedBlock ← callApi "getFinalizedBlock" (by decide) .undefined
  return blockToHeader finalizedBlock

/-- `UnfinalizedBlocksService.getHeaderForHash`. -/
def getHeaderForHash (hash : String) : NodeProc Header := do
  let block ← callApi "getBlockByHeightOrHash" (by decide) (.str hash)
  return blockToHeader block

/-- `UnfinalizedBlocksService.getHeaderForHeight`. -/
def getHeaderForHeight (height : ℕ) : NodeProc Header := do
  let block ← callApi "getBlockByHeightOrHash" (by decide) (.num height)
  return blockToHeader block

/-! ### Agreement -/

/-- If all requests that `p` makes succeed, it returns this header. -/
def SucceedsWith (n : NodeState) (p : NodeProc Header) (header : Header) : Prop :=
  (∀ ev ∈ p.log n.answer, ∃ a, ev.2 = .ok a) → p.run n.answer = .ok header

/-- **Header agreement** for a block of a node: by height, by hash and, for the last finalized
block, the service gives the header that a fetched block carries. -/
structure HeaderAgreement (n : NodeState) (b : BlockContent) : Prop where
  forHeight : SucceedsWith n (getHeaderForHeight b.info.blockHeight) (blockToHeader b.info)
  forHash : SucceedsWith n (getHeaderForHash b.info.blockHash) (blockToHeader b.info)
  finalizedHead : ∀ f, n.blocks n.lastFinalized = some f →
    SucceedsWith n getFinalizedHead (blockToHeader f.info)

variable {n : NodeState} {b : BlockContent}

theorem getHeader_of_fetchBlock {sdk : Sdk} {lodash : Lodash} {ib : IBlock}
    (hblock : n.blocks b.info.blockHash = some b)
    (honly : n.hashesAt b.info.blockHeight = [b.info.blockHash])
    (h : (fetchBlock sdk lodash b.info.blockHeight).run n.answer = .ok ib) :
    ib.getHeader = blockToHeader b.info := by
  obtain ⟨hashes, c, hev, hcontent⟩ := run_fetchBlock_eq_ok_iff.mp h
  have hhashes :=
    (hev ⟨.getBlocksAtHeight b.info.blockHeight, .ok hashes⟩ (by simp [fetchTrace])).symm
  have hinfo := (hev ⟨.getBlockInfo hashes.head?, .ok c.info⟩ (by simp [fetchTrace])).symm
  obtain ⟨d, hd, hdinfo, -, hhead⟩ := info_of_head hhashes hinfo (by simp [honly])
  rw [honly, List.head?_cons, Option.some.injEq] at hhead
  rw [← hhead, hblock] at hd
  cases hd
  rw [IBlock.getHeader, toBlockInfo_of_assembleContent hcontent, hdinfo]

/-- The finalized head is the header of the last finalized block. -/
theorem getFinalizedHead_succeedsWith {f : BlockContent}
    (hf : n.blocks n.lastFinalized = some f) :
    SucceedsWith n getFinalizedHead (blockToHeader f.info) := by
  intro hsucceeds
  have hhead : getFinalizedHead = (request (.getBlockInfo none) >>= fun info =>
      pure (blockToHeader info) : NodeProc Header) := rfl
  obtain ⟨info, hinfo⟩ : ∃ info : BlockInfo, n.answer (.getBlockInfo none) = .ok info :=
    hsucceeds ⟨.getBlockInfo none, n.answer (.getBlockInfo none)⟩ List.mem_cons_self
  have hreply := (NodeState.answer_eq_ok hinfo).2
  obtain ⟨f', hf', hinfo'⟩ := NodeState.map_find_eq_ok_iff.mp hreply
  rw [hf] at hf'
  cases hf'
  rw [hhead, Proc.run_bind, Proc.run_await, hinfo, ← hinfo']
  rfl

/-- A call of a missing method throws before any request. -/
theorem not_succeedsWith_of_fail {e : JsError} {header : Header} :
    ¬ SucceedsWith n (.fail e) header := by
  intro h
  have hrun := h (by simp [Proc.log])
  cases hrun

/-- **The headers by height and by hash are never obtained**, from whatever node and for whatever
block: no request is made and none fails, and still the call throws. The finalized head is right. -/
theorem not_headerAgreement (n : NodeState) (b : BlockContent) :
    ¬ HeaderAgreement n b ∧
      ¬ SucceedsWith n (getHeaderForHeight b.info.blockHeight) (blockToHeader b.info) ∧
      ¬ SucceedsWith n (getHeaderForHash b.info.blockHash) (blockToHeader b.info) ∧
      ∀ f, n.blocks n.lastFinalized = some f →
        SucceedsWith n getFinalizedHead (blockToHeader f.info) :=
  ⟨fun h => not_succeedsWith_of_fail h.forHeight, not_succeedsWith_of_fail,
    not_succeedsWith_of_fail, fun _ => getFinalizedHead_succeedsWith⟩

theorem not_headerAgreement_emptyBlock : ¬ HeaderAgreement (.single emptyBlock) emptyBlock := by
  intro h
  have hrun := h.forHeight (by simp [getHeaderForHeight, callApi, Proc.log])
  cases hrun

end SubqlConcordium
