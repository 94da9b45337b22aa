import SubqlConcordium.Api
import SubqlConcordium.Interaction.Pool

/-!
# Fetching while the chain moves

`fetchBlocks` starts a whole batch of `fetchBlock` calls, and the node goes on while they run: new
blocks arrive, blocks are finalized, the blocks listed at a height change. Only what a node returns
for a given hash stays the same. A block is still taken from one moment, because the hash is
resolved once, and every later request carries it.

## What may happen in between

Between two replies the node may become any other node that has the same contents for the same
hashes. In particular a fork may go away and with it the blocks that were listed at a height, and
the node may forget a block or refuse what it answered before. The chain of parents plays no part.
That a batch is one stretch of the chain takes more than this, and is shown in `Finality`.

Collecting the results is left out: `Promise.all` hands back the array of blocks once all of them
are there, and rejects with the first error.

## Main definitions

* `AssembledFrom` — all parts of a block come from one content
* `fetchBlocks` — the processes of a batch

## Main results

* `content_of_fetchTrace` — what one fetch received is the content of one hash
* `assembledFrom_of_reachable` — a fetched block is taken from one hash, along every interleaving
-/

namespace SubqlConcordium

open Js Interaction

/-- The block info, finalization summary, transactions, events and special events of a block are
those of one content. -/
structure AssembledFrom (sdk : Sdk) (c : BlockContent) (b : ConcordiumBlock) : Prop where
  toBlockInfo : b.toBlockInfo = c.info
  finalizationSummary : b.finalizationSummary = c.finalizationSummary
  transactions : unlinked b.transactions = unlinked c.transactions
  transactionEvents : b.transactionEvents.map unlinked =
    some (unlinked (c.transactions.flatMap fun tx => eventsOf sdk (wrapTransaction tx)))
  specialEvents : unlinked b.specialEvents = unlinked (c.specialEvents.mapIdx wrapSpecialEvent)

section

variable (sdk : Sdk) (lodash : Lodash) {ι : Type}

/-- `ConcordiumApi.fetchBlocks`, before its results are collected: one process for each height. -/
def fetchBlocks (bufferBlocks : ι → ℕ) : ι → NodeProc IBlock :=
  fun i => fetchBlock sdk lodash (bufferBlocks i)

/-- The states that some interleaving of a batch reaches, while the node changes in any way that
keeps the content of every hash. -/
def FetchReachable [DecidableEq ι] (content : String → BlockContent) (n : NodeState)
    (bufferBlocks : ι → ℕ) : Pool NodeState ι Rpc Rpc.Reply JsError IBlock → Prop :=
  Pool.Reachable (fun _ n' => n'.ServesOnly content) NodeState.answer
    (Pool.start n (fetchBlocks sdk lodash bufferBlocks))

end

variable {sdk : Sdk} {lodash : Lodash} {c : BlockContent} {content : String → BlockContent}
  {height : ℕ} {hashes : List String}

theorem assembledFrom_of_assembleContent (hlodash : lodash.Documented) {b : ConcordiumBlock}
    (h : assembleContent sdk lodash c = .ok b) : AssembledFrom sdk c b := by
  obtain ⟨-, rfl⟩ := (assembleContent_eq_ok_iff hlodash).mp h
  refine ⟨rfl, rfl, ?_, ?_, ?_⟩
  · exact (unlinked_map_linkItem _).trans
      (by rw [unlinked, unlinked, earlyContent, earlyBlock, List.map_map]
          exact List.map_congr_left fun tx _ => Obj.without_put _ _ _)
  · simp only [ConcordiumBlock.linkTo, earlyContent, earlyBlock, Option.map_some,
      unlinked_map_linkItem, List.flatMap_map]
  · exact unlinked_map_linkItem _

/-- A reply about a hash is the content of that hash. -/
theorem reply_eq_content {n : NodeState} (hn : n.ServesOnly content) {x : String} {α : Type}
    {f : BlockContent → α} {a : α} (h : (n.find x).map f = .ok a) :
    f (content x) = a ∧ (content x).info.blockHash = x := by
  obtain ⟨c, hc, rfl⟩ := NodeState.map_find_eq_ok_iff.mp h
  obtain rfl := hn x c hc
  exact ⟨rfl, n.info_hash hc⟩

/-- **One fetch, one content.** If every reply was given by some state that serves only the fixed
contents, what was received is the content of the hash in the block info, and that hash is the
first one reported, if any was. -/
theorem content_of_fetchTrace
    (h : ∀ ev ∈ fetchTrace height hashes c, ∃ n : NodeState, n.ServesOnly content ∧
      ev.2 = n.answer ev.1) :
    c = content c.info.blockHash ∧ ∀ x, hashes.head? = some x → c.info.blockHash = x := by
  obtain ⟨n₁, hn₁, hinfo⟩ := h ⟨.getBlockInfo hashes.head?, .ok c.info⟩ (by simp [fetchTrace])
  obtain ⟨n₂, hn₂, hsummary⟩ := h
    ⟨.getBlockFinalizationSummary c.info.blockHash, .ok c.finalizationSummary⟩
    (by simp [fetchTrace])
  obtain ⟨n₃, hn₃, htransactions⟩ := h
    ⟨.getBlockTransactionEvents c.info.blockHash, .ok c.transactions⟩ (by simp [fetchTrace])
  obtain ⟨n₄, hn₄, hspecial⟩ := h
    ⟨.getBlockSpecialEvents c.info.blockHash, .ok c.specialEvents⟩ (by simp [fetchTrace])
  -- whichever block the info is of, its hash is the one in the info
  have hresolved : ∃ x, (content x).info = c.info ∧ (content x).info.blockHash = x ∧
      ∀ y, hashes.head? = some y → x = y := by
    have hreply := (NodeState.answer_eq_ok hinfo.symm).2
    cases hhead : hashes.head? with
    | none =>
      rw [hhead] at hreply
      obtain ⟨heq, hhash⟩ := reply_eq_content hn₁ hreply
      exact ⟨_, heq, hhash, by simp⟩
    | some x =>
      rw [hhead] at hreply
      obtain ⟨heq, hhash⟩ := reply_eq_content hn₁ hreply
      exact ⟨x, heq, hhash, by simp⟩
  obtain ⟨x, hx, hhash, hfirst⟩ := hresolved
  have hxc : c.info.blockHash = x := by rw [← hx, hhash]
  refine ⟨?_, fun y hy => hxc.trans (hfirst y hy)⟩
  refine BlockContent.ext ?_ ?_ ?_ ?_
  · rw [hxc, hx]
  · exact (reply_eq_content hn₂ (NodeState.answer_eq_ok hsummary.symm).2).1.symm
  · exact (reply_eq_content hn₃ (NodeState.answer_eq_ok htransactions.symm).2).1.symm
  · exact (reply_eq_content hn₄ (NodeState.answer_eq_ok hspecial.symm).2).1.symm

variable {ι : Type} [DecidableEq ι] {bufferBlocks : ι → ℕ} {n : NodeState}
  {pool : Pool NodeState ι Rpc Rpc.Reply JsError IBlock}

theorem exists_fetchTrace (hreach : FetchReachable sdk lodash content n bufferBlocks pool)
    (hn : n.ServesOnly content) {i : ι} {ib : IBlock} (hdone : pool.current i = .ret ib) :
    ∃ hashes c, pool.history i = fetchTrace (bufferBlocks i) hashes c ∧
      assembleContent sdk lodash c = .ok ib.block ∧ c = content c.info.blockHash ∧
        ∀ x, hashes.head? = some x → c.info.blockHash = x := by
  have hsteps := Pool.Reachable.steps hreach i
  rw [hdone] at hsteps
  obtain ⟨hashes, c, htrace, hblock⟩ := returns_fetchBlock_iff.mp hsteps
  have hsound := Pool.Reachable.history_sound hn (fun _ _ _ h => h) hreach i
  rw [htrace] at hsound
  obtain ⟨hcontent, hfirst⟩ := content_of_fetchTrace hsound
  exact ⟨hashes, c, htrace, hblock, hcontent, hfirst⟩

/-- **A fetched block is taken from one hash**, the one in its header, along every interleaving of
a batch with changes of the chain. If the node reported any hash for the height, it is the first
one it reported. -/
theorem assembledFrom_of_reachable (sdk : Sdk) (lodash : Lodash) (hlodash : lodash.Documented)
    (content : String → BlockContent) (n : NodeState) (hn : n.ServesOnly content)
    (bufferBlocks : ι → ℕ) (pool : Pool NodeState ι Rpc Rpc.Reply JsError IBlock)
    (hreach : FetchReachable sdk lodash content n bufferBlocks pool)
    (i : ι) (ib : IBlock) (hdone : pool.current i = .ret ib) (hashes : List String)
    (hreported : ⟨.getBlocksAtHeight (bufferBlocks i), .ok hashes⟩ ∈ pool.history i)
    (hne : hashes ≠ []) :
    hashes.head? = some ib.getHeader.blockHash ∧
      AssembledFrom sdk (content ib.getHeader.blockHash) ib.block := by
  obtain ⟨hashes', c, htrace, hblock, hcontent, hfirst⟩ := exists_fetchTrace hreach hn hdone
  have hassembled := assembledFrom_of_assembleContent hlodash hblock
  have hheader : ib.getHeader.blockHash = c.info.blockHash := by
    rw [IBlock.getHeader, blockToHeader, hassembled.toBlockInfo]
  have hhashes : hashes = hashes' := by
    rw [htrace] at hreported
    simpa [fetchTrace] using hreported
  subst hhashes
  obtain ⟨x, xs, rfl⟩ := List.exists_cons_of_ne_nil hne
  rw [hheader, ← hcontent]
  exact ⟨by rw [hfirst x rfl]; rfl, hassembled⟩

/-- Another block at the height of `transferBlock`. -/
def rivalBlock : BlockContent := ⟨⟨"c9", "b8", 9, 2260, 2318, []⟩, .null, [], []⟩

/-- The two blocks at height 9, by their hashes. -/
def contentAtNine (x : String) : BlockContent := if x = "b9" then transferBlock else rivalBlock

/-- The node once it has the other block as well, which it now lists first. -/
def forkedNode : NodeState :=
  .ofBlocks [rivalBlock, transferBlock] (by decide) transferBlock (by simp)

theorem single_servesOnly_contentAtNine :
    (NodeState.single transferBlock).ServesOnly contentAtNine := by
  intro x c hc
  simp only [NodeState.single] at hc
  split_ifs at hc with hx
  cases hc
  rw [hx]
  rfl

/-- Two fetches of one height. The other block comes in while the first is under way, and the second
is made then. -/
theorem fetched_whileForking :
    ∃ pool rival, FetchReachable Sdk.reference Lodash.reference contentAtNine
        (.single transferBlock) (fun _ : Bool => 9) pool ∧
      (pool.history true = fetchTrace 9 ["b9"] transferBlock ∧
        pool.current true = .ret ⟨transferBlockAssembled⟩) ∧
      pool.history false = fetchTrace 9 ["c9", "b9"] rivalBlock ∧
        pool.current false = .ret rival := by
  have hfirst : Steps (fetchBlocks Sdk.reference Lodash.reference (fun _ : Bool => 9) true)
      ((fetchTrace 9 ["b9"] transferBlock).take 2 ++ (fetchTrace 9 ["b9"] transferBlock).drop 2)
      (.ret ⟨transferBlockAssembled⟩) :=
    returns_fetchBlock_iff.mpr ⟨_, _, rfl, rfl⟩
  have hsecond : Steps (fetchBlocks Sdk.reference Lodash.reference (fun _ : Bool => 9) false)
      (fetchTrace 9 ["c9", "b9"] rivalBlock) (.ret _) :=
    returns_fetchBlock_iff.mpr ⟨_, _, rfl, rfl⟩
  have hforked : forkedNode.ServesOnly contentAtNine :=
    NodeState.ofBlocks_servesOnly (by simp [contentAtNine, rivalBlock, transferBlock])
  have hbefore : ∀ ev ∈ (fetchTrace 9 ["b9"] transferBlock).take 2,
      ev.2 = (NodeState.single transferBlock).answer ev.1 := by
    simp only [fetchTrace, List.take, List.forall_mem_cons]
    exact ⟨rfl, rfl, by simp⟩
  have hafter : ∀ ev ∈ (fetchTrace 9 ["b9"] transferBlock).drop 2,
      ev.2 = forkedNode.answer ev.1 := by
    simp only [fetchTrace, List.drop, List.forall_mem_cons]
    exact ⟨rfl, rfl, rfl, by simp⟩
  have hbetween : ∀ ev ∈ fetchTrace 9 ["c9", "b9"] rivalBlock, ev.2 = forkedNode.answer ev.1 := by
    simp only [fetchTrace, List.forall_mem_cons]
    exact ⟨rfl, rfl, rfl, rfl, rfl, by simp⟩
  obtain ⟨pool, hreach, -, htrue, hfalse⟩ :
      ∃ pool, FetchReachable Sdk.reference Lodash.reference contentAtNine
          (.single transferBlock) (fun _ : Bool => 9) pool ∧ _ :=
    Pool.Reachable.around (by decide) hfirst hbefore hforked hsecond hbetween hafter
  exact ⟨pool, _, hreach, htrue, hfalse⟩

/-- Each of the two is taken from the block that it was told of first. -/
theorem assembledFrom_transferBlock :
    ∃ pool ib ib', FetchReachable Sdk.reference Lodash.reference contentAtNine
        (.single transferBlock) (fun _ : Bool => 9) pool ∧
      (pool.current true = .ret ib ∧ "b9" = ib.getHeader.blockHash ∧
        AssembledFrom Sdk.reference (contentAtNine "b9") ib.block) ∧
      pool.current false = .ret ib' ∧ "c9" = ib'.getHeader.blockHash ∧
        AssembledFrom Sdk.reference (contentAtNine "c9") ib'.block := by
  obtain ⟨pool, rival, hreach, ⟨hhistory, hdone⟩, hhistory', hdone'⟩ := fetched_whileForking
  have hassembled := fun i ib hdone hashes hmem hne =>
    assembledFrom_of_reachable Sdk.reference Lodash.reference Lodash.reference_documented
      contentAtNine (.single transferBlock) single_servesOnly_contentAtNine (fun _ : Bool => 9) pool
      hreach i ib hdone hashes hmem hne
  obtain ⟨hhash, hparts⟩ := hassembled true _ hdone ["b9"]
    (by rw [hhistory]; exact List.mem_cons_self) (by simp)
  obtain ⟨hhash', hparts'⟩ := hassembled false rival hdone' ["c9", "b9"]
    (by rw [hhistory']; exact List.mem_cons_self) (by simp)
  have hrival : "c9" = rival.getHeader.blockHash := Option.some.inj hhash'
  rw [← hrival] at hparts'
  exact ⟨pool, _, _, hreach, ⟨hdone, Option.some.inj hhash, hparts⟩, hdone', hrival, hparts'⟩

end SubqlConcordium
