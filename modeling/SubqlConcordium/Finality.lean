import SubqlConcordium.Consensus.Ancestry
import SubqlConcordium.FetchBlocks
import SubqlConcordium.ProjectService

/-!
# Fetching finalized blocks

The fetch service polls the height of the last finalized block and has nothing fetched above it.
While a batch is under way the chain goes on: blocks are added and dropped above the finalized
one, and more of them are finalized. At a height that was finalized when the batch was started,
none of this shows. Every fetch of the batch, whenever its requests are answered, gets the block of
the one finalized chain, so blocks at consecutive heights are parent and child.

What a node is assumed to know is in `NodeState.Finalizes`. How the finalized chain grows is all in
`Consensus.Ancestry`, which knows nothing about nodes.

## What finality is

A node that has finalized a block lists no other at its height, and as the chain grows the last
finalized block is replaced by one of its descendants. That is all that is asked for. Blocks that
are not finalized may come and go, and the contents of a hash are fixed. The height in a header is a
number, and exact below `2 ^ 53`; that is where the bound in the results comes from.

## Main definitions

* `FetchService.getFinalizedHeight` — the poll
* `NodeState.Finalizes`, `NodeState.Grows` — what finality means, and what happens in time
* `FetchedAt` — a fetched block is that of the finalized chain

## Main results

* `fetchedAt_of_reachable` — one fetch of a batch, along every interleaving
* `batch_on_finalized_chain` — a whole batch, and the header that was polled
-/

namespace SubqlConcordium

open Consensus Js Interaction Relation

/-- `FetchService.getFinalizedHeight`: the header that it registers, and the height returned. -/
def FetchService.getFinalizedHeight : NodeProc (Header × ℕ) := do
  let block ← getFinalizedBlock
  let header := blockToHeader block
  return (header, header.blockHeight)

/-- `WorkerService.toBlockResponse`, the parent hash that a worker reports of a block. -/
def WorkerService.toBlockResponse (block : ConcordiumBlock) : String := block.blockParent

/-! ### The finalized chain of a node -/

namespace NodeState

variable (content : String → BlockContent)

/-- The height of the block of a hash. -/
def heightOf (x : String) : ℕ := (content x).info.blockHeight

/-- The block of one hash is the parent of that of another. -/
def IsParent (p x : String) : Prop :=
  (content x).info.blockParent = p ∧ heightOf content x = heightOf content p + 1

theorem ancestry : Ancestry (IsParent content) (heightOf content) where
  unique hp hq := hp.1.symm.trans hq.1
  step h := h.2

/-- The block at a height of the chain that the node has finalized. -/
def FinalizedAt (n : NodeState) (h : ℕ) (x : String) : Prop :=
  OnChain (IsParent content) (heightOf content) n.lastFinalized h x

/-- **What a node knows of the finalized chain.** It has the contents of its blocks right, and up to
the last finalized block there is only one block per height, that of the chain. -/
structure Finalizes (n : NodeState) : Prop where
  servesOnly : n.ServesOnly content
  hashesAt_eq : ∀ h ≤ heightOf content n.lastFinalized,
    ∃ x, n.hashesAt h = [x] ∧ n.FinalizedAt content h x

/-- **What happens in time.** Anything, as long as what was finalized stays so. -/
def Grows (n n' : NodeState) : Prop :=
  n'.Finalizes content ∧ ReflTransGen (IsParent content) n.lastFinalized n'.lastFinalized

variable {content} {n n' : NodeState} {h : ℕ} {x : String}

/-- The finalized chain only grows. -/
theorem lastFinalized_of_grows (hgrows : ReflTransGen (Grows content) n n') :
    ReflTransGen (IsParent content) n.lastFinalized n'.lastFinalized := by
  induction hgrows with
  | refl => exact .refl
  | tail _ hstep ih => exact ih.trans hstep.2

theorem Finalizes.of_grows (hn : n.Finalizes content) (hgrows : ReflTransGen (Grows content) n n') :
    n'.Finalizes content :=
  Pool.inv_of_evolves hn (fun _ _ _ hstep => hstep.1) hgrows

theorem FinalizedAt.mono (hx : n.FinalizedAt content h x)
    (hgrows : ReflTransGen (Grows content) n n') : n'.FinalizedAt content h x :=
  OnChain.mono hx (lastFinalized_of_grows hgrows)

/-- At a finalized height a node reports the block of the finalized chain alone, then and ever
after. -/
theorem hashes_of_finalized (hn : n.Finalizes content)
    (hh : h ≤ heightOf content n.lastFinalized) (hgrows : ReflTransGen (Grows content) n n')
    {hashes : List String} (hreply : n'.answer (.getBlocksAtHeight h) = .ok hashes) :
    ∃ x, hashes = [x] ∧ n'.FinalizedAt content h x := by
  have hle := (ancestry content).height_le (lastFinalized_of_grows hgrows)
  obtain ⟨x, hx, hfinalized⟩ := (hn.of_grows hgrows).hashesAt_eq h (hh.trans hle)
  have hhashes : n'.hashesAt h = hashes := Except.ok.inj (answer_eq_ok hreply).2
  exact ⟨x, hhashes.symm.trans hx, hfinalized⟩

end NodeState

/-! ### A batch -/

section

variable (sdk : Sdk) (lodash : Lodash) {ι : Type}

/-- The block made of what a node returns for it. -/
def blockOf (c : BlockContent) : ConcordiumBlock := (earlyContent sdk c).linkTo (earlyContent sdk c)

/-- The states that some interleaving of a batch reaches, while the finalized chain grows and
anything else changes. -/
def FinalizedReachable [DecidableEq ι] (content : String → BlockContent) (n : NodeState)
    (bufferBlocks : ι → ℕ) : Pool NodeState ι Rpc Rpc.Reply JsError IBlock → Prop :=
  Pool.Reachable (NodeState.Grows content) NodeState.answer
    (Pool.start n (fetchBlocks sdk lodash bufferBlocks))

/-- A fetched block is the one that the finalized chain of a node has at the height, with the
contents of that block, and a header that says so. -/
structure FetchedAt (content : String → BlockContent) (n : NodeState) (height : ℕ) (ib : IBlock) :
    Prop where
  finalizedAt : n.FinalizedAt content height ib.getHeader.blockHash
  blockHeight : ib.getHeader.blockHeight = height
  parentHash : ib.getHeader.parentHash = (content ib.getHeader.blockHash).info.blockParent
  block : ib.block = blockOf sdk (content ib.getHeader.blockHash)

end

variable {sdk : Sdk} {lodash : Lodash} {content : String → BlockContent} {n : NodeState}
  {ι : Type} [DecidableEq ι] {bufferBlocks : ι → ℕ}
  {pool : Pool NodeState ι Rpc Rpc.Reply JsError IBlock}

/-- **One fetch of a batch.** At a height that was finalized when the batch was started, it gets the
block of the finalized chain. -/
theorem fetchedAt_of_reachable (hlodash : lodash.Documented) (hn : n.Finalizes content)
    (hreach : FinalizedReachable sdk lodash content n bufferBlocks pool) {i : ι}
    (hheight : bufferBlocks i ≤ NodeState.heightOf content n.lastFinalized)
    (hsafe : bufferBlocks i < 2 ^ 53) {ib : IBlock} (hdone : pool.current i = .ret ib) :
    FetchedAt sdk content pool.server (bufferBlocks i) ib := by
  have hsteps := Pool.Reachable.steps hreach i
  rw [hdone] at hsteps
  obtain ⟨hashes, c, htrace, hblock⟩ := returns_fetchBlock_iff.mp hsteps
  have hbetween := Pool.Reachable.history_between hreach i
  rw [htrace] at hbetween
  -- the reply about the height is from a state that had it finalized
  obtain ⟨n', hbefore, hafter, hreply⟩ :=
    hbetween ⟨.getBlocksAtHeight (bufferBlocks i), .ok hashes⟩ (by simp [fetchTrace])
  obtain ⟨x, rfl, hx⟩ := NodeState.hashes_of_finalized hn hheight hbefore hreply.symm
  obtain ⟨hcontent, hfirst⟩ := content_of_fetchTrace fun ev hev => by
    obtain ⟨s, hs, -, hanswer⟩ := hbetween ev hev
    exact ⟨s, (hn.of_grows hs).servesOnly, hanswer⟩
  have hhash : c.info.blockHash = x := hfirst x rfl
  rw [hhash] at hcontent
  subst hcontent
  obtain ⟨-, hassembled⟩ := (assembleContent_eq_ok_iff hlodash).mp hblock
  have hinfo : ib.block.toBlockInfo = (content x).info := toBlockInfo_of_assembleContent hblock
  have hheader : ib.getHeader = blockToHeader (content x).info := by rw [IBlock.getHeader, hinfo]
  have hblockHash : ib.getHeader.blockHash = x := by rw [hheader]; exact hhash
  have hserver := hx.mono hafter
  refine ⟨hblockHash.symm ▸ hserver, ?_, ?_, ?_⟩
  · have hxheight : (content x).info.blockHeight = bufferBlocks i := hserver.2
    rw [hheader, blockToHeader, hxheight, toNumber_of_lt hsafe]
  · rw [hblockHash, hheader]
    rfl
  · rw [hblockHash, hassembled]
    rfl

theorem FetchedAt.mono {n' : NodeState} {height : ℕ} {ib : IBlock}
    (h : FetchedAt sdk content n height ib) (hgrows : ReflTransGen (NodeState.Grows content) n n') :
    FetchedAt sdk content n' height ib :=
  { h with finalizedAt := h.finalizedAt.mono hgrows }

/-- Fetched blocks at consecutive heights are parent and child. -/
theorem FetchedAt.parentHash_eq {height : ℕ} {ib ib' : IBlock}
    (h : FetchedAt sdk content n height ib) (h' : FetchedAt sdk content n (height + 1) ib') :
    ib'.getHeader.parentHash = ib.getHeader.blockHash :=
  h'.parentHash.trans (h.finalizedAt.isParent (NodeState.ancestry content) h'.finalizedAt).1

theorem run_getFinalizedHeight (hn : n.Finalizes content) {header : Header} {height : ℕ}
    (h : FetchService.getFinalizedHeight.run n.answer = .ok (header, height)) :
    header = blockToHeader (content n.lastFinalized).info ∧ header.blockHash = n.lastFinalized ∧
      height = toNumber (NodeState.heightOf content n.lastFinalized) := by
  rw [FetchService.getFinalizedHeight, Proc.run_bind, bind_eq_ok_iff] at h
  obtain ⟨info, hinfo, hret⟩ := h
  rw [getFinalizedBlock, Proc.run_await] at hinfo
  obtain ⟨c, hc, rfl⟩ := NodeState.map_find_eq_ok_iff.mp (NodeState.answer_eq_ok hinfo).2
  obtain rfl := hn.servesOnly _ c hc
  cases hret
  exact ⟨rfl, n.info_hash hc, rfl⟩

theorem finalizedHeight_eq (hn : n.Finalizes content) {header : Header} {finalizedHeight : ℕ}
    (hpoll : FetchService.getFinalizedHeight.run n.answer = .ok (header, finalizedHeight))
    (hsafe : finalizedHeight < 2 ^ 53) :
    finalizedHeight = NodeState.heightOf content n.lastFinalized := by
  obtain ⟨-, -, hheight⟩ := run_getFinalizedHeight hn hpoll
  rw [hheight, toNumber_lt_iff] at hsafe
  rw [hheight, toNumber_of_lt hsafe]

/-- A fetch up to a polled height. -/
theorem fetchedAt_of_poll (hlodash : lodash.Documented) (hn : n.Finalizes content)
    {header : Header} {finalizedHeight : ℕ}
    (hpoll : FetchService.getFinalizedHeight.run n.answer = .ok (header, finalizedHeight))
    (hsafe : finalizedHeight < 2 ^ 53) {i : ι} (hbuffer : bufferBlocks i ≤ finalizedHeight)
    (hreach : FinalizedReachable sdk lodash content n bufferBlocks pool) {ib : IBlock}
    (hdone : pool.current i = .ret ib) :
    FetchedAt sdk content pool.server (bufferBlocks i) ib :=
  fetchedAt_of_reachable hlodash hn hreach
    (hbuffer.trans_eq (finalizedHeight_eq hn hpoll hsafe)) (hbuffer.trans_lt hsafe) hdone

/-- **A batch is taken from one chain.** After a poll that reported a finalized height, a batch up
to that height is fetched, along any interleaving of its requests with changes of the node. Every
block obtained is that of the finalized chain, blocks at consecutive heights are parent and child,
and the header that was polled is on that chain as well. -/
theorem batch_on_finalized_chain (sdk : Sdk) (lodash : Lodash) (hlodash : lodash.Documented)
    (content : String → BlockContent) (n : NodeState) (hn : n.Finalizes content)
    (header : Header) (finalizedHeight : ℕ)
    (hpoll : FetchService.getFinalizedHeight.run n.answer = .ok (header, finalizedHeight))
    (hsafe : finalizedHeight < 2 ^ 53) (bufferBlocks : ι → ℕ)
    (hbuffer : ∀ i, bufferBlocks i ≤ finalizedHeight)
    (pool : Pool NodeState ι Rpc Rpc.Reply JsError IBlock)
    (hreach : FinalizedReachable sdk lodash content n bufferBlocks pool) :
    (∀ i ib, pool.current i = .ret ib →
        FetchedAt sdk content pool.server (bufferBlocks i) ib) ∧
      (∀ i j ib ib', pool.current i = .ret ib → pool.current j = .ret ib' →
        bufferBlocks j = bufferBlocks i + 1 →
          WorkerService.toBlockResponse ib'.block = ib.getHeader.blockHash) ∧
      pool.server.FinalizedAt content finalizedHeight header.blockHash := by
  have hfetched : ∀ i ib, pool.current i = .ret ib →
      FetchedAt sdk content pool.server (bufferBlocks i) ib := fun i ib hdone =>
    fetchedAt_of_poll hlodash hn hpoll hsafe (hbuffer i) hreach hdone
  refine ⟨hfetched, fun i j ib ib' hdone hdone' hnext => ?_, ?_⟩
  · have hj := hfetched j ib' hdone'
    rw [hnext] at hj
    exact (hfetched i ib hdone).parentHash_eq hj
  · obtain ⟨-, hhash, -⟩ := run_getFinalizedHeight hn hpoll
    rw [hhash, finalizedHeight_eq hn hpoll hsafe]
    have hself : n.FinalizedAt content (NodeState.heightOf content n.lastFinalized)
        n.lastFinalized := ⟨.refl, rfl⟩
    exact hself.mono (Pool.Reachable.evolves hreach)

/-- The contents of a chain of two blocks. -/
def twoBlocks (x : String) : BlockContent :=
  if x = "b1" then ⟨⟨"b1", "b0", 1, 250, 260, []⟩, .null, [], []⟩
  else ⟨⟨"b0", "", 0, 0, 0, []⟩, .null, [], []⟩

/-- The node that has finalized both. -/
def twoBlockNode : NodeState where
  blocks x := if x = "b0" ∨ x = "b1" then some (twoBlocks x) else none
  hashesAt h := if h = 0 then ["b0"] else if h = 1 then ["b1"] else []
  lastFinalized := "b1"
  failure _ := none
  info_hash {x c} h := by
    split_ifs at h with hx
    cases h
    rcases hx with rfl | rfl <;> rfl
  mem_hashesAt {h x} := by
    by_cases h₁ : x = "b1"
    · subst h₁
      by_cases h0 : h = 0 <;> by_cases h1 : h = 1 <;> simp [h0, h1, twoBlocks, eq_comm]
    · by_cases h₀ : x = "b0"
      · subst h₀
        by_cases h0 : h = 0 <;> by_cases h1 : h = 1 <;> simp [h0, h1, twoBlocks, eq_comm]
      · by_cases h0 : h = 0 <;> by_cases h1 : h = 1 <;> simp [h0, h1, h₀, h₁]
  lastFinalized_known := rfl

theorem twoBlockNode_finalizes : twoBlockNode.Finalizes twoBlocks where
  servesOnly x c h := by
    simp only [twoBlockNode] at h
    split_ifs at h
    exact (Option.some.inj h).symm
  hashesAt_eq h hh := by
    have hparent : NodeState.IsParent twoBlocks "b0" "b1" := ⟨rfl, rfl⟩
    have hcases : h = 0 ∨ h = 1 := Nat.le_one_iff_eq_zero_or_eq_one.mp hh
    rcases hcases with rfl | rfl
    · exact ⟨"b0", rfl, .single hparent, rfl⟩
    · exact ⟨"b1", rfl, .refl, rfl⟩

theorem twoBlocks_fetched (i : ι) {h : ℕ} {x : String} (hx : h = 0 ∧ x = "b0" ∨ h = 1 ∧ x = "b1") :
    ∃ pool, FinalizedReachable Sdk.reference Lodash.reference twoBlocks twoBlockNode
        (fun _ : ι => h) pool ∧ pool.server = twoBlockNode ∧
      pool.current i = .ret ⟨blockOf Sdk.reference (twoBlocks x)⟩ := by
  have hrun : Steps (fetchBlocks Sdk.reference Lodash.reference (fun _ : ι => h) i)
      (fetchTrace h [x] (twoBlocks x)) (.ret ⟨blockOf Sdk.reference (twoBlocks x)⟩) := by
    rcases hx with ⟨rfl, rfl⟩ | ⟨rfl, rfl⟩ <;>
      exact returns_fetchBlock_iff.mpr ⟨_, _, rfl, rfl⟩
  have hreplies : ∀ ev ∈ fetchTrace h [x] (twoBlocks x), ev.2 = twoBlockNode.answer ev.1 := by
    simp only [fetchTrace, List.forall_mem_cons]
    rcases hx with ⟨rfl, rfl⟩ | ⟨rfl, rfl⟩ <;> exact ⟨rfl, rfl, rfl, rfl, rfl, by simp⟩
  have hstart : FinalizedReachable Sdk.reference Lodash.reference twoBlocks twoBlockNode
      (fun _ : ι => h) (Pool.start twoBlockNode
        (fetchBlocks Sdk.reference Lodash.reference fun _ => h)) :=
    .refl
  obtain ⟨pool, hreach, hserver, -, hdone⟩ := Pool.Reachable.alone_frame hstart i hrun hreplies
  exact ⟨pool, hreach, hserver, hdone⟩

/-- The chain goes on: a third block. -/
def grownBlocks (x : String) : BlockContent :=
  if x = "b2" then ⟨⟨"b2", "b1", 2, 500, 510, []⟩, .null, [], []⟩ else twoBlocks x

/-- The node that has finalized it too. -/
def grownNode : NodeState :=
  .ofBlocks [grownBlocks "b0", grownBlocks "b1", grownBlocks "b2"] (by decide) (grownBlocks "b2")
    (by simp)

theorem grownNode_finalizes : grownNode.Finalizes grownBlocks where
  servesOnly := NodeState.ofBlocks_servesOnly (by
    simp only [List.forall_mem_cons]
    exact ⟨rfl, rfl, rfl, by simp⟩)
  hashesAt_eq h hh := by
    have hfirst : NodeState.IsParent grownBlocks "b0" "b1" := ⟨rfl, rfl⟩
    have hsecond : NodeState.IsParent grownBlocks "b1" "b2" := ⟨rfl, rfl⟩
    have hcases : h = 0 ∨ h = 1 ∨ h = 2 := by
      have hle : h ≤ 2 := hh
      omega
    rcases hcases with rfl | rfl | rfl
    · exact ⟨"b0", rfl, .tail (.single hfirst) hsecond, rfl⟩
    · exact ⟨"b1", rfl, .single hsecond, rfl⟩
    · exact ⟨"b2", rfl, .refl, rfl⟩

theorem twoBlockNode_finalizes_grown : twoBlockNode.Finalizes grownBlocks where
  servesOnly x c h := by
    simp only [twoBlockNode] at h
    split_ifs at h with hx
    rcases hx with rfl | rfl <;> exact (Option.some.inj h).symm
  hashesAt_eq h hh := by
    have hparent : NodeState.IsParent grownBlocks "b0" "b1" := ⟨rfl, rfl⟩
    have hcases : h = 0 ∨ h = 1 := Nat.le_one_iff_eq_zero_or_eq_one.mp hh
    rcases hcases with rfl | rfl
    · exact ⟨"b0", rfl, .single hparent, rfl⟩
    · exact ⟨"b1", rfl, .refl, rfl⟩

/-- A batch of two heights. While the fetch of the upper one is under way another block is
finalized, and then the lower one is fetched. -/
theorem twoBlocks_on_finalized_chain :
    ∃ pool ib ib', FinalizedReachable Sdk.reference Lodash.reference grownBlocks twoBlockNode
        Bool.toNat pool ∧ pool.server = grownNode ∧
      (pool.current true = .ret ib' ∧ FetchedAt Sdk.reference grownBlocks pool.server 1 ib') ∧
      (pool.current false = .ret ib ∧ FetchedAt Sdk.reference grownBlocks pool.server 0 ib) ∧
      WorkerService.toBlockResponse ib'.block = ib.getHeader.blockHash := by
  have hupper : Steps (fetchBlocks Sdk.reference Lodash.reference Bool.toNat true)
      ((fetchTrace 1 ["b1"] (grownBlocks "b1")).take 2 ++
        (fetchTrace 1 ["b1"] (grownBlocks "b1")).drop 2)
      (.ret ⟨blockOf Sdk.reference (grownBlocks "b1")⟩) :=
    returns_fetchBlock_iff.mpr ⟨_, _, rfl, rfl⟩
  have hlower : Steps (fetchBlocks Sdk.reference Lodash.reference Bool.toNat false)
      (fetchTrace 0 ["b0"] (grownBlocks "b0")) (.ret ⟨blockOf Sdk.reference (grownBlocks "b0")⟩) :=
    returns_fetchBlock_iff.mpr ⟨_, _, rfl, rfl⟩
  have hbefore : ∀ ev ∈ (fetchTrace 1 ["b1"] (grownBlocks "b1")).take 2,
      ev.2 = twoBlockNode.answer ev.1 := by
    simp only [fetchTrace, List.take, List.forall_mem_cons]
    exact ⟨rfl, rfl, by simp⟩
  have hafter : ∀ ev ∈ (fetchTrace 1 ["b1"] (grownBlocks "b1")).drop 2,
      ev.2 = grownNode.answer ev.1 := by
    simp only [fetchTrace, List.drop, List.forall_mem_cons]
    exact ⟨rfl, rfl, rfl, by simp⟩
  have hbetween : ∀ ev ∈ fetchTrace 0 ["b0"] (grownBlocks "b0"), ev.2 = grownNode.answer ev.1 := by
    simp only [fetchTrace, List.forall_mem_cons]
    exact ⟨rfl, rfl, rfl, rfl, rfl, by simp⟩
  have hgrows : NodeState.Grows grownBlocks twoBlockNode grownNode :=
    ⟨grownNode_finalizes, .single ⟨rfl, rfl⟩⟩
  obtain ⟨pool, hreach, hserver, ⟨-, hdone'⟩, -, hdone⟩ :=
    Pool.Reachable.around (by decide) hupper hbefore hgrows hlower hbetween hafter
  obtain ⟨hfetched, hparents, -⟩ := batch_on_finalized_chain Sdk.reference Lodash.reference
    Lodash.reference_documented grownBlocks twoBlockNode twoBlockNode_finalizes_grown
    ⟨1, "b1", "b0"⟩ 1 rfl (by decide) Bool.toNat (by decide) pool hreach
  exact ⟨pool, _, _, hreach, hserver, ⟨hdone', hfetched true _ hdone'⟩,
    ⟨hdone, hfetched false _ hdone⟩, hparents false true _ _ hdone hdone' rfl⟩

end SubqlConcordium
