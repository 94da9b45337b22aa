import SubqlConcordium.FetchOutcome
import SubqlConcordium.IndexingRun

/-!
# Batches come to an end

What is said elsewhere of fetched blocks is said of fetches that have ended. This module says that
they can end. However a batch and its node have come to where they are, if no fetch was refused a
request and the node now answers what it can, then the fetches are brought to their ends by their
own requests alone, with the blocks of the finalized chain.

A node cannot be asked in vain, because the one hash that a fetch carries along is that of a
finalized block, which no node that has finalized it ever loses. So the walks that indexing refines
are all walked: for each there is a run that fetches its blocks and makes the calls due.

## Progress without fairness

No scheduler is assumed that would answer every request some day. A node may refuse for ever, and
then nothing is fetched. What is shown is that no state is a dead end: from every one that is
reached there is a way on, made of the remaining requests of the fetches alone, along which the node
and all other fetches stay as they are.

A transaction whose events are no list is excluded by a hypothesis, as `FetchOutcome` shows it has
to be.

## Main definitions

* `EventsListed` — the events of each transaction are a list where they should be
* `ToldBetween` — replies given while a node went from one state to another

## Main results

* `exists_answer_of_awaits` — a request that a fetch waits for can be answered
* `batch_completes` — a batch can be brought to its end
* `walk_is_indexed` — every walk along the finalized chain is indexed by some run
-/

namespace SubqlConcordium

open Consensus Js Interaction Relation

/-- The transactions of a block have their events listed, as the SDK declares them. -/
def EventsListed (sdk : Sdk) (c : BlockContent) : Prop :=
  ∀ tx ∈ c.transactions, ∃ events, wrapTransactionEvents sdk (wrapTransaction tx) = .ok events

/-- All replies were given on the way from one state of a node to another. -/
def ToldBetween (content : String → BlockContent) (n s : NodeState)
    (tr : List (Event Rpc Rpc.Reply JsError)) : Prop :=
  ∀ ev ∈ tr, ∃ s', ReflTransGen (NodeState.Grows content) n s' ∧
    ReflTransGen (NodeState.Grows content) s' s ∧ ev.2 = s'.answer ev.1

variable {sdk : Sdk} {lodash : Lodash} {content : String → BlockContent} {n s : NodeState}
  {height : ℕ} {x : String} {tr : List (Event Rpc Rpc.Reply JsError)} {q : Rpc}

/-! ### What a node can answer -/

theorem NodeState.find_of_finalizedAt (hs : s.Finalizes content)
    (hx : s.FinalizedAt content height x) : s.find x = .ok (content x) := by
  have hle : height ≤ heightOf content s.lastFinalized := by
    rw [← hx.2]
    exact (ancestry content).height_le hx.1
  obtain ⟨y, hy, hfinalized⟩ := hs.hashesAt_eq height hle
  obtain rfl : x = y := hx.unique (ancestry content) hfinalized
  obtain ⟨c, hc, -⟩ := s.mem_hashesAt.mp (by rw [hy]; exact List.mem_singleton_self x)
  rw [find_eq_ok_iff, hc, hs.servesOnly x c hc]

theorem awaits_fetchBlock (h : (fetchBlock sdk lodash height).Awaits tr q) :
    q = .getBlocksAtHeight height ∨
      ∃ hashes, ⟨.getBlocksAtHeight height, .ok hashes⟩ ∈ tr ∧
        (q = .getBlockInfo hashes.head? ∨
          ∃ info : BlockInfo, ⟨.getBlockInfo hashes.head?, .ok info⟩ ∈ tr ∧
            (q = .getBlockFinalizationSummary info.blockHash ∨
              q = .getBlockTransactionEvents info.blockHash ∨
                q = .getBlockSpecialEvents info.blockHash)) := by
  rw [fetchBlock_eq, awaits_bind_iff] at h
  rcases h with h | ⟨_, _, _, -, -, hassemble⟩
  · simp only [fetchContent, getBlockByHash, awaits_bind_iff, awaits_await_iff, returns_await_iff,
      Proc.pure_eq, not_awaits_ret, and_false, exists_false, or_false] at h
    rcases h with ⟨-, rfl⟩ | ⟨_, hashes, _, rfl, rfl, ⟨-, rfl⟩ | ⟨_, info, _, rfl, rfl, h⟩⟩
    · exact .inl rfl
    · exact .inr ⟨hashes, by simp, .inl rfl⟩
    · refine .inr ⟨hashes, by simp, .inr ⟨info, by simp, ?_⟩⟩
      rcases h with ⟨-, rfl⟩ | ⟨_, _, _, -, -, ⟨-, rfl⟩ | ⟨_, _, _, -, -, -, rfl⟩⟩
      · exact .inl rfl
      · exact .inr (.inl rfl)
      · exact .inr (.inr rfl)
  · exact absurd hassemble not_awaits_ofExcept

/-- **A request that a fetch waits for can be answered**, at a height that was finalized when the
batch was started, if all it asked for was answered on the way. -/
theorem exists_answer_of_awaits (hn : n.Finalizes content)
    (hheight : height ≤ NodeState.heightOf content n.lastFinalized)
    (hbetween : ToldBetween content n s tr)
    (hgrows : ReflTransGen (NodeState.Grows content) n s) (hanswers : s.failure q = none)
    (h : (fetchBlock sdk lodash height).Awaits tr q) : ∃ a, s.answer q = .ok a := by
  have hs : s.Finalizes content := hn.of_grows hgrows
  rw [NodeState.answer, hanswers]
  rcases awaits_fetchBlock h with rfl | ⟨hashes, hhashes, hq⟩
  · exact ⟨_, rfl⟩
  obtain ⟨s₁, hs₁, hafter, hreply⟩ := hbetween _ hhashes
  obtain ⟨x, rfl, hx⟩ := NodeState.hashes_of_finalized hn hheight hs₁ hreply.symm
  have hfind := NodeState.find_of_finalizedAt hs (hx.mono hafter)
  rcases hq with rfl | ⟨info, hinfo, hq⟩
  · exact ⟨_, by rw [List.head?_cons, NodeState.reply, hfind]; rfl⟩
  -- the hash in the block info is the one that was asked for
  obtain ⟨s₂, hs₂, -, hreply⟩ := hbetween _ hinfo
  obtain ⟨hinfo, hhash⟩ := reply_eq_content (hn.of_grows hs₂).servesOnly
    (NodeState.answer_eq_ok hreply.symm).2
  have hinfoHash : info.blockHash = x := by rw [← hinfo, hhash]
  rcases hq with rfl | rfl | rfl <;> exact ⟨_, by rw [NodeState.reply, hinfoHash, hfind]; rfl⟩

/-- **What is left of a fetch can be run**, if it was refused nothing so far. -/
theorem exists_rest (hlodash : lodash.Documented) (hn : n.Finalizes content)
    (hlisted : ∀ x, EventsListed sdk (content x))
    (hheight : height ≤ NodeState.heightOf content n.lastFinalized)
    (hbetween : ToldBetween content n s tr)
    (hgrows : ReflTransGen (NodeState.Grows content) n s) (hanswers : ∀ q, s.failure q = none)
    (hok : ∀ ev ∈ tr, ∃ r, ev.2 = .ok r) {p : NodeProc IBlock}
    (h : Steps (fetchBlock sdk lodash height) tr p) :
    ∃ rest ib, Steps p rest (.ret ib) ∧ ∀ ev ∈ rest, ev.2 = s.answer ev.1 := by
  obtain ⟨hrest, hev⟩ := steps_run s.answer p
  have hall : ToldBetween content n s (tr ++ p.log s.answer) := fun ev hmem =>
    (List.mem_append.mp hmem).elim (hbetween ev) fun hmem => ⟨s, hgrows, .refl, hev ev hmem⟩
  have hsteps := h.trans hrest
  have hstate := fetchState_of_steps hsteps
  generalize htr : tr ++ p.log s.answer = full at hstate hall hsteps
  generalize hp : (Proc.ofExcept (p.run s.answer) : NodeProc IBlock) = p' at hstate hsteps
  cases hstate with
  | waiting => cases hrun : p.run s.answer <;> rw [hrun] at hp <;> cases hp
  | @refused tr₁ q e =>
    -- the refusal would be one of `s`
    have hmem : (⟨q, .error e⟩ : Event Rpc Rpc.Reply JsError) ∈ tr ++ p.log s.answer := by
      rw [htr]
      exact List.mem_append_right _ (List.mem_singleton_self _)
    have hrefused : s.answer q = .error e := by
      rcases List.mem_append.mp hmem with hmem | hmem
      · obtain ⟨r, hr⟩ := hok _ hmem
        cases hr
      · exact (hev _ hmem).symm
    obtain ⟨a, ha⟩ := exists_answer_of_awaits hn hheight
      (fun ev hmem => hall ev (List.mem_append_left _ hmem)) hgrows (hanswers q)
      hsteps.awaits_of_append
    rw [ha] at hrefused
    cases hrefused
  | assembled hashes c =>
    obtain ⟨hcontent, -⟩ := content_of_fetchTrace fun ev hmem => by
      obtain ⟨s', hs', -, hreply⟩ := hall ev hmem
      exact ⟨s', (hn.of_grows hs').servesOnly, hreply⟩
    have hassembled : assembleContent sdk lodash c = .ok (blockOf sdk c) :=
      (assembleContent_eq_ok_iff hlodash).mpr ⟨by rw [hcontent]; exact hlisted _, rfl⟩
    rw [hassembled] at hp
    exact ⟨p.log s.answer, ⟨blockOf sdk c⟩, by rw [hp] at hrest; exact hrest, hev⟩

/-! ### Batches -/

variable {ι : Type} [DecidableEq ι] {bufferBlocks : ι → ℕ}
  {pool : Pool NodeState ι Rpc Rpc.Reply JsError IBlock}

theorem fetch_completes (hlodash : lodash.Documented) (hn : n.Finalizes content)
    (hlisted : ∀ x, EventsListed sdk (content x))
    (hreach : FinalizedReachable sdk lodash content n bufferBlocks pool)
    (hanswers : ∀ q, pool.server.failure q = none) {i : ι}
    (hheight : bufferBlocks i ≤ NodeState.heightOf content n.lastFinalized)
    (hok : ∀ ev ∈ pool.history i, ∃ r, ev.2 = .ok r) :
    ∃ rest ib, Pool.Reachable (NodeState.Grows content) NodeState.answer pool
      { pool with
        history := Function.update pool.history i (pool.history i ++ rest)
        current := Function.update pool.current i (.ret ib) } := by
  obtain ⟨rest, ib, hrest, hev⟩ := exists_rest hlodash hn hlisted hheight
    (Pool.Reachable.history_between hreach i) (Pool.Reachable.evolves hreach) hanswers hok
    (Pool.Reachable.steps hreach i)
  exact ⟨rest, ib, Pool.Reachable.run_alone i hrest hev⟩

/-- **A batch can be brought to its end.** However it has come to where it is, if none of some
fetches was refused a request and the node answers what it can, they are brought to their ends by
their own requests, with the blocks of the finalized chain, while all else stays. -/
theorem batch_completes (sdk : Sdk) (lodash : Lodash) (hlodash : lodash.Documented)
    (content : String → BlockContent) (hlisted : ∀ x, EventsListed sdk (content x))
    (n : NodeState) (hn : n.Finalizes content) (bufferBlocks : ι → ℕ)
    (hbuffer : ∀ i, bufferBlocks i ≤ NodeState.heightOf content n.lastFinalized)
    (hsafe : ∀ i, bufferBlocks i < 2 ^ 53)
    (pool : Pool NodeState ι Rpc Rpc.Reply JsError IBlock)
    (hreach : FinalizedReachable sdk lodash content n bufferBlocks pool)
    (hanswers : ∀ q, pool.server.failure q = none) (order : List ι)
    (hok : ∀ i ∈ order, ∀ ev ∈ pool.history i, ∃ r, ev.2 = .ok r) :
    ∃ pool', Pool.Reachable (NodeState.Grows content) NodeState.answer pool pool' ∧
      pool'.server = pool.server ∧
      (∀ i ∉ order, pool'.history i = pool.history i ∧ pool'.current i = pool.current i) ∧
      ∀ i ∈ order, ∃ ib, pool'.current i = .ret ib ∧
        FetchedAt sdk content pool.server (bufferBlocks i) ib := by
  induction order with
  | nil => exact ⟨pool, .refl, rfl, fun i _ => ⟨rfl, rfl⟩, by simp⟩
  | cons i order ih =>
    obtain ⟨mid, hmid, hserver, hframe, hdone⟩ := ih fun j hj => hok j (List.mem_cons_of_mem i hj)
    by_cases hi : i ∈ order
    · refine ⟨mid, hmid, hserver, fun j hj => hframe j fun hmem => hj (List.mem_cons_of_mem i hmem),
        fun j hj => ?_⟩
      rcases List.mem_cons.mp hj with rfl | hj
      · exact hdone j hi
      · exact hdone j hj
    · have hreachMid : FinalizedReachable sdk lodash content n bufferBlocks mid := hreach.trans hmid
      obtain ⟨rest, ib, hlast⟩ := fetch_completes hlodash hn hlisted hreachMid
        (by rw [hserver]; exact hanswers) (hbuffer i)
        (by rw [(hframe i hi).1]; exact hok i List.mem_cons_self)
      refine ⟨_, hmid.trans hlast, hserver, fun j hj => ?_, fun j hj => ?_⟩
      · obtain ⟨hne, hj⟩ := not_or.mp (mt List.mem_cons.mpr hj)
        simpa only [Function.update_of_ne hne] using hframe j hj
      · rcases eq_or_ne j i with rfl | hne
        · have hfetched : FetchedAt sdk content mid.server (bufferBlocks j) ib :=
            fetchedAt_of_reachable hlodash hn (hreachMid.trans hlast) (hbuffer j) (hsafe j)
              (by simp)
          exact ⟨ib, by simp, hserver ▸ hfetched⟩
        · obtain ⟨ib', hcurrent, hfetched⟩ := hdone j ((List.mem_cons.mp hj).resolve_left hne)
          exact ⟨ib', by simpa only [Function.update_of_ne hne] using hcurrent, hfetched⟩

theorem twoBlocks_eventsListed (x : String) : EventsListed Sdk.reference (twoBlocks x) := by
  rw [twoBlocks]
  split <;> simp [EventsListed]

theorem twoBlocks_completes :
    ∃ (pool : Pool NodeState Bool Rpc Rpc.Reply JsError IBlock) (ib ib' : IBlock),
      FinalizedReachable Sdk.reference Lodash.reference twoBlocks twoBlockNode (Bool.rec 0 1) pool ∧
        pool.current false = .ret ib ∧ pool.current true = .ret ib' ∧
          FetchedAt Sdk.reference twoBlocks twoBlockNode 0 ib ∧
            FetchedAt Sdk.reference twoBlocks twoBlockNode 1 ib' := by
  have hstart : FinalizedReachable Sdk.reference Lodash.reference twoBlocks twoBlockNode
      (Bool.rec 0 1) (Pool.start twoBlockNode
        (fetchBlocks Sdk.reference Lodash.reference (Bool.rec 0 1))) :=
    .refl
  obtain ⟨pool, hreach, -, -, hdone⟩ := batch_completes Sdk.reference Lodash.reference
    Lodash.reference_documented twoBlocks twoBlocks_eventsListed twoBlockNode
    twoBlockNode_finalizes
    (Bool.rec 0 1) (by decide) (by decide) _ hstart (fun _ => rfl) [false, true]
    (fun _ _ _ hev => absurd hev List.not_mem_nil)
  obtain ⟨ib, hib, hfetched⟩ := hdone false (by simp)
  obtain ⟨ib', hib', hfetched'⟩ := hdone true (by simp)
  exact ⟨pool, ib, ib', hreach, hib, hib', hfetched, hfetched'⟩

/-! ### Walks -/

theorem run_getFinalizedHeight_of_answers (hn : n.Finalizes content)
    (hanswers : ∀ q, n.failure q = none)
    (hsafe : NodeState.heightOf content n.lastFinalized < 2 ^ 53) :
    FetchService.getFinalizedHeight.run n.answer =
      .ok (blockToHeader (content n.lastFinalized).info,
        NodeState.heightOf content n.lastFinalized) := by
  have hfind := NodeState.find_of_finalizedAt hn ⟨.refl, rfl⟩
  have hinfo : n.answer (.getBlockInfo none) = .ok (content n.lastFinalized).info := by
    rw [NodeState.answer, hanswers, NodeState.reply, hfind]
    rfl
  have hheight : (blockToHeader (content n.lastFinalized).info).blockHeight =
      NodeState.heightOf content n.lastFinalized := toNumber_of_lt hsafe
  rw [FetchService.getFinalizedHeight, getFinalizedBlock, Proc.run_bind, Proc.run_await, hinfo,
    ← hheight]
  rfl

/-- **Every walk is indexed by some run**: that of a node that answers, along its finalized chain,
for any data sources fixed by height, some of them active at each height of the walk. The walk is
fetched in a round, and what is called when its blocks are indexed is what is due. -/
theorem walk_is_indexed (sdk : Sdk) (lodash : Lodash) (hlodash : lodash.Documented)
    (content : String → BlockContent) (hlisted : ∀ x, EventsListed sdk (content x))
    (hdistinct : ∀ x, DistinctHashes (content x)) (n : NodeState) (hn : n.Finalizes content)
    (hanswers : ∀ q, n.failure q = none)
    (hsafe : NodeState.heightOf content n.lastFinalized < 2 ^ 53) (heights : List ℕ)
    (hashes : List String)
    (hwalk : Walk (NodeState.IsParent content) (NodeState.heightOf content) n.lastFinalized heights
      hashes)
    (internalIndexBlock : InternalIndexBlock) (isActive : ℕ → ConcordiumDatasource → Bool)
    (hinternal : internalIndexBlock.Documented isActive)
    (getDataSources : ℕ → List ConcordiumDatasource)
    (hstocked : Stocked isActive getDataSources heights) :
    ∃ blocks tr, FetchRun sdk lodash content n heights blocks n ∧
      Steps (indexBlocks internalIndexBlock blocks) tr (.ret ()) ∧ Quiet getDataSources tr ∧
        indexCalls (tr.map Sigma.fst) =
          dueCalls sdk content (activeAt isActive getDataSources) hashes := by
  have hbuffer : ∀ i, heights.get i ≤ NodeState.heightOf content n.lastFinalized := fun i =>
    hwalk.le_height (NodeState.ancestry content) (List.get_mem heights i)
  obtain ⟨pool, hreach, hserver, -, hdone⟩ := batch_completes sdk lodash hlodash content hlisted n
    hn heights.get hbuffer (fun i => (hbuffer i).trans_lt hsafe) _ .refl hanswers
    (List.finRange heights.length) (fun _ _ _ hev => absurd hev List.not_mem_nil)
  choose blocks hblocks _ using fun i => hdone i (List.mem_finRange i)
  have hround : FetchRound sdk lodash content n ((List.finRange heights.length).map heights.get)
      ((List.finRange heights.length).map blocks) pool.server :=
    .batch .refl (run_getFinalizedHeight_of_answers hn hanswers hsafe) hsafe hbuffer hreach
      fun i _ => hblocks i
  rw [List.map_get_finRange, hserver] at hround
  have hrun := FetchRun.nil.round hround
  obtain ⟨-, hfetched⟩ := hrun.fetchedAt hlodash hn
  have hhashes := (walk_of_fetchedAt hfetched).unique (NodeState.ancestry content) (.inl .refl)
    hwalk
  obtain ⟨hreturns, -⟩ := run_indexBlocks hfetched hdistinct hinternal hstocked
  obtain ⟨tr, hsteps, hreplies⟩ := run_eq_ok_iff.mp hreturns
  have hquiet : Quiet getDataSources tr := fun ev hev r hr => by
    rw [hreplies ev hev] at hr
    exact (Except.ok.inj hr).symm
  rw [← hhashes]
  exact ⟨_, tr, hrun, hsteps, hquiet,
    (calls_indexBlocks hfetched hdistinct hinternal hstocked hsteps hquiet).2 rfl⟩

theorem twoBlocks_is_indexed :
    ∃ blocks tr, FetchRun Sdk.reference Lodash.reference twoBlocks twoBlockNode [0, 1] blocks
        twoBlockNode ∧
      Steps (indexBlocks (.reference (activeFrom 0)) blocks) tr (.ret ()) ∧
        Quiet (fun _ => [idleDatasource]) tr ∧
          indexCalls (tr.map Sigma.fst) = dueCalls Sdk.reference twoBlocks
            (activeAt (activeFrom 0) fun _ => [idleDatasource]) ["b0", "b1"] := by
  have hparent : NodeState.IsParent twoBlocks "b0" "b1" := ⟨rfl, rfl⟩
  exact walk_is_indexed Sdk.reference Lodash.reference Lodash.reference_documented twoBlocks
    twoBlocks_eventsListed twoBlocks_distinctHashes twoBlockNode twoBlockNode_finalizes
    (fun _ => rfl) (by decide) [0, 1] ["b0", "b1"]
    (.cons ⟨.single hparent, rfl⟩ (.cons ⟨.refl, rfl⟩ .nil)) (.reference (activeFrom 0))
    (activeFrom 0) (InternalIndexBlock.reference_documented _) (fun _ => [idleDatasource])
    (idleDatasource_stocked _)

end SubqlConcordium
