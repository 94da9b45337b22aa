import SubqlConcordium.Api

/-!
# The block at a height

`ConcordiumApi.fetchBlock` and `ProjectService.getBlockTimestamp` are both asked for a height and
both take the first hash that the node reports for it. A node that has no block at the height
reports none, the hash is then `undefined`, and `getBlockInfo(undefined)` is the last finalized
block: the request for one height is answered with another.

## One fault in two places

The two functions share the comment that there is only one finalized block per height. That is so
for the blocks that are finalized. At a height above the last of them there is none, and at one with
a fork there may be several, of which the first is taken without a look at the others. Taking the
first is harmless where every block listed at a height is at that height, which is all that is asked
for here. Taking the first of none is not.

## Main definitions

* `getBlockTimestamp` — `ProjectService.getBlockTimestamp`
* `FetchesHeight`, `TimesHeight` — what a caller of the two relies on

## Main results

* `info_of_head` — the block fetched is the first reported one, if there is one
* `fetchesHeight_and_timesHeight_iff` — the two are right exactly when the node reports a block at
  the height, or fails one of the first two requests
-/

namespace SubqlConcordium

open Js Interaction

/-- `ProjectService.getBlockTimestamp`, as milliseconds. -/
def getBlockTimestamp (height : ℕ) : NodeProc ℤ := do
  let hashes : List String ← request (.getBlocksAtHeight height)
  let blockHash := hashes.head? -- there is only one finalized block per height
  let blockInfo ← getBlockByHash blockHash
  return blockInfo.blockReceiveTime

/-- **The runs of `getBlockTimestamp` that return.** -/
theorem returns_getBlockTimestamp_iff {height : ℕ} {tr : List (Event Rpc Rpc.Reply JsError)}
    {t : ℤ} :
    Steps (getBlockTimestamp height) tr (.ret t) ↔
      ∃ hashes info, tr = [⟨.getBlocksAtHeight height, .ok hashes⟩,
        ⟨.getBlockInfo hashes.head?, .ok info⟩] ∧ info.blockReceiveTime = t := by
  simp only [getBlockTimestamp, getBlockByHash, returns_bind_iff, returns_await_iff, Proc.pure_eq,
    steps_ret_iff]
  constructor
  · rintro ⟨_, hashes, _, rfl, rfl, _, info, _, rfl, rfl, rfl, ht⟩
    cases ht
    exact ⟨hashes, info, rfl, rfl⟩
  · rintro ⟨hashes, info, rfl, rfl⟩
    exact ⟨_, hashes, _, rfl, rfl, _, info, _, rfl, rfl, rfl, rfl⟩

variable {sdk : Sdk} {lodash : Lodash} {n : NodeState} {height : ℕ}

/-! ### What the node's replies say about the height -/

theorem hashes_eq {hashes : List String}
    (h : n.answer (.getBlocksAtHeight height) = .ok hashes) : hashes = n.hashesAt height :=
  (Except.ok.inj (NodeState.answer_eq_ok h).2).symm

theorem info_of_head {hashes : List String} {info : BlockInfo}
    (hhashes : n.answer (.getBlocksAtHeight height) = .ok hashes)
    (hinfo : n.answer (.getBlockInfo hashes.head?) = .ok info)
    (hne : n.hashesAt height ≠ []) :
    ∃ c, n.blocks info.blockHash = some c ∧ c.info = info ∧ info.blockHeight = height ∧
      (n.hashesAt height).head? = some info.blockHash := by
  rw [hashes_eq hhashes] at hinfo
  obtain ⟨x, xs, hx⟩ := List.exists_cons_of_ne_nil hne
  rw [hx, List.head?_cons] at hinfo
  obtain ⟨c, hc, rfl⟩ := NodeState.map_find_eq_ok_iff.mp (NodeState.answer_eq_ok hinfo).2
  have hhash : c.info.blockHash = x := n.info_hash hc
  obtain ⟨c', hc', hheight⟩ := n.mem_hashesAt.mp (show x ∈ n.hashesAt height by simp [hx])
  rw [hc] at hc'
  cases hc'
  exact ⟨c, by rw [hhash]; exact hc, rfl, hheight, by rw [hx, hhash, List.head?_cons]⟩

theorem toBlockInfo_of_assembleContent {c : BlockContent} {b : ConcordiumBlock}
    (h : assembleContent sdk lodash c = .ok b) : b.toBlockInfo = c.info := by
  rw [assembleContent, assembleBlock] at h
  cases hevs : (c.transactions.map wrapTransaction).mapM (wrapTransactionEvents sdk) with
  | error e => simp [hevs, bind, Except.bind] at h
  | ok evs =>
    simp only [hevs, bind, Except.bind, pure, Except.pure, Except.ok.injEq] at h
    rw [← h]
    rfl

/-! ### The height asked for -/

/-- `fetchBlock(height)` throws, or returns a block of that height that the node reported. -/
def FetchesHeight (sdk : Sdk) (lodash : Lodash) (n : NodeState) (height : ℕ) : Prop :=
  ∀ ib, (fetchBlock sdk lodash height).run n.answer = .ok ib →
    ib.block.blockHeight = height ∧ ib.getHeader.blockHeight = height ∧
      ib.block.blockHash ∈ n.hashesAt height

/-- `getBlockTimestamp(height)` throws, or returns the time of a block of that height. -/
def TimesHeight (n : NodeState) (height : ℕ) : Prop :=
  ∀ t, (getBlockTimestamp height).run n.answer = .ok t →
    ∃ x c, n.blocks x = some c ∧ c.info.blockHeight = height ∧ c.info.blockReceiveTime = t

theorem fetchesHeight_of_ne_nil (hheight : height < 2 ^ 53) (hne : n.hashesAt height ≠ []) :
    FetchesHeight sdk lodash n height := by
  intro ib h
  obtain ⟨hashes, c, hev, hblock⟩ := run_fetchBlock_eq_ok_iff.mp h
  have hhashes := (hev ⟨.getBlocksAtHeight height, .ok hashes⟩ (by simp [fetchTrace])).symm
  have hinfo := (hev ⟨.getBlockInfo hashes.head?, .ok c.info⟩ (by simp [fetchTrace])).symm
  obtain ⟨_, _, _, hh, hhead⟩ := info_of_head hhashes hinfo hne
  have hb := toBlockInfo_of_assembleContent hblock
  refine ⟨by rw [hb, hh], ?_, by rw [hb]; exact List.mem_of_head? hhead⟩
  rw [IBlock.getHeader, hb, blockToHeader, hh, toNumber_of_lt hheight]

theorem timesHeight_of_ne_nil (hne : n.hashesAt height ≠ []) : TimesHeight n height := by
  intro t h
  obtain ⟨tr, hsteps, hev⟩ := run_eq_ok_iff.mp h
  obtain ⟨hashes, info, rfl, rfl⟩ := returns_getBlockTimestamp_iff.mp hsteps
  have hhashes := (hev ⟨.getBlocksAtHeight height, .ok hashes⟩ (by simp)).symm
  have hinfo := (hev ⟨.getBlockInfo hashes.head?, .ok info⟩ (by simp)).symm
  obtain ⟨c, hc, rfl, hh, _⟩ := info_of_head hhashes hinfo hne
  exact ⟨_, c, hc, hh, rfl⟩

/-- A failure of either of the first two requests is the outcome of both functions. -/
theorem not_ok_of_failure (hempty : n.hashesAt height = [])
    (hfail : n.failure (.getBlocksAtHeight height) ≠ none ∨ n.failure (.getBlockInfo none) ≠ none)
    {hashes : List String} {info : BlockInfo}
    (hhashes : n.answer (.getBlocksAtHeight height) = .ok hashes)
    (hinfo : n.answer (.getBlockInfo hashes.head?) = .ok info) : False := by
  rw [hashes_eq hhashes, hempty] at hinfo
  rcases hfail with h | h
  · exact h (NodeState.answer_eq_ok hhashes).1
  · exact h (NodeState.answer_eq_ok hinfo).1

/-- Without a block at the height and without a failure, the time is the last finalized block's. -/
theorem run_getBlockTimestamp_of_nil (hempty : n.hashesAt height = [])
    (h₁ : n.failure (.getBlocksAtHeight height) = none)
    (h₂ : n.failure (.getBlockInfo none) = none) :
    ∃ t, (getBlockTimestamp height).run n.answer = .ok t := by
  obtain ⟨c, hc⟩ := n.exists_lastFinalized
  refine ⟨c.info.blockReceiveTime, run_eq_ok_iff.mpr ⟨_,
    returns_getBlockTimestamp_iff.mpr ⟨[], c.info, rfl, rfl⟩, ?_⟩⟩
  have hfind : n.find n.lastFinalized = .ok c := NodeState.find_eq_ok_iff.mpr hc
  simp [NodeState.answer, NodeState.reply, h₁, h₂, hempty, hfind, Except.map]

/-- **When the block asked for is the block obtained.** On a state of a node, both functions throw
or answer for the height they are given exactly when the node reports some block at that height,
or does not answer `getBlocksAtHeight(height)` or `getBlockInfo(undefined)`. -/
theorem fetchesHeight_and_timesHeight_iff (sdk : Sdk) (lodash : Lodash) (n : NodeState)
    (height : ℕ) (hheight : height < 2 ^ 53) :
    (FetchesHeight sdk lodash n height ∧ TimesHeight n height) ↔
      n.hashesAt height ≠ [] ∨ n.failure (.getBlocksAtHeight height) ≠ none ∨
        n.failure (.getBlockInfo none) ≠ none := by
  constructor
  · rintro ⟨-, htimes⟩
    by_contra hcon
    push Not at hcon
    obtain ⟨hempty, h₁, h₂⟩ := hcon
    obtain ⟨t, ht⟩ := run_getBlockTimestamp_of_nil hempty h₁ h₂
    obtain ⟨x, c, hc, hh, -⟩ := htimes t ht
    have hmem : x ∈ n.hashesAt height := n.mem_hashesAt.mpr ⟨c, hc, hh⟩
    simp [hempty] at hmem
  · intro h
    by_cases hempty : n.hashesAt height = []
    · have hfail := h.resolve_left (not_not_intro hempty)
      refine ⟨fun ib hrun => ?_, fun t hrun => ?_⟩
      · obtain ⟨hashes, c, hev, -⟩ := run_fetchBlock_eq_ok_iff.mp hrun
        exact (not_ok_of_failure hempty hfail
          (hev ⟨.getBlocksAtHeight height, .ok hashes⟩ (by simp [fetchTrace])).symm
          (hev ⟨.getBlockInfo hashes.head?, .ok c.info⟩ (by simp [fetchTrace])).symm).elim
      · obtain ⟨tr, hsteps, hev⟩ := run_eq_ok_iff.mp hrun
        obtain ⟨hashes, info, rfl, rfl⟩ := returns_getBlockTimestamp_iff.mp hsteps
        exact (not_ok_of_failure hempty hfail
          (hev ⟨.getBlocksAtHeight height, .ok hashes⟩ (by simp)).symm
          (hev ⟨.getBlockInfo hashes.head?, .ok info⟩ (by simp)).symm).elim
    · exact ⟨fetchesHeight_of_ne_nil hheight hempty, timesHeight_of_ne_nil hempty⟩

/-- A block at height 5 without transactions. -/
def emptyBlock : BlockContent where
  info := ⟨"b5", "b4", 5, 1250, 1307, []⟩
  finalizationSummary := .null
  transactions := []
  specialEvents := []

theorem fetchesHeight_and_timesHeight_emptyBlock :
    FetchesHeight Sdk.reference Lodash.reference (.single emptyBlock) 5 ∧
      TimesHeight (.single emptyBlock) 5 :=
  (fetchesHeight_and_timesHeight_iff Sdk.reference Lodash.reference (.single emptyBlock) 5
    (by decide)).mpr (Or.inl (by decide))

/-- A node that is at height 5 answers a request for height 7 with its block at height 5. -/
theorem fetchBlock_beyond_head :
    ¬ (FetchesHeight Sdk.reference Lodash.reference (.single emptyBlock) 7 ∧
        TimesHeight (.single emptyBlock) 7) := by
  rintro ⟨hfetch, -⟩
  have h5 := (hfetch _ (by rfl)).1
  exact absurd h5 (by decide)

end SubqlConcordium
