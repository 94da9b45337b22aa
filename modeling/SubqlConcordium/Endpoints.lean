import SubqlConcordium.Filter
import SubqlConcordium.ProjectService

/-!
# One block from two endpoints

Two nodes of one chain agree on what the chain says about a block, but each adds what only it
knows, such as the moment at which it received the block. The schedule of a block handler, and the
time reported for a height, are taken from that moment.

## What nodes agree on

`AgreeOnContent` is about the blocks that both nodes have. It leaves open which blocks these are, so
a node may lag behind, list other blocks at the height, or refuse. Of a block that both have, they
agree on the parent, the height, the slot time, the transactions and the events. They need not agree
on the time of receipt, nor on whatever else a node adds to the block info.

The slot time is on the chain, and would do for a schedule. It is there in the same block info, one
property away from the one that is read.

## Main definitions

* `SameChainContent`, `AgreeOnContent` — nodes of one chain
* `EndpointIndependent` — filter and timestamp do not depend on the node

## Main results

* `fetched_of_head`, `timestamp_of_head` — what is fetched for a height both nodes report
* `endpointIndependent_iff` — independence is a matter of the receive times
-/

namespace SubqlConcordium

open Js Interaction

/-- Two contents that differ in node-local fields of the block info at most. -/
structure SameChainContent (c c' : BlockContent) : Prop where
  blockHeight : c.info.blockHeight = c'.info.blockHeight
  blockParent : c.info.blockParent = c'.info.blockParent
  blockSlotTime : c.info.blockSlotTime = c'.info.blockSlotTime
  finalizationSummary : c.finalizationSummary = c'.finalizationSummary
  transactions : c.transactions = c'.transactions
  specialEvents : c.specialEvents = c'.specialEvents

/-- Two nodes that agree on the chain content of every hash. -/
def AgreeOnContent (n n' : NodeState) : Prop :=
  ∀ x c c', n.blocks x = some c → n'.blocks x = some c' → SameChainContent c c'

/-- The block filter answers the same for the blocks fetched for a height from either node, and
the timestamps of the height are the same. -/
def EndpointIndependent (sdk : Sdk) (lodash : Lodash)
    (filterBlockTimestamp : ℤ → Option BlockFilter → Bool) (filter : Option BlockFilter)
    (n n' : NodeState) (height : ℕ) : Prop :=
  (∀ ib ib', (fetchBlock sdk lodash height).run n.answer = .ok ib →
      (fetchBlock sdk lodash height).run n'.answer = .ok ib' →
      filterBlocksProcessor filterBlockTimestamp ib.block filter =
        filterBlocksProcessor filterBlockTimestamp ib'.block filter) ∧
    ∀ t t', (getBlockTimestamp height).run n.answer = .ok t →
      (getBlockTimestamp height).run n'.answer = .ok t' → t = t'

variable {sdk : Sdk} {lodash : Lodash} {n : NodeState} {height : ℕ} {x : String} {c : BlockContent}

/-! ### What is fetched -/

/-- The block info obtained for a height is that of the first block reported. -/
theorem info_of_replies {hashes : List String} {info : BlockInfo}
    (hhashes : n.answer (.getBlocksAtHeight height) = .ok hashes)
    (hinfo : n.answer (.getBlockInfo hashes.head?) = .ok info)
    (hhead : (n.hashesAt height).head? = some x) (hx : n.blocks x = some c) :
    info = c.info ∧ c.info.blockHeight = height := by
  have hne : n.hashesAt height ≠ [] := fun hnil => by simp [hnil] at hhead
  obtain ⟨d, hd, hdinfo, hheight, hfirst⟩ := info_of_head hhashes hinfo hne
  rw [hhead, Option.some.injEq] at hfirst
  rw [← hfirst, hx, Option.some.injEq] at hd
  subst hd
  exact ⟨hdinfo.symm, by rw [hdinfo, hheight]⟩

theorem fetched_of_head (hhead : (n.hashesAt height).head? = some x) (hx : n.blocks x = some c)
    {ib : IBlock} (h : (fetchBlock sdk lodash height).run n.answer = .ok ib) :
    ib.block.toBlockInfo = c.info ∧ c.info.blockHeight = height := by
  obtain ⟨hashes, d, hev, hcontent⟩ := run_fetchBlock_eq_ok_iff.mp h
  have hhashes := (hev ⟨.getBlocksAtHeight height, .ok hashes⟩ (by simp [fetchTrace])).symm
  have hinfo := (hev ⟨.getBlockInfo hashes.head?, .ok d.info⟩ (by simp [fetchTrace])).symm
  obtain ⟨heq, hheight⟩ := info_of_replies hhashes hinfo hhead hx
  exact ⟨by rw [toBlockInfo_of_assembleContent hcontent, heq], hheight⟩

theorem timestamp_of_head (hhead : (n.hashesAt height).head? = some x) (hx : n.blocks x = some c)
    {t : ℤ} (h : (getBlockTimestamp height).run n.answer = .ok t) :
    t = c.info.blockReceiveTime := by
  obtain ⟨tr, hsteps, hev⟩ := run_eq_ok_iff.mp h
  obtain ⟨hashes, info, rfl, rfl⟩ := returns_getBlockTimestamp_iff.mp hsteps
  have hhashes := (hev ⟨.getBlocksAtHeight height, .ok hashes⟩ (by simp)).symm
  have hinfo := (hev ⟨.getBlockInfo hashes.head?, .ok info⟩ (by simp)).symm
  rw [(info_of_replies hhashes hinfo hhead hx).1]

/-! ### Independence -/

theorem filterBlocksProcessor_eq {fbt : ℤ → Option BlockFilter → Bool} {block : ConcordiumBlock}
    {filter : Option BlockFilter} :
    filterBlocksProcessor fbt block filter =
      (!moduloDiffers (toNumber block.blockHeight) filter &&
        fbt block.blockReceiveTime filter) := by
  rw [filterBlocksProcessor]
  cases moduloDiffers (toNumber block.blockHeight) filter <;>
    cases fbt block.blockReceiveTime filter <;> rfl

/-- **Independence is a matter of the receive times.** For a height at which both nodes report the
same block first, and answer, the filter and the timestamp are the same from either node exactly
when both received the block at the same time; the filter alone, exactly when the modulo test
rejects the block or the schedule answers alike for the two times. -/
theorem endpointIndependent_iff (sdk : Sdk) (lodash : Lodash)
    (filterBlockTimestamp : ℤ → Option BlockFilter → Bool) (filter : Option BlockFilter)
    (n n' : NodeState) (height : ℕ) (x : String) (c c' : BlockContent)
    (hhead : (n.hashesAt height).head? = some x) (hhead' : (n'.hashesAt height).head? = some x)
    (hx : n.blocks x = some c) (hx' : n'.blocks x = some c')
    (ib ib' : IBlock) (hib : (fetchBlock sdk lodash height).run n.answer = .ok ib)
    (hib' : (fetchBlock sdk lodash height).run n'.answer = .ok ib')
    (t t' : ℤ) (ht : (getBlockTimestamp height).run n.answer = .ok t)
    (ht' : (getBlockTimestamp height).run n'.answer = .ok t') :
    (EndpointIndependent sdk lodash filterBlockTimestamp filter n n' height ↔
        c.info.blockReceiveTime = c'.info.blockReceiveTime) ∧
      (filterBlocksProcessor filterBlockTimestamp ib.block filter =
          filterBlocksProcessor filterBlockTimestamp ib'.block filter ↔
        moduloDiffers (toNumber height) filter = true ∨
          filterBlockTimestamp c.info.blockReceiveTime filter =
            filterBlockTimestamp c'.info.blockReceiveTime filter) := by
  have hfilter : ∀ b b', (fetchBlock sdk lodash height).run n.answer = .ok b →
      (fetchBlock sdk lodash height).run n'.answer = .ok b' →
      (filterBlocksProcessor filterBlockTimestamp b.block filter =
          filterBlocksProcessor filterBlockTimestamp b'.block filter ↔
        moduloDiffers (toNumber height) filter = true ∨
          filterBlockTimestamp c.info.blockReceiveTime filter =
            filterBlockTimestamp c'.info.blockReceiveTime filter) := by
    intro b b' hb hb'
    obtain ⟨hinfo, hheight⟩ := fetched_of_head hhead hx hb
    obtain ⟨hinfo', hheight'⟩ := fetched_of_head hhead' hx' hb'
    rw [filterBlocksProcessor_eq, filterBlocksProcessor_eq, hinfo, hinfo', hheight, hheight']
    cases moduloDiffers (toNumber height) filter <;> simp
  refine ⟨⟨fun h => ?_, fun h => ⟨fun b b' hb hb' => ?_, fun s s' hs hs' => ?_⟩⟩,
    hfilter ib ib' hib hib'⟩
  · rw [← timestamp_of_head hhead hx ht, ← timestamp_of_head hhead' hx' ht']
    exact h.2 t t' ht ht'
  · exact (hfilter b b' hb hb').mpr (Or.inr (by rw [h]))
  · rw [timestamp_of_head hhead hx hs, timestamp_of_head hhead' hx' hs', h]

/-- A block is due when its time is past the next time of the schedule, if there is one. -/
def pastSchedule (timestamp : ℤ) (filter : Option BlockFilter) : Bool :=
  match filter.map BlockFilter.cronSchedule with
  | some (.num next) => next < timestamp
  | _ => true

/-- A filter whose schedule is next due at 1303. -/
def scheduledFilter : BlockFilter := ⟨.undefined, .num 1303⟩

/-- The block at height 5, as a node that received it earlier has it. -/
def emptyBlockEarlier : BlockContent :=
  { emptyBlock with info := { emptyBlock.info with blockReceiveTime := 1300 } }

/-- The block at height 5, as a node has it that received it at the same time, and took longer to
verify it. -/
def emptyBlockSlower : BlockContent :=
  { emptyBlock with info := { emptyBlock.info with rest := [("blockArriveTime", .date 1360)] } }

theorem endpointIndependent_emptyBlock :
    emptyBlock.info ≠ emptyBlockSlower.info ∧
      EndpointIndependent Sdk.reference Lodash.reference pastSchedule (some scheduledFilter)
        (.single emptyBlock) (.single emptyBlockSlower) 5 :=
  ⟨fun h => absurd (congrArg (fun info => info.rest.length) h) (by decide),
    (endpointIndependent_iff Sdk.reference Lodash.reference pastSchedule (some scheduledFilter)
      (.single emptyBlock) (.single emptyBlockSlower) 5 "b5" emptyBlock emptyBlockSlower rfl rfl
      rfl rfl _ _ rfl rfl _ _ rfl rfl).1.mpr rfl⟩

/-- Two nodes of one chain received the block on either side of the scheduled time: a handler runs
on the block from the one and not on the block from the other. -/
theorem not_endpointIndependent_emptyBlock :
    AgreeOnContent (.single emptyBlock) (.single emptyBlockEarlier) ∧
      ¬ EndpointIndependent Sdk.reference Lodash.reference pastSchedule (some scheduledFilter)
        (.single emptyBlock) (.single emptyBlockEarlier) 5 := by
  refine ⟨fun x c c' hx hx' => ?_, fun h => ?_⟩
  · obtain rfl := NodeState.single_servesOnly _ x c hx
    obtain rfl := NodeState.single_servesOnly _ x c' hx'
    exact ⟨rfl, rfl, rfl, rfl, rfl, rfl⟩
  · have hsame := h.1 _ _ rfl rfl
    exact absurd hsame (by decide)

end SubqlConcordium
