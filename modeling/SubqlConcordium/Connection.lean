import SubqlConcordium.Finality

/-!
# Connections and their chain

A connection is made once its API knows the block at height 0, whose hash serves as the chain id and
as the genesis hash of the network metadata. An API that was told of no such block has no chain id,
and no connection is made of it.

The id is asked for once, and blocks are fetched for days afterwards. All of them descend from the
block it names, so two connections with different metadata never give the same block.

## What a chain id is worth

Nothing in a fetched block names its chain, and no request of a fetch mentions the chain id. That
the id and the blocks belong together rests on one thing only: both come from the finalized chain of
the same node, which never drops a finalized block. It is enough. A chain has one block at height 0,
and every block above it descends from it.

## Main definitions

* `ConcordiumApi`, `ConcordiumApi.init` — an API, and how it comes to its chain id
* `ConcordiumApiConnection.networkMeta`, `ConcordiumApiConnection.create` — a connection's metadata

## Main results

* `run_create_eq_ok_iff` — when a connection is made
* `networkMeta_identifies_chain` — what the metadata says about the blocks that are fetched
-/

namespace SubqlConcordium

open Consensus Js Interaction Relation

/-- `ConcordiumApi`, as far as its own state goes: the chain id, which may be `undefined`. -/
structure ConcordiumApi where
  chainId : Option String

namespace ConcordiumApi

/-- `init`: `[genesisHash]` is the first of the list, or `undefined`. -/
def init : NodeProc ConcordiumApi := do
  let hashes : List String ← request (.getBlocksAtHeight 0)
  return ⟨hashes.head?⟩

def getChainId (api : ConcordiumApi) : Option String := api.chainId

def getGenesisHash (api : ConcordiumApi) : Option String := api.chainId

def getSpecName (_api : ConcordiumApi) : String := "concordium"

end ConcordiumApi

structure NetworkMetadataPayload where
  chain : String
  specName : String
  genesisHash : Option String

namespace ConcordiumApiConnection

/-- The metadata that the constructor reads off the API. -/
def networkMeta (unsafeApi : ConcordiumApi) : Except JsError NetworkMetadataPayload :=
  match unsafeApi.getChainId with
  | some chainId => .ok ⟨chainId, unsafeApi.getSpecName, unsafeApi.getGenesisHash⟩
  | none => .error (typeError "Cannot read properties of undefined (reading 'toString')")

/-- `ConcordiumApiConnection.create`. A connection is known by its metadata here. -/
def create : NodeProc NetworkMetadataPayload := do
  let api ← ConcordiumApi.init
  Proc.ofExcept (networkMeta api)

end ConcordiumApiConnection

variable {n : NodeState} {payload : NetworkMetadataPayload}

/-- **When a connection is made**: if the node tells of a block at height 0, whose hash is then the
chain id. -/
theorem run_create_eq_ok_iff :
    ConcordiumApiConnection.create.run n.answer = .ok payload ↔
      n.failure (.getBlocksAtHeight 0) = none ∧
        ∃ genesis, (n.hashesAt 0).head? = some genesis ∧
          payload = ⟨genesis, "concordium", some genesis⟩ := by
  rw [ConcordiumApiConnection.create, ConcordiumApi.init, Proc.run_bind, Proc.run_bind,
    Proc.run_await, NodeState.answer]
  cases hfailure : n.failure (.getBlocksAtHeight 0) with
  | some e => simp [bind, Except.bind]
  | none =>
    cases hhead : (n.hashesAt 0).head? with
    | none =>
      simp [bind, Except.bind, NodeState.reply, ConcordiumApiConnection.networkMeta,
        ConcordiumApi.getChainId, hhead]
    | some genesis =>
      simp [bind, Except.bind, NodeState.reply, ConcordiumApiConnection.networkMeta,
        ConcordiumApi.getChainId, ConcordiumApi.getGenesisHash, ConcordiumApi.getSpecName, hhead,
        eq_comm]

/-! ### The chain behind a connection -/

section

variable (sdk : Sdk) (lodash : Lodash) (content : String → BlockContent)

/-- A block that is fetched through a connection with the given metadata: the connection was made
some time ago, and the block is one of a batch of finalized heights. -/
inductive FetchedThrough (payload : NetworkMetadataPayload) (ib : IBlock) : Prop
  | batch {ι : Type} [DecidableEq ι] {made n : NodeState} {bufferBlocks : ι → ℕ}
      {pool : Pool NodeState ι Rpc Rpc.Reply JsError IBlock} {i : ι}
      (finalizes : made.Finalizes content)
      (created : ConcordiumApiConnection.create.run made.answer = .ok payload)
      (grows : ReflTransGen (NodeState.Grows content) made n)
      (reachable : FinalizedReachable sdk lodash content n bufferBlocks pool)
      (finalized : bufferBlocks i ≤ NodeState.heightOf content n.lastFinalized)
      (safe : bufferBlocks i < 2 ^ 53) (done : pool.current i = .ret ib)

end

variable {sdk : Sdk} {lodash : Lodash} {content : String → BlockContent} {ib : IBlock}

theorem genesis_of_create (hn : n.Finalizes content)
    (h : ConcordiumApiConnection.create.run n.answer = .ok payload) :
    ∃ genesis, payload = ⟨genesis, "concordium", some genesis⟩ ∧
      n.FinalizedAt content 0 genesis := by
  obtain ⟨-, genesis, hhead, rfl⟩ := run_create_eq_ok_iff.mp h
  obtain ⟨x, hx, hfinalized⟩ := hn.hashesAt_eq 0 (Nat.zero_le _)
  rw [hx, List.head?_cons, Option.some.injEq] at hhead
  exact ⟨genesis, rfl, hhead ▸ hfinalized⟩

/-- A block that is fetched through a connection descends from the one that its metadata name. -/
theorem FetchedThrough.descends (hlodash : lodash.Documented)
    (h : FetchedThrough sdk lodash content payload ib) :
    ∃ genesis, payload = ⟨genesis, "concordium", some genesis⟩ ∧
      OnChain (NodeState.IsParent content) (NodeState.heightOf content) ib.getHeader.blockHash 0
        genesis := by
  obtain ⟨finalizes, created, grows, reachable, finalized, safe, done⟩ := h
  obtain ⟨genesis, hpayload, hgenesis⟩ := genesis_of_create finalizes created
  have hfetched := fetchedAt_of_reachable hlodash (finalizes.of_grows grows) reachable finalized
    safe done
  have hserver := (hgenesis.mono grows).mono (Pool.Reachable.evolves reachable)
  refine ⟨genesis, hpayload, ?_, hgenesis.2⟩
  -- both are below the last finalized block, and none is below height 0
  rcases (NodeState.ancestry content).total hserver.1 hfetched.finalizedAt.1 with hbelow | habove
  · exact hbelow
  · have hle := (NodeState.ancestry content).height_le habove
    rw [hgenesis.2, Nat.le_zero] at hle
    rw [(NodeState.ancestry content).eq_of_height_eq habove (hle.trans hgenesis.2.symm)]

end SubqlConcordium
