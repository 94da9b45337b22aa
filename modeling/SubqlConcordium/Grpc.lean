import SubqlConcordium.Interaction.Process
import SubqlConcordium.Js.Value
import Mathlib.Data.List.Nodup

/-!
# The node behind the gRPC client

The requests of `ConcordiumGRPCClient` that fetching a block uses, and the node that answers them.
The client itself is not part of the repository: `NodeState` carries what is assumed of it, namely
that `getBlocksAtHeight(h)` lists the blocks the node has at `h`, that `getBlockInfo(hash)` is the
block with that hash, and that `getBlockInfo(undefined)` is the last finalized block.

A stream is answered as the list of its elements, which is all `streamToList` lets through.

## How much a node is trusted

A state of a node may refuse any request, with any error, so no result assumes that a request is
answered. What it does answer is consistent within the state. Nothing is said about how one state
follows another; a module that needs the chain to stay put says so, as `FetchBlocks` and `Finality`
do, each in its own way.

Refusing is a matter of the state and the request. A request that was refused may well be answered
when it is made again.

## Main definitions

* `BlockInfo`, `BlockContent` — what a node returns for a block
* `Rpc`, `Rpc.Reply` — the requests and the types of their replies
* `NodeState`, `NodeState.answer` — a state of a node, with the failures it may produce
* `NodeState.ServesOnly` — all blocks of the node come from one fixed chain content
-/

namespace SubqlConcordium

open Js Interaction

/-- The SDK's `BlockInfo`. Dates are in milliseconds; the fields this program never names are kept
together. -/
structure BlockInfo where
  blockHash : String
  blockParent : String
  blockHeight : ℕ
  /-- The time of the block's slot, on the chain. -/
  blockSlotTime : ℤ
  /-- The time at which the queried node received the block. -/
  blockReceiveTime : ℤ
  rest : Obj

namespace BlockInfo

/-- The block info as an object. -/
def toObj (b : BlockInfo) : Obj :=
  [("blockHash", .str b.blockHash), ("blockParent", .str b.blockParent),
    ("blockHeight", .bigint b.blockHeight), ("blockSlotTime", .date b.blockSlotTime),
    ("blockReceiveTime", .date b.blockReceiveTime)] ++ b.rest

end BlockInfo

/-- Everything a node returns for one block hash. -/
@[ext]
structure BlockContent where
  info : BlockInfo
  finalizationSummary : Value
  /-- The `BlockItemSummary` of each transaction, in chain order. -/
  transactions : List Obj
  /-- The special events, in chain order. -/
  specialEvents : List Obj

/-- The requests used to fetch a block. An absent hash is JavaScript's `undefined`. -/
inductive Rpc where
  | getBlocksAtHeight (height : ℕ)
  | getBlockInfo (blockHash : Option String)
  | getBlockFinalizationSummary (blockHash : String)
  | getBlockTransactionEvents (blockHash : String)
  | getBlockSpecialEvents (blockHash : String)
  deriving DecidableEq

/-- What each request resolves to. -/
@[reducible] def Rpc.Reply : Rpc → Type
  | .getBlocksAtHeight _ => List String
  | .getBlockInfo _ => BlockInfo
  | .getBlockFinalizationSummary _ => Value
  | .getBlockTransactionEvents _ => List Obj
  | .getBlockSpecialEvents _ => List Obj

/-- A process that talks to a node. -/
abbrev NodeProc := Proc Rpc Rpc.Reply JsError

abbrev request (q : Rpc) : NodeProc q.Reply := Proc.await q

/-- A state of a node: the blocks it has, which of them are at a height, the last finalized one,
and the requests that fail in this state. -/
structure NodeState where
  blocks : String → Option BlockContent
  hashesAt : ℕ → List String
  lastFinalized : String
  failure : Rpc → Option JsError
  /-- `getBlockInfo(hash)` is the block with that hash. -/
  info_hash : ∀ {x c}, blocks x = some c → c.info.blockHash = x
  /-- `getBlocksAtHeight(h)` lists the blocks at `h`. -/
  mem_hashesAt : ∀ {h x}, x ∈ hashesAt h ↔ ∃ c, blocks x = some c ∧ c.info.blockHeight = h
  /-- The node has its last finalized block. -/
  lastFinalized_known : (blocks lastFinalized).isSome

namespace NodeState

/-- The content of a block, or the node's refusal. -/
def find (n : NodeState) (x : String) : Except JsError BlockContent :=
  match n.blocks x with
  | some c => .ok c
  | none => .error ⟨"RpcError", "block not found", some "NOT_FOUND"⟩

/-- The reply to a request that does not fail. -/
def reply (n : NodeState) : (q : Rpc) → Except JsError q.Reply
  | .getBlocksAtHeight h => .ok (n.hashesAt h)
  | .getBlockInfo none => (n.find n.lastFinalized).map BlockContent.info
  | .getBlockInfo (some x) => (n.find x).map BlockContent.info
  | .getBlockFinalizationSummary x => (n.find x).map BlockContent.finalizationSummary
  | .getBlockTransactionEvents x => (n.find x).map BlockContent.transactions
  | .getBlockSpecialEvents x => (n.find x).map BlockContent.specialEvents

/-- The reply to a request. -/
def answer (n : NodeState) (q : Rpc) : Except JsError q.Reply :=
  match n.failure q with
  | some e => .error e
  | none => n.reply q

variable {n : NodeState}

theorem answer_eq_ok {q : Rpc} {a : q.Reply} (h : n.answer q = .ok a) :
    n.failure q = none ∧ n.reply q = .ok a := by
  rw [answer] at h
  cases hf : n.failure q with
  | some e => simp [hf] at h
  | none => exact ⟨rfl, by simpa [hf] using h⟩

theorem find_eq_ok_iff {x : String} {c : BlockContent} :
    n.find x = .ok c ↔ n.blocks x = some c := by
  rw [find]
  cases n.blocks x <;> simp

theorem map_find_eq_ok_iff {α : Type} {f : BlockContent → α} {x : String} {a : α} :
    (n.find x).map f = .ok a ↔ ∃ c, n.blocks x = some c ∧ f c = a := by
  rw [find]
  cases n.blocks x <;> simp [Except.map]

theorem exists_lastFinalized (n : NodeState) : ∃ c, n.blocks n.lastFinalized = some c :=
  Option.isSome_iff_exists.mp n.lastFinalized_known

/-- Every block of the node is the one a fixed chain has under that hash. -/
def ServesOnly (content : String → BlockContent) (n : NodeState) : Prop :=
  ∀ x c, n.blocks x = some c → c = content x

/-- The node that has these blocks, no two with one hash, and never fails. -/
def ofBlocks (cs : List BlockContent) (hnodup : (cs.map fun c => c.info.blockHash).Nodup)
    (last : BlockContent) (hlast : last ∈ cs) : NodeState where
  blocks x := cs.find? fun c => c.info.blockHash = x
  hashesAt h := (cs.filter fun c => c.info.blockHeight = h).map fun c => c.info.blockHash
  lastFinalized := last.info.blockHash
  failure _ := none
  info_hash h := by simpa using List.find?_some h
  mem_hashesAt {h x} := by
    simp only [List.mem_map, List.mem_filter, decide_eq_true_eq]
    constructor
    · rintro ⟨c, ⟨hc, hheight⟩, rfl⟩
      cases hfind : cs.find? fun d => d.info.blockHash = c.info.blockHash with
      | none => simpa using List.find?_eq_none.mp hfind c hc
      | some d =>
        have hd : d = c := List.inj_on_of_nodup_map hnodup (List.mem_of_find?_eq_some hfind) hc
          (by simpa using List.find?_some hfind)
        exact ⟨c, by rw [hd], hheight⟩
    · rintro ⟨c, hc, hheight⟩
      exact ⟨c, ⟨List.mem_of_find?_eq_some hc, hheight⟩, by simpa using List.find?_some hc⟩
  lastFinalized_known := List.find?_isSome.mpr ⟨last, hlast, by simp⟩

theorem ofBlocks_servesOnly {content : String → BlockContent} {cs : List BlockContent}
    {hnodup : (cs.map fun c => c.info.blockHash).Nodup} {last : BlockContent} {hlast : last ∈ cs}
    (h : ∀ c ∈ cs, content c.info.blockHash = c) :
    (ofBlocks cs hnodup last hlast).ServesOnly content := by
  intro x c hc
  have hhash : c.info.blockHash = x := by simpa using List.find?_some hc
  rw [← hhash, h c (List.mem_of_find?_eq_some hc)]

/-- The node that has a single block and never fails. -/
def single (c : BlockContent) : NodeState where
  blocks x := if x = c.info.blockHash then some c else none
  hashesAt h := if h = c.info.blockHeight then [c.info.blockHash] else []
  lastFinalized := c.info.blockHash
  failure _ := none
  info_hash {x d} h := by
    split_ifs at h with hx
    · cases h
      exact hx.symm
  mem_hashesAt {h x} := by
    by_cases hx : x = c.info.blockHash <;> by_cases hh : h = c.info.blockHeight <;>
      simp [hx, hh, eq_comm]
  lastFinalized_known := by simp

theorem single_servesOnly (c : BlockContent) : (single c).ServesOnly fun _ => c := by
  intro x d h
  simp only [single] at h
  split_ifs at h with hx
  · exact (Option.some.inj h).symm

end NodeState

end SubqlConcordium
