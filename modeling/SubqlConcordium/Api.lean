import SubqlConcordium.Grpc
import SubqlConcordium.Js.Numeric
import SubqlConcordium.Packages
import Mathlib.Data.List.Basic

/-!
# The chain API

`ConcordiumApi`: how a block is fetched and assembled. The requests of `getAndWrapBlock` come
first and the rest is pure, so the model is split there: `getAndWrapBlock` asks, `assembleBlock`
builds. The items of a block (transactions, events, special events) are objects, built by the
spreads of the source; the block itself is a record.

Assembly has two stages. The items are first made with `block: null`, and the events of each
transaction hold that early transaction; then every item gets the deep copy of the block made in
between. `earlyBlock` is the block of the first stage and `linkTo` is the second.

## Objects and records

The items keep whatever the node sent. A handler may read any property of a transaction, and filters
do so by keys that only the manifest knows, so an item cannot be a record. The block is one, since
the program only ever reads the properties that it writes itself. Where a block is put into an item,
it becomes an object, by `toObj`.

## Main definitions

* `Header`, `blockToHeader`, `ConcordiumBlock`, `IBlock` — headers and blocks
* `wrapTransactionEvents`, `getAndWrapTransactions`, `getAndWrapSpecialEvents` — the items
* `assembleBlock`, `getAndWrapBlock`, `fetchBlock` — a whole block

## Main results

* `assembleContent_eq_ok_iff` — an assembled block is the early block linked to itself
* `returns_fetchBlock_iff` — the runs of `fetchBlock` that return, reply by reply
* `run_fetchBlock_eq_ok_iff` — when `fetchBlock` returns on one state of a node, and what
-/

namespace SubqlConcordium

open Js Interaction

/-- node-core's `Header`. -/
structure Header where
  blockHeight : ℕ
  blockHash : String
  parentHash : String
  deriving DecidableEq

def blockToHeader (block : BlockInfo) : Header where
  blockHeight := toNumber block.blockHeight
  blockHash := block.blockHash
  parentHash := block.blockParent

/-- `ConcordiumBlock`: the block info with what was fetched for its hash. -/
structure ConcordiumBlock extends BlockInfo where
  finalizationSummary : Value
  transactions : List Obj
  transactionEvents : Option (List Obj)
  specialEvents : List Obj

namespace ConcordiumBlock

def itemsValue (items : List Obj) : Value := .arr (items.map .obj)

/-- The block as an object. -/
def toObj (b : ConcordiumBlock) : Obj :=
  let events := match b.transactionEvents with
    | some evs => itemsValue evs
    | none => .null
  (((b.toBlockInfo.toObj.put "finalizationSummary" b.finalizationSummary).put
    "transactions" (itemsValue b.transactions)).put "transactionEvents" events).put
    "specialEvents" (itemsValue b.specialEvents)

end ConcordiumBlock

/-- node-core's `IBlock`. Its `getHeader` reads the wrapped block. -/
structure IBlock where
  block : ConcordiumBlock

/-- `getHeader()` of a fetched block. -/
def IBlock.getHeader (b : IBlock) : Header := blockToHeader b.block.toBlockInfo

/-! ### The events of a transaction -/

/-- The values that `wrapTransactionEvents` pushes for a transaction of a known or unknown kind. -/
def pushedEvents (sdk : Sdk) (tx : Obj) : Except JsError (List Value) :=
  match sdk.case? (tx.prop "transactionType") with
  | some .Transfer => .ok [tx.prop "transfer"]
  | some .TransferWithMemo => .ok [tx.prop "transfer", tx.prop "memo"]
  | some .TransferWithSchedule => .ok [tx.prop "event"]
  | some .TransferWithScheduleAndMemo => .ok [tx.prop "transfer", tx.prop "memo"]
  | some .EncryptedAmountTransfer => .ok [tx.prop "removed", tx.prop "added"]
  | some .EncryptedAmountTransferWithMemo =>
    .ok [tx.prop "removed", tx.prop "added", tx.prop "memo"]
  | some .DeployModule => .ok [tx.prop "moduleDeployed"]
  | some .InitContract => .ok [tx.prop "contractInitialized"]
  | some .Update => (tx.prop "events").iterate
  | some .RegisterData => .ok [tx.prop "dataRegistered"]
  | some .TransferToPublic => .ok [tx.prop "removed", tx.prop "added"]
  | some .TransferToEncrypted => .ok [tx.prop "added"]
  | some .AddBaker => .ok [tx.prop "bakerAdded"]
  | some .RemoveBaker => .ok [tx.prop "bakerRemoved"]
  | some .UpdateBakerKeys => .ok [tx.prop "bakerKeysUpdated"]
  | some .UpdateBakerStake => .ok [tx.prop "bakerStakeChanged"]
  | some .UpdateBakerRestakeEarnings => .ok [tx.prop "bakerRestakeEarningsUpdated"]
  | some .ConfigureBaker => (tx.prop "events").iterate
  | some .ConfigureDelegation => (tx.prop "events").iterate
  | some .UpdateCredentialKeys => .ok [tx.prop "keysUpdated"]
  | some .UpdateCredentials => .ok [tx.prop "credentialsUpdated"]
  -- an unknown kind is only logged
  | none => .ok []

/-- `{...evt, id: i, block: null, transaction: tx}`. -/
def wrapEvent (tx : Obj) (i : ℕ) (evt : Value) : Obj :=
  ((evt.spread.put "id" (.num i)).put "block" .null).put "transaction" (.obj tx)

/-- `ConcordiumApi.wrapTransactionEvents`. -/
def wrapTransactionEvents (sdk : Sdk) (tx : Obj) : Except JsError (List Obj) :=
  if strictEq (tx.prop "type") (.str sdk.accountTransaction) then do
    let events ← pushedEvents sdk tx
    return events.mapIdx (wrapEvent tx)
  -- other transaction types do not seem to contain events
  else .ok []

/-! ### The requests -/

/-- `ConcordiumApi.getFinalizedBlock`. -/
def getFinalizedBlock : NodeProc BlockInfo := request (.getBlockInfo none)

/-- `ConcordiumApi.getBlockByHash`. TypeScript lets an `undefined` hash through. -/
def getBlockByHash (hash : Option String) : NodeProc BlockInfo := request (.getBlockInfo hash)

/-- `{...tx, block: null}`. -/
def wrapTransaction (tx : Obj) : Obj := tx.put "block" .null

/-- `{...evt, id: i, block: null}`. -/
def wrapSpecialEvent (i : ℕ) (evt : Obj) : Obj := (evt.put "id" (.num i)).put "block" .null

/-- `ConcordiumApi.getAndWrapTransactions`. -/
def getAndWrapTransactions (blockHash : String) : NodeProc (List Obj) := do
  let transactions : List Obj ← request (.getBlockTransactionEvents blockHash)
  return transactions.map wrapTransaction

/-- `ConcordiumApi.getAndWrapSpecialEvents`. -/
def getAndWrapSpecialEvents (blockHash : String) : NodeProc (List Obj) := do
  let events : List Obj ← request (.getBlockSpecialEvents blockHash)
  return events.mapIdx wrapSpecialEvent

/-! ### Assembling a block -/

/-- The wrapped block with its flattened events, before its items refer to a block. -/
def earlyBlock (blockInfo : BlockInfo) (finalizationSummary : Value)
    (transactions specialEvents events : List Obj) : ConcordiumBlock where
  toBlockInfo := blockInfo
  finalizationSummary := finalizationSummary
  transactions := transactions
  transactionEvents := some events
  specialEvents := specialEvents

/-- `{...item, block: blockClone}`. -/
def linkItem (blockClone : ConcordiumBlock) (item : Obj) : Obj :=
  item.put "block" (.obj blockClone.toObj)

/-- The items of a block without the references to it. -/
def unlinked (items : List Obj) : List Obj := items.map (·.without "block")

/-- Every item of a block linked to a copy of it. -/
def ConcordiumBlock.linkTo (b blockClone : ConcordiumBlock) : ConcordiumBlock :=
  { b with
    transactions := b.transactions.map (linkItem blockClone)
    transactionEvents := b.transactionEvents.map (List.map (linkItem blockClone))
    specialEvents := b.specialEvents.map (linkItem blockClone) }

section

variable (sdk : Sdk) (lodash : Lodash)

/-- The part of `getAndWrapBlock` after its requests. -/
def assembleBlock (blockInfo : BlockInfo) (finalizationSummary : Value)
    (transactions specialEvents : List Obj) : Except JsError ConcordiumBlock := do
  let events ← transactions.mapM (wrapTransactionEvents sdk)
  let wrappedBlock := earlyBlock blockInfo finalizationSummary transactions specialEvents
    (lodash.flatMap events)
  let blockClone := lodash.cloneDeep wrappedBlock
  return wrappedBlock.linkTo blockClone

/-- `ConcordiumApi.getAndWrapBlock`. -/
def getAndWrapBlock (height : ℕ) : NodeProc IBlock := do
  let hashes : List String ← request (.getBlocksAtHeight height)
  let blockHash := hashes.head? -- there is only one finalized block per height
  let blockInfo ← getBlockByHash blockHash
  let finalizationSummary : Value ←
    request (.getBlockFinalizationSummary blockInfo.blockHash)
  let transactions ← getAndWrapTransactions blockInfo.blockHash
  let specialEvents ← getAndWrapSpecialEvents blockInfo.blockHash
  let block ← Proc.ofExcept
    (assembleBlock sdk lodash blockInfo finalizationSummary transactions specialEvents)
  return ⟨block⟩

/-- `ConcordiumApi.fetchBlock`, without the profiler event it emits. -/
def fetchBlock (height : ℕ) : NodeProc IBlock := getAndWrapBlock sdk lodash height

end

variable {sdk : Sdk} {lodash : Lodash} {b : ConcordiumBlock}

/-- The requests that `fetchBlock` makes for a given first reply and block, with their replies. -/
def fetchTrace (height : ℕ) (hashes : List String) (c : BlockContent) :
    List (Event Rpc Rpc.Reply JsError) :=
  [⟨.getBlocksAtHeight height, .ok hashes⟩, ⟨.getBlockInfo hashes.head?, .ok c.info⟩,
    ⟨.getBlockFinalizationSummary c.info.blockHash, .ok c.finalizationSummary⟩,
    ⟨.getBlockTransactionEvents c.info.blockHash, .ok c.transactions⟩,
    ⟨.getBlockSpecialEvents c.info.blockHash, .ok c.specialEvents⟩]

theorem fetchTrace_injective {height : ℕ} {hashes hashes' : List String} {c c' : BlockContent}
    (h : fetchTrace height hashes c = fetchTrace height hashes' c') :
    hashes = hashes' ∧ c = c' := by
  obtain ⟨info, summary, txs, evs⟩ := c
  obtain ⟨info', summary', txs', evs'⟩ := c'
  simp only [fetchTrace, List.cons.injEq, Sigma.mk.injEq] at h
  simp_all

/-- The block assembled from what was received. -/
def assembleContent (sdk : Sdk) (lodash : Lodash) (c : BlockContent) :
    Except JsError ConcordiumBlock :=
  assembleBlock sdk lodash c.info c.finalizationSummary (c.transactions.map wrapTransaction)
    (c.specialEvents.mapIdx wrapSpecialEvent)

/-- The events extracted from a transaction. -/
def eventsOf (sdk : Sdk) (tx : Obj) : List Obj := (wrapTransactionEvents sdk tx).toOption.getD []

/-- The early block made from what was received. -/
def earlyContent (sdk : Sdk) (c : BlockContent) : ConcordiumBlock :=
  earlyBlock c.info c.finalizationSummary (c.transactions.map wrapTransaction)
    (c.specialEvents.mapIdx wrapSpecialEvent)
    ((c.transactions.map wrapTransaction).flatMap (eventsOf sdk))

variable {c : BlockContent}

/-- **An assembled block is the early block linked to itself.** -/
theorem assembleContent_eq_ok_iff (hlodash : lodash.Documented) :
    assembleContent sdk lodash c = .ok b ↔
      (∀ tx ∈ c.transactions, ∃ events,
        wrapTransactionEvents sdk (wrapTransaction tx) = .ok events) ∧
        b = (earlyContent sdk c).linkTo (earlyContent sdk c) := by
  rw [assembleContent, assembleBlock, bind_eq_ok_iff]
  simp only [mapM_eq_ok_iff ([] : List Obj), hlodash.cloneDeep_eq, hlodash.flatMap_eq,
    List.forall_mem_map]
  constructor
  · rintro ⟨_, ⟨hevents, rfl⟩, ⟨⟩⟩
    exact ⟨hevents, rfl⟩
  · rintro ⟨hevents, rfl⟩
    exact ⟨_, ⟨hevents, rfl⟩, rfl⟩

/-- What is pushed has nothing to do with the block that a transaction refers to. -/
theorem pushedEvents_put_block (tx : Obj) (v : Value) :
    pushedEvents sdk (tx.put "block" v) = pushedEvents sdk tx := by
  have hprop : ∀ k ≠ "block", (tx.put "block" v).prop k = tx.prop k := fun k hk =>
    Obj.prop_put_of_ne _ _ hk
  rw [pushedEvents, pushedEvents, hprop _ (by decide)]
  cases sdk.case? (tx.prop "transactionType") with
  | none => rfl
  | some kind => cases kind <;> simp [hprop]

theorem length_eventsOf_linkItem (tx : Obj) :
    (eventsOf sdk (linkItem b tx)).length = (eventsOf sdk tx).length := by
  have htype : (linkItem b tx).prop "type" = tx.prop "type" := Obj.prop_put_of_ne _ _ (by decide)
  have hpushed : pushedEvents sdk (linkItem b tx) = pushedEvents sdk tx :=
    pushedEvents_put_block tx _
  rw [eventsOf, eventsOf, wrapTransactionEvents, wrapTransactionEvents, hpushed, htype]
  split_ifs
  · cases pushedEvents sdk tx with
    | error e => rfl
    | ok values =>
      have hlength : ∀ tx, (values.mapIdx (wrapEvent tx)).length = values.length := fun _ =>
        List.length_mapIdx
      exact (hlength _).trans (hlength _).symm
  · rfl

theorem prop_transaction_of_mem_eventsOf {tx evt : Obj} (h : evt ∈ eventsOf sdk tx) :
    evt.prop "transaction" = .obj tx := by
  rw [eventsOf, wrapTransactionEvents] at h
  split_ifs at h with htype
  · cases hpushed : pushedEvents sdk tx with
    | error e => simp [hpushed, bind, Except.bind, Except.toOption] at h
    | ok values =>
      simp only [hpushed, bind, Except.bind, pure, Except.pure, Except.toOption, Option.getD_some,
        List.mem_mapIdx] at h
      obtain ⟨i, hi, rfl⟩ := h
      exact Obj.prop_put_self _ _ _
  · simp [Except.toOption] at h

/-- Linking an item leaves its other properties alone. -/
theorem prop_linkItem {item : Obj} {k : String} (h : k ≠ "block") :
    (linkItem b item).prop k = item.prop k :=
  Obj.prop_put_of_ne _ _ h

theorem unlinked_map_linkItem (items : List Obj) :
    unlinked (items.map (linkItem b)) = unlinked items := by
  rw [unlinked, unlinked, List.map_map]
  exact List.map_congr_left fun item _ => Obj.without_put _ _ _

/-- **The runs of `fetchBlock` that return.** There are five requests. All but the first two carry
the hash found in the block info, and the result is assembled from the last four replies. -/
theorem returns_fetchBlock_iff {height : ℕ} {tr : List (Event Rpc Rpc.Reply JsError)}
    {ib : IBlock} :
    Steps (fetchBlock sdk lodash height) tr (.ret ib) ↔
      ∃ hashes c, tr = fetchTrace height hashes c ∧
        assembleContent sdk lodash c = .ok ib.block := by
  simp only [fetchBlock, getAndWrapBlock, getBlockByHash, getAndWrapTransactions,
    getAndWrapSpecialEvents, returns_bind_iff, returns_await_iff, returns_ofExcept_iff,
    Proc.pure_eq, steps_ret_iff]
  constructor
  · rintro ⟨_, hashes, _, rfl, rfl, _, info, _, rfl, rfl, _, summary, _, rfl, rfl,
      _, _, _, rfl, ⟨_, txs, _, rfl, rfl, rfl, htxs⟩,
      _, _, _, rfl, ⟨_, evs, _, rfl, rfl, rfl, hevs⟩,
      _, block, _, rfl, ⟨rfl, hblock⟩, rfl, hib⟩
    cases htxs
    cases hevs
    cases hib
    exact ⟨hashes, ⟨info, summary, txs, evs⟩, rfl, hblock⟩
  · rintro ⟨hashes, ⟨info, summary, txs, evs⟩, rfl, hblock⟩
    exact ⟨_, hashes, _, rfl, rfl, _, info, _, rfl, rfl, _, summary, _, rfl, rfl,
      _, _, _, rfl, ⟨_, txs, _, rfl, rfl, rfl, rfl⟩, _, _, _, rfl, ⟨_, evs, _, rfl, rfl, rfl, rfl⟩,
      _, ib.block, _, rfl, ⟨rfl, hblock⟩, rfl, rfl⟩

/-- **`fetchBlock` on one state of a node.** -/
theorem run_fetchBlock_eq_ok_iff {n : NodeState} {height : ℕ} {ib : IBlock} :
    (fetchBlock sdk lodash height).run n.answer = .ok ib ↔
      ∃ hashes c, (∀ ev ∈ fetchTrace height hashes c, ev.2 = n.answer ev.1) ∧
        assembleContent sdk lodash c = .ok ib.block := by
  rw [run_eq_ok_iff]
  constructor
  · rintro ⟨tr, hsteps, hev⟩
    obtain ⟨hashes, c, rfl, hblock⟩ := returns_fetchBlock_iff.mp hsteps
    exact ⟨hashes, c, hev, hblock⟩
  · rintro ⟨hashes, c, hev, hblock⟩
    exact ⟨_, returns_fetchBlock_iff.mpr ⟨hashes, c, rfl, hblock⟩, hev⟩

/-- A block with a transfer, which has one event, and an account creation, which has none. -/
def transferBlock : BlockContent where
  info := ⟨"b9", "b8", 9, 2250, 2307, []⟩
  finalizationSummary := .null
  transactions := [
    [("hash", .str "t1"), ("type", .str "accountTransaction"), ("transactionType", .str "transfer"),
      ("transfer", .obj [("tag", .str "Transferred"), ("amount", .bigint 100)])],
    [("hash", .str "t2"), ("type", .str "accountCreation")]]
  specialEvents := [[("tag", .str "blockReward")]]

/-- The block assembled from it. -/
def transferBlockAssembled : ConcordiumBlock :=
  (earlyContent Sdk.reference transferBlock).linkTo (earlyContent Sdk.reference transferBlock)

end SubqlConcordium
