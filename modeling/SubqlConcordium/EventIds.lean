import SubqlConcordium.Api
import Mathlib.Data.List.Nodup

/-!
# The events of a block, and their ids

`wrapTransactionEvents` numbers the events of one transaction. Which fields of a summary hold its
events is a table of the SDK's, kept here as such; that the numbering makes keys is a fact about the
whole block, whose events are those of its transactions in a row.

## One event, several, a list

A kind of summary has its events in fixed fields, one in each, except for three kinds that have a
list. The program writes a `case` for each kind, and pushes what these fields hold, in this order.
The table is short, and reading it against the source is all there is to check; the numbering does
not depend on it.

Ids start from zero in each transaction, so an id alone is no key. Together with the hash of the
transaction it is, provided that transactions have different hashes.

## Main definitions

* `EventFields`, `eventFields` — the fields of each kind of summary that hold events
* `Summary` — a successful account transaction with its events
* `Extracted` — the events extracted from it
* `EventsKeyed` — the ids of a block are keys

## Main results

* `extracted_of_summary` — extraction is lossless
* `eventsKeyed_of_assembled` — the ids of an assembled block are keys
* `events_lossless_and_keyed` — both, for every transaction and every fetched block
-/

namespace SubqlConcordium

open Js Interaction

/-! ### Summaries -/

/-- Where a summary holds its events: one in each of some fields, or all in one array. -/
inductive EventFields where
  | fields (names : List String)
  | array (name : String)

/-- The fields of each kind of summary that hold events, in the order in which the SDK declares
them. -/
def eventFields : TransactionKindString → EventFields
  | .Transfer => .fields ["transfer"]
  | .TransferWithMemo => .fields ["transfer", "memo"]
  | .TransferWithSchedule => .fields ["event"]
  | .TransferWithScheduleAndMemo => .fields ["transfer", "memo"]
  | .EncryptedAmountTransfer => .fields ["removed", "added"]
  | .EncryptedAmountTransferWithMemo => .fields ["removed", "added", "memo"]
  | .DeployModule => .fields ["moduleDeployed"]
  | .InitContract => .fields ["contractInitialized"]
  | .Update => .array "events"
  | .RegisterData => .fields ["dataRegistered"]
  | .TransferToPublic => .fields ["removed", "added"]
  | .TransferToEncrypted => .fields ["added"]
  | .AddBaker => .fields ["bakerAdded"]
  | .RemoveBaker => .fields ["bakerRemoved"]
  | .UpdateBakerKeys => .fields ["bakerKeysUpdated"]
  | .UpdateBakerStake => .fields ["bakerStakeChanged"]
  | .UpdateBakerRestakeEarnings => .fields ["bakerRestakeEarningsUpdated"]
  | .ConfigureBaker => .array "events"
  | .ConfigureDelegation => .array "events"
  | .UpdateCredentialKeys => .fields ["keysUpdated"]
  | .UpdateCredentials => .fields ["credentialsUpdated"]

/-- The fields hold these events. -/
def EventFields.Hold (tx : Obj) (payloads : List Obj) : EventFields → Prop
  | fields names => names.map tx.prop = payloads.map .obj
  | array name => tx.prop name = .arr (payloads.map .obj)

/-- A successful account transaction of a kind, with the payloads of its events. -/
structure Summary (sdk : Sdk) (tx : Obj) (kind : TransactionKindString) (payloads : List Obj) :
    Prop where
  type : tx.prop "type" = .str sdk.accountTransaction
  transactionType : tx.prop "transactionType" = .str (sdk.kind kind)
  events : (eventFields kind).Hold tx payloads
  /-- No event of the SDK has a field of these names. -/
  unreserved : ∀ payload ∈ payloads, ∀ key ∈ ["id", "block", "transaction"],
    payload.lookup key = none

/-- The event at index `i` of a transaction: the payload, unchanged, with its id and with the
transaction attached. -/
structure IsEvent (tx : Obj) (i : ℕ) (payload evt : Obj) : Prop where
  id : evt.prop "id" = .num i
  transaction : evt.prop "transaction" = .obj tx
  unchanged : ∀ key v, payload.lookup key = some v → evt.lookup key = some v
  nothingElse : ∀ key v, evt.lookup key = some v → key ∉ ["id", "block", "transaction"] →
    payload.lookup key = some v

/-- Each payload has become one event, in order. -/
structure Extracted (tx : Obj) (payloads events : List Obj) : Prop where
  length : events.length = payloads.length
  event : ∀ (i : ℕ) payload evt, payloads[i]? = some payload → events[i]? = some evt →
    IsEvent tx i payload evt

variable {sdk : Sdk} {lodash : Lodash} {tx : Obj} {kind : TransactionKindString}
  {payloads : List Obj}

/-! ### Extraction -/

/-- What is pushed for a kind: the events of its summary. -/
theorem pushedEvents_of_hold (hkind : tx.prop "transactionType" = .str (sdk.kind kind))
    (h : (eventFields kind).Hold tx payloads) :
    pushedEvents sdk tx = .ok (payloads.map .obj) := by
  have hcase : sdk.case? (tx.prop "transactionType") = some kind := Sdk.case?_eq_some_iff.mpr hkind
  rw [pushedEvents, hcase]
  cases kind <;> first
    | exact congrArg Except.ok h
    | exact congrArg Value.iterate h

theorem isEvent_wrapEvent {i : ℕ} {payload : Obj}
    (h : ∀ key ∈ ["id", "block", "transaction"], payload.lookup key = none) :
    IsEvent tx i payload (wrapEvent tx i (.obj payload)) := by
  have hother : ∀ key ∉ ["id", "block", "transaction"],
      (wrapEvent tx i (.obj payload)).lookup key = payload.lookup key := by
    intro key hkey
    simp only [List.mem_cons, List.not_mem_nil, or_false, not_or] at hkey
    rw [wrapEvent, Obj.lookup_put_of_ne _ _ hkey.2.2, Obj.lookup_put_of_ne _ _ hkey.2.1,
      Obj.lookup_put_of_ne _ _ hkey.1]
    rfl
  refine ⟨?_, Obj.prop_put_self _ _ _, fun key v hv => ?_, fun key v hv hkey => ?_⟩
  · rw [wrapEvent, Obj.prop_put_of_ne _ _ (by decide), Obj.prop_put_of_ne _ _ (by decide),
      Obj.prop_put_self]
  · rw [hother key fun hkey => by simp [h key hkey] at hv, hv]
  · rw [← hother key hkey, hv]

/-- **Extraction is lossless.** -/
theorem extracted_of_summary (h : Summary sdk tx kind payloads) :
    ∃ events, wrapTransactionEvents sdk tx = .ok events ∧ Extracted tx payloads events := by
  have htype : strictEq (tx.prop "type") (.str sdk.accountTransaction) = true :=
    strictEq_str_iff.mpr h.type
  have hpushed := pushedEvents_of_hold h.transactionType h.events
  refine ⟨(payloads.map .obj).mapIdx (wrapEvent tx), ?_, by simp, fun i payload evt hp he => ?_⟩
  · rw [wrapTransactionEvents, if_pos htype, hpushed]
    rfl
  · simp only [List.getElem?_mapIdx, List.getElem?_map, hp, Option.map_some,
      Option.some.injEq] at he
    subst he
    exact isEvent_wrapEvent (h.unreserved payload (List.mem_of_getElem? hp))

theorem wrapTransactionEvents_of_other
    (h : tx.prop "type" ≠ .str sdk.accountTransaction ∨
      ∀ kind, tx.prop "transactionType" ≠ .str (sdk.kind kind)) :
    wrapTransactionEvents sdk tx = .ok [] := by
  rw [wrapTransactionEvents]
  split_ifs with htype
  · have hkind := h.resolve_left fun hne => hne (strictEq_str_iff.mp htype)
    have hcase : sdk.case? (tx.prop "transactionType") = none := by
      cases hc : sdk.case? (tx.prop "transactionType") with
      | none => rfl
      | some kind => exact absurd (Sdk.case?_eq_some_iff.mp hc) (hkind kind)
    rw [pushedEvents, hcase]
    rfl
  · rfl

/-! ### The ids of a block -/

/-- The numbers `0` to `n - 1`, as ids. -/
def ids (n : ℕ) : List Value := (List.range n).map fun i : ℕ => .num i

/-- What an event is stored under: the hash of its transaction, and its id. -/
def eventKey (evt : Obj) : Value × Value := ((evt.prop "transaction").field "hash", evt.prop "id")

/-- **The ids of a block are keys.** No two events of the block have the same one, and the events of
each transaction, which are as many as are extracted from it, are numbered from zero. -/
structure EventsKeyed (sdk : Sdk) (b : ConcordiumBlock) : Prop where
  distinct : ∃ events, b.transactionEvents = some events ∧ (events.map eventKey).Nodup ∧
    ∀ tx ∈ b.transactions,
      ((events.filter fun evt => strictEq (eventKey evt).1 (tx.prop "hash")).map
        fun evt => evt.prop "id") = ids (eventsOf sdk tx).length

/-- The special events of a block are those of the chain, in order, numbered from zero. -/
structure SpecialEventsNumbered (chain block : List Obj) : Prop where
  length : block.length = chain.length
  event : ∀ (i : ℕ) evt evt', chain[i]? = some evt → block[i]? = some evt' →
    evt'.prop "id" = .num i ∧
      ∀ key v, evt.lookup key = some v → key ∉ ["id", "block"] → evt'.lookup key = some v

theorem ids_nodup (n : ℕ) : (ids n).Nodup := by
  refine List.nodup_range.map fun i j h => ?_
  simpa using h

theorem prop_id_wrapEvent {i : ℕ} {evt : Value} : (wrapEvent tx i evt).prop "id" = .num i := by
  rw [wrapEvent, Obj.prop_put_of_ne _ _ (by decide), Obj.prop_put_of_ne _ _ (by decide),
    Obj.prop_put_self]

theorem ids_eventsOf (sdk : Sdk) (tx : Obj) :
    (eventsOf sdk tx).map (fun evt => evt.prop "id") = ids (eventsOf sdk tx).length := by
  have hids : ∀ values : List Value,
      (values.mapIdx (wrapEvent tx)).map (fun evt => evt.prop "id") = ids values.length := by
    intro values
    refine List.ext_getElem (by simp [ids]) fun i h₁ h₂ => ?_
    simp [ids, prop_id_wrapEvent]
  rw [eventsOf, wrapTransactionEvents]
  split_ifs
  · cases pushedEvents sdk tx with
    | error e => rfl
    | ok values =>
      have hlength : (values.mapIdx (wrapEvent tx)).length = values.length := List.length_mapIdx
      exact (hids values).trans (by rw [← hlength]; rfl)
  · rfl

section Block

variable {b b' : ConcordiumBlock} {txs : List Obj}

theorem eventKey_linkItem (evt : Obj) : eventKey (linkItem b evt) = eventKey evt := by
  rw [eventKey, prop_linkItem (by decide), prop_linkItem (by decide), eventKey]

theorem eventKey_of_mem {evt : Obj} (h : evt ∈ eventsOf sdk tx) :
    (eventKey evt).1 = tx.prop "hash" := by
  rw [eventKey, prop_transaction_of_mem_eventsOf h]
  rfl

theorem eventKeys_eventsOf (sdk : Sdk) (tx : Obj) :
    (eventsOf sdk tx).map eventKey =
      (ids (eventsOf sdk tx).length).map fun i => (tx.prop "hash", i) := by
  rw [← ids_eventsOf, List.map_map]
  exact List.map_congr_left fun evt hevt => Prod.ext (eventKey_of_mem hevt) rfl

/-- **Keys are distinct** if hashes are. -/
theorem eventKeys_nodup (h : (txs.map fun tx => tx.prop "hash").Nodup) :
    ((txs.flatMap (eventsOf sdk)).map eventKey).Nodup := by
  rw [List.map_flatMap, List.nodup_flatMap]
  refine ⟨fun tx _ => ?_, ?_⟩
  · rw [eventKeys_eventsOf]
    exact (ids_nodup _).map fun i j hij => (Prod.mk.inj hij).2
  · rw [List.Nodup, List.pairwise_map] at h
    refine h.imp fun {tx tx'} hne => ?_
    show List.Disjoint ((eventsOf sdk tx).map eventKey) ((eventsOf sdk tx').map eventKey)
    rw [List.disjoint_left, eventKeys_eventsOf, eventKeys_eventsOf]
    intro key hkey hkey'
    obtain ⟨i, -, rfl⟩ := List.mem_map.mp hkey
    obtain ⟨j, -, hj⟩ := List.mem_map.mp hkey'
    exact hne (Prod.mk.inj hj).1.symm

/-- The events of a block with the hash of one of its transactions are those of the transaction. -/
theorem filter_events (h : (txs.map fun tx => tx.prop "hash").Nodup) (htx : tx ∈ txs)
    {hash : String} (hhash : tx.prop "hash" = .str hash) :
    ((txs.flatMap (eventsOf sdk)).filter fun evt => strictEq (eventKey evt).1 (tx.prop "hash")) =
      eventsOf sdk tx := by
  refine filter_flatMap_of_nodup h htx fun y hy evt hevt => ?_
  rw [eventKey_of_mem hevt, hhash, strictEq_str_iff]

theorem prop_hash_linkItem (tx : Obj) : (linkItem b tx).prop "hash" = tx.prop "hash" :=
  prop_linkItem (by decide)

theorem eventsKeyed_of_linked {hashes : List String}
    (htransactions : b.transactions = txs.map (linkItem b'))
    (hevents : b.transactionEvents = some ((txs.flatMap (eventsOf sdk)).map (linkItem b')))
    (hhashes : txs.map (fun tx => tx.prop "hash") = hashes.map .str) (hnodup : hashes.Nodup) :
    EventsKeyed sdk b := by
  have hdistinct : (txs.map fun tx => tx.prop "hash").Nodup := by
    rw [hhashes]
    exact hnodup.map fun s t hst => Value.str.inj hst
  refine ⟨_, hevents, ?_, fun linked hlinked => ?_⟩
  · have hkeys : (txs.flatMap (eventsOf sdk)).map (eventKey ∘ linkItem b') =
        (txs.flatMap (eventsOf sdk)).map eventKey :=
      List.map_congr_left fun evt _ => eventKey_linkItem evt
    rw [List.map_map, hkeys]
    exact eventKeys_nodup hdistinct
  · rw [htransactions] at hlinked
    obtain ⟨tx, htx, rfl⟩ := List.mem_map.mp hlinked
    obtain ⟨hash, -, hhash⟩ := List.mem_map.mp
      (hhashes ▸ List.mem_map_of_mem htx : tx.prop "hash" ∈ hashes.map Value.str)
    have hfilter : ((txs.flatMap (eventsOf sdk)).map (linkItem b')).filter
        (fun evt => strictEq (eventKey evt).1 ((linkItem b' tx).prop "hash")) =
          (eventsOf sdk tx).map (linkItem b') := by
      rw [prop_hash_linkItem, List.filter_map, ← filter_events hdistinct htx hhash.symm]
      refine congrArg _ (List.filter_congr fun evt _ => ?_)
      rw [Function.comp_apply, eventKey_linkItem]
    rw [hfilter, List.map_map, length_eventsOf_linkItem, ← ids_eventsOf]
    exact List.map_congr_left fun evt _ => prop_linkItem (by decide)

/-- **The ids of an assembled block are keys**, if the hashes of its transactions are distinct. -/
theorem eventsKeyed_of_assembled {c : BlockContent} {hashes : List String}
    (hb : b = (earlyContent sdk c).linkTo b')
    (hhashes : b.transactions.map (fun tx => tx.prop "hash") = hashes.map .str)
    (hnodup : hashes.Nodup) : EventsKeyed sdk b := by
  subst hb
  refine eventsKeyed_of_linked (b := (earlyContent sdk c).linkTo b') rfl rfl ?_ hnodup
  rw [← hhashes, ConcordiumBlock.linkTo, List.map_map]
  exact List.map_congr_left fun tx _ => (prop_hash_linkItem tx).symm

/-- **The special events of an assembled block** are numbered in chain order. -/
theorem specialEventsNumbered_of_assembled {c : BlockContent}
    (hb : b = (earlyContent sdk c).linkTo b') :
    SpecialEventsNumbered c.specialEvents b.specialEvents := by
  subst hb
  refine ⟨by simp [ConcordiumBlock.linkTo, earlyContent, earlyBlock], fun i evt evt' he he' => ?_⟩
  have hlinked : evt' = linkItem b' (wrapSpecialEvent i evt) := by
    simpa [ConcordiumBlock.linkTo, earlyContent, earlyBlock, he, eq_comm] using he'
  subst hlinked
  refine ⟨?_, fun key v hv hkey => ?_⟩
  · rw [prop_linkItem (by decide), wrapSpecialEvent, Obj.prop_put_of_ne _ _ (by decide),
      Obj.prop_put_self]
  · simp only [List.mem_cons, List.not_mem_nil, or_false, not_or] at hkey
    rw [linkItem, wrapSpecialEvent, Obj.lookup_put_of_ne _ _ hkey.2,
      Obj.lookup_put_of_ne _ _ hkey.2, Obj.lookup_put_of_ne _ _ hkey.1, hv]

end Block

/-- **Extraction is lossless and ids are keys.** For every successful account transaction the events
are those of its summary, and for every other transaction there are none; and in every block that is
fetched, the ids of the events are keys if the hashes of the transactions are distinct, and the
special events are numbered in chain order. -/
theorem events_lossless_and_keyed (sdk : Sdk) (lodash : Lodash) (hlodash : lodash.Documented) :
    (∀ tx kind payloads, Summary sdk tx kind payloads →
      ∃ events, wrapTransactionEvents sdk tx = .ok events ∧ Extracted tx payloads events) ∧
    (∀ tx, (tx.prop "type" ≠ .str sdk.accountTransaction ∨
      ∀ kind, tx.prop "transactionType" ≠ .str (sdk.kind kind)) →
        wrapTransactionEvents sdk tx = .ok []) ∧
    ∀ height tr ib, Steps (fetchBlock sdk lodash height) tr (.ret ib) →
      (∀ hashes : List String,
        ib.block.transactions.map (fun tx => tx.prop "hash") = hashes.map .str → hashes.Nodup →
          EventsKeyed sdk ib.block) ∧
      ∃ hashes c, tr = fetchTrace height hashes c ∧
        SpecialEventsNumbered c.specialEvents ib.block.specialEvents := by
  refine ⟨fun tx kind payloads => extracted_of_summary,
    fun tx => wrapTransactionEvents_of_other, fun height tr ib h => ?_⟩
  obtain ⟨hashes, c, rfl, hassemble⟩ := returns_fetchBlock_iff.mp h
  obtain ⟨-, hb⟩ := (assembleContent_eq_ok_iff hlodash).mp hassemble
  refine ⟨fun txHashes hhashes hnodup => eventsKeyed_of_assembled hb hhashes hnodup,
    hashes, c, rfl, specialEventsNumbered_of_assembled hb⟩

/-- A block with an update and a transfer, each with two events, and an account creation. -/
def severalEventsBlock : BlockContent where
  info := ⟨"b9", "b8", 9, 2250, 2307, []⟩
  finalizationSummary := .null
  transactions := [
    [("hash", .str "t1"), ("type", .str "accountTransaction"), ("transactionType", .str "update"),
      ("events", .arr [.obj [("tag", .str "Updated"), ("amount", .bigint 0)],
        .obj [("tag", .str "Interrupted")]])],
    [("hash", .str "t2"), ("type", .str "accountTransaction"),
      ("transactionType", .str "transferWithMemo"),
      ("transfer", .obj [("tag", .str "Transferred"), ("amount", .bigint 100)]),
      ("memo", .obj [("tag", .str "TransferMemo"), ("memo", .str "6869")])],
    [("hash", .str "t3"), ("type", .str "accountCreation")]]
  specialEvents := [[("tag", .str "blockReward")]]

/-- Its four events have different keys, and those of each transaction are numbered from zero. -/
theorem eventsKeyed_severalEvents :
    ∃ ib, Steps (fetchBlock Sdk.reference Lodash.reference 9)
        (fetchTrace 9 ["b9"] severalEventsBlock) (.ret ib) ∧ EventsKeyed Sdk.reference ib.block ∧
      ib.block.transactions.map (fun tx => (eventsOf Sdk.reference tx).length) = [2, 2, 0] := by
  have hsteps : Steps (fetchBlock Sdk.reference Lodash.reference 9)
      (fetchTrace 9 ["b9"] severalEventsBlock) (.ret _) :=
    returns_fetchBlock_iff.mpr ⟨["b9"], severalEventsBlock, rfl, rfl⟩
  exact ⟨_, hsteps, ((events_lossless_and_keyed Sdk.reference Lodash.reference
    Lodash.reference_documented).2.2 9 _ _ hsteps).1 ["t1", "t2", "t3"] rfl (by decide), rfl⟩

end SubqlConcordium
