import SubqlConcordium.IndexerManager

/-!
# References back to the block

The types promise that every item of a block has its `block`, and every event its `transaction`,
whose `block` is there as well. The items get theirs at the end of the assembly, when each of them
is spread into a new object. The events hold the transactions as they were before that.

## Values have no identity

In JavaScript an item could refer to the very block that holds it. It does not: the references are
to a deep copy, taken before any item had one. Objects are compared by their contents here, and a
copy of a block whose items lack their references is not the block. What can be asked for is that
the copy has the same contents, references aside, and that is what `RefersTo` asks.

The same goes for the transaction of an event. It is promised to be the entry of the block, and what
the event holds is a copy in which the `block` is `null`.

## Main definitions

* `SameContents` — a referenced block has the contents of the block
* `BackReferences` — what the types promise of a block and its items
* `BearsEvents` — the transactions that have events at all

## Main results

* `refersTo_of_linked` — every item of an assembled block refers to its contents
* `backReferences_iff` — all references are right only if there are no events
-/

namespace SubqlConcordium

open Js Interaction

/-- Two blocks with the same contents, references to a block aside. -/
structure SameContents (b b' : ConcordiumBlock) : Prop where
  toBlockInfo : b.toBlockInfo = b'.toBlockInfo
  finalizationSummary : b.finalizationSummary = b'.finalizationSummary
  transactions : unlinked b.transactions = unlinked b'.transactions
  transactionEvents : b.transactionEvents.map unlinked = b'.transactionEvents.map unlinked
  specialEvents : unlinked b.specialEvents = unlinked b'.specialEvents

/-- An item whose `block` is there and has the contents of `b`. -/
def RefersTo (b : ConcordiumBlock) (item : Obj) : Prop :=
  ∃ referenced : ConcordiumBlock, item.prop "block" = .obj referenced.toObj ∧
    SameContents referenced b

/-- What the types promise of a block assembled from `c`. -/
structure BackReferences (sdk : Sdk) (c : BlockContent) (b : ConcordiumBlock) : Prop where
  transactions : ∀ tx ∈ b.transactions, RefersTo b tx
  transactionEvents : ∀ events, b.transactionEvents = some events → ∀ evt ∈ events, RefersTo b evt
  specialEvents : ∀ evt ∈ b.specialEvents, RefersTo b evt
  /-- The events of each transaction refer to its entry in the block. -/
  owners : ∃ groups : List (List Obj), b.transactionEvents = some groups.flatten ∧
    groups.map List.length =
      c.transactions.map (fun tx => (eventsOf sdk (wrapTransaction tx)).length) ∧
    List.Forall₂ (fun entry group => ∀ evt ∈ group, evt.prop "transaction" = .obj entry)
      b.transactions groups

/-- A transaction from which events are extracted: an account transaction of a known kind. Three
kinds come with a list of events, which may be empty. -/
def BearsEvents (sdk : Sdk) (tx : Obj) : Prop :=
  tx.prop "type" = .str sdk.accountTransaction ∧
    ∃ kind, tx.prop "transactionType" = .str (sdk.kind kind) ∧
      (kind ∈ [.Update, .ConfigureBaker, .ConfigureDelegation] →
        (tx.prop "events").iterate ≠ .ok [])

variable {sdk : Sdk} {lodash : Lodash} {c : BlockContent} {b early : ConcordiumBlock}

/-! ### The items of a linked block -/

theorem sameContents_linkTo : SameContents early (early.linkTo b) where
  toBlockInfo := rfl
  finalizationSummary := rfl
  transactions := (unlinked_map_linkItem _).symm
  transactionEvents := by
    cases hevents : early.transactionEvents with
    | none => simp [ConcordiumBlock.linkTo, hevents]
    | some events => simp [ConcordiumBlock.linkTo, hevents, unlinked_map_linkItem]
  specialEvents := (unlinked_map_linkItem _).symm

/-- **Every item refers to the contents of its block.** -/
theorem refersTo_of_linked {items : List Obj} :
    ∀ item ∈ items.map (linkItem early), RefersTo (early.linkTo early) item := by
  intro item hitem
  obtain ⟨item', -, rfl⟩ := List.mem_map.mp hitem
  exact ⟨early, Obj.prop_put_self _ _ _, sameContents_linkTo⟩

/-! ### Transactions without events -/

theorem pushedEvents_of_list_kind {tx : Obj} {kind : TransactionKindString}
    (hcase : sdk.case? (tx.prop "transactionType") = some kind)
    (hlist : kind ∈ [.Update, .ConfigureBaker, .ConfigureDelegation]) :
    pushedEvents sdk tx = (tx.prop "events").iterate := by
  simp only [List.mem_cons, List.not_mem_nil, or_false] at hlist
  rcases hlist with rfl | rfl | rfl <;> simp [pushedEvents, hcase]

theorem pushedEvents_of_other_kind {tx : Obj} {kind : TransactionKindString}
    (hcase : sdk.case? (tx.prop "transactionType") = some kind)
    (hlist : kind ∉ [.Update, .ConfigureBaker, .ConfigureDelegation]) :
    pushedEvents sdk tx ≠ .ok [] := by
  cases kind <;> simp [pushedEvents, hcase] at hlist ⊢

theorem pushed_eq_nil_iff {tx : Obj} {values : List Value} (h : pushedEvents sdk tx = .ok values) :
    values = [] ↔ ¬ ∃ kind, tx.prop "transactionType" = .str (sdk.kind kind) ∧
      (kind ∈ [.Update, .ConfigureBaker, .ConfigureDelegation] →
        (tx.prop "events").iterate ≠ .ok []) := by
  simp only [← Sdk.case?_eq_some_iff]
  cases hcase : sdk.case? (tx.prop "transactionType") with
  | none =>
    simp only [pushedEvents, hcase, Except.ok.injEq] at h
    simp [← h]
  | some kind =>
    simp only [Option.some.injEq, exists_eq_left', Classical.not_imp, not_not]
    by_cases hlist : kind ∈ [.Update, .ConfigureBaker, .ConfigureDelegation]
    · rw [← pushedEvents_of_list_kind hcase hlist, h]
      simp [hlist]
    · have hne := pushedEvents_of_other_kind hcase hlist
      rw [h] at hne
      simp only [hlist, false_and, iff_false]
      exact fun hnil => hne (by rw [hnil])

/-- **A transaction has no events** exactly if it bears none. -/
theorem eventsOf_eq_nil_iff {tx : Obj} (h : ∃ events, wrapTransactionEvents sdk tx = .ok events) :
    eventsOf sdk tx = [] ↔ ¬ BearsEvents sdk tx := by
  obtain ⟨events, h⟩ := h
  rw [eventsOf, h, BearsEvents]
  rw [wrapTransactionEvents] at h
  split_ifs at h with htype
  · rw [strictEq_str_iff] at htype
    obtain ⟨values, hvalues, h⟩ := bind_eq_ok_iff.mp h
    cases h
    rw [and_iff_right htype, ← pushed_eq_nil_iff hvalues]
    simp [Except.toOption]
  · cases h
    rw [strictEq_str_iff] at htype
    simp [Except.toOption, htype]

theorem bearsEvents_wrapTransaction {tx : Obj} :
    BearsEvents sdk (wrapTransaction tx) ↔ BearsEvents sdk tx := by
  simp only [BearsEvents, wrapTransaction,
    Obj.prop_put_of_ne tx .null (show "type" ≠ "block" by decide),
    Obj.prop_put_of_ne tx .null (show "transactionType" ≠ "block" by decide),
    Obj.prop_put_of_ne tx .null (show "events" ≠ "block" by decide)]

/-! ### The references of an assembled block -/

theorem transaction_block_of_event {tx evt : Obj} (h : evt ∈ eventsOf sdk (wrapTransaction tx)) :
    ∃ owner : Obj, (linkItem b evt).prop "transaction" = .obj owner ∧
      owner.prop "block" = .null := by
  refine ⟨wrapTransaction tx, ?_, Obj.prop_put_self _ _ _⟩
  rw [prop_linkItem (by decide), prop_transaction_of_mem_eventsOf h]

theorem transaction_of_event {groups : List (List Obj)} {group : List Obj} {evt : Obj}
    (hflatten : ((earlyContent sdk c).linkTo b).transactionEvents = some groups.flatten)
    (hgroup : group ∈ groups) (hevt : evt ∈ group) :
    ∃ owner : Obj, evt.prop "transaction" = .obj owner ∧ owner.prop "block" = .null := by
  have hmem : evt ∈ groups.flatten := List.mem_flatten.mpr ⟨group, hgroup, hevt⟩
  have hevents : groups.flatten =
      ((c.transactions.map wrapTransaction).flatMap (eventsOf sdk)).map (linkItem b) :=
    (Option.some.inj hflatten).symm
  rw [hevents] at hmem
  obtain ⟨evt', hevt', rfl⟩ := List.mem_map.mp hmem
  obtain ⟨tx, htx, hevt'⟩ := List.mem_flatMap.mp hevt'
  obtain ⟨raw, -, rfl⟩ := List.mem_map.mp htx
  exact transaction_block_of_event hevt'

/-- In related lists of equal length, everything on the right is related to something. -/
theorem exists_owner {α β : Type} {R : α → β → Prop} {xs : List α} {ys : List β}
    (h : List.Forall₂ R xs ys) {y : β} (hy : y ∈ ys) : ∃ x ∈ xs, R x y := by
  induction h with
  | nil => simp at hy
  | @cons a b xs ys hab _ ih =>
    rcases List.mem_cons.mp hy with rfl | hy
    · exact ⟨a, List.mem_cons_self, hab⟩
    · obtain ⟨x, hx, hR⟩ := ih hy
      exact ⟨x, List.mem_cons_of_mem a hx, hR⟩

theorem eventsOf_eq_nil_of_backReferences
    (hrefs : BackReferences sdk c ((earlyContent sdk c).linkTo b)) {tx : Obj}
    (htx : tx ∈ c.transactions) : eventsOf sdk (wrapTransaction tx) = [] := by
  by_contra hne
  obtain ⟨groups, hflatten, hlengths, howners⟩ := hrefs.owners
  have hlength : (eventsOf sdk (wrapTransaction tx)).length ∈ groups.map List.length := by
    rw [hlengths]
    exact List.mem_map.mpr ⟨tx, htx, rfl⟩
  obtain ⟨group, hgroup, hlength⟩ := List.mem_map.mp hlength
  obtain ⟨evt, hevt⟩ : ∃ evt, evt ∈ group :=
    List.exists_mem_of_length_pos (by rw [hlength]; exact List.length_pos_of_ne_nil hne)
  obtain ⟨entry, hentry, howner⟩ := exists_owner howners hgroup
  -- the entry refers to its block, the transaction of the event does not
  obtain ⟨referenced, hblock, -⟩ := hrefs.transactions entry hentry
  obtain ⟨owner, htransaction, hnull⟩ := transaction_of_event hflatten hgroup hevt
  rw [howner evt hevt, Value.obj.injEq] at htransaction
  rw [htransaction, hnull] at hblock
  cases hblock

/-- **When the back references are as promised.** For a block assembled from `c`, exactly when none
of its transactions bears an event: the transaction an event refers to has no block. -/
theorem backReferences_iff (sdk : Sdk) (lodash : Lodash) (hlodash : lodash.Documented)
    (height : ℕ) (hashes : List String) (c : BlockContent) (ib : IBlock)
    (hfetch : Steps (getAndWrapBlock sdk lodash height) (fetchTrace height hashes c) (.ret ib)) :
    BackReferences sdk c ib.block ↔ ∀ tx ∈ c.transactions, ¬ BearsEvents sdk tx := by
  obtain ⟨hashes', c', htrace, hblock⟩ := returns_fetchBlock_iff.mp hfetch
  obtain ⟨-, rfl⟩ := fetchTrace_injective htrace
  obtain ⟨hevents, hlinked⟩ := (assembleContent_eq_ok_iff hlodash).mp hblock
  have hempty : (∀ tx ∈ c.transactions, ¬ BearsEvents sdk tx) ↔
      ∀ tx ∈ c.transactions, eventsOf sdk (wrapTransaction tx) = [] := by
    refine forall₂_congr fun tx htx => ?_
    rw [eventsOf_eq_nil_iff (hevents tx htx), bearsEvents_wrapTransaction]
  rw [hempty, hlinked]
  constructor
  · exact fun hrefs tx htx => eventsOf_eq_nil_of_backReferences hrefs htx
  · intro hnone
    refine ⟨refersTo_of_linked, fun events hevents' => ?_, refersTo_of_linked,
      c.transactions.map fun _ => [], ?_, ?_, ?_⟩
    · cases hevents'
      exact refersTo_of_linked
    · have hflat : (c.transactions.map wrapTransaction).flatMap (eventsOf sdk) = [] := by
        rw [List.flatMap_eq_nil_iff, List.forall_mem_map]
        exact hnone
      have hgroups : (c.transactions.map fun _ => ([] : List Obj)).flatten = [] := by simp
      rw [hgroups]
      simp [ConcordiumBlock.linkTo, earlyContent, earlyBlock, hflat]
    · rw [List.map_map]
      exact List.map_congr_left fun tx htx => by simp [hnone tx htx]
    · rw [ConcordiumBlock.linkTo, earlyContent, earlyBlock, List.map_map, List.forall₂_map_left_iff,
        List.forall₂_map_right_iff, List.forall₂_same]
      simp

/-- A block whose only transaction bears no events. -/
def creationBlock : BlockContent where
  info := ⟨"b3", "b2", 3, 750, 807, []⟩
  finalizationSummary := .null
  transactions := [[("hash", .str "t3"), ("type", .str "accountCreation")]]
  specialEvents := [[("tag", .str "blockReward")]]

theorem backReferences_creationBlock :
    BackReferences Sdk.reference creationBlock
      ((earlyContent Sdk.reference creationBlock).linkTo
        (earlyContent Sdk.reference creationBlock)) := by
  refine (backReferences_iff Sdk.reference Lodash.reference Lodash.reference_documented 3 ["b3"]
    creationBlock ⟨_⟩ (returns_fetchBlock_iff.mpr ⟨_, _, rfl, rfl⟩)).mpr ?_
  intro tx htx hbears
  obtain rfl := List.mem_singleton.mp htx
  exact absurd (Value.str.inj hbears.1) (by decide)

/-- The transaction of a transfer event has no block. -/
theorem not_backReferences_transferBlock :
    Steps (getAndWrapBlock Sdk.reference Lodash.reference 9) (fetchTrace 9 ["b9"] transferBlock)
        (.ret ⟨transferBlockAssembled⟩) ∧
      ¬ BackReferences Sdk.reference transferBlock transferBlockAssembled := by
  refine ⟨returns_fetchBlock_iff.mpr ⟨_, _, rfl, rfl⟩, fun hrefs => ?_⟩
  have hnil := eventsOf_eq_nil_of_backReferences hrefs List.mem_cons_self
  cases hnil

end SubqlConcordium
