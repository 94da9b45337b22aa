import SubqlConcordium.FetchBlocks
import SubqlConcordium.Interaction.Outcome
import Mathlib.Data.List.Infix

/-!
# How fetching ends

Nodes refuse requests, and a connection sorts what comes out of a fetch by the text of its message:
time-outs, lost connections, rate limits, and all the rest. A fetch has to hand on what it was
refused with for this to mean anything. It does, at once, and the one error of its own, of a
transaction whose events are no list, is not taken for trouble with the connection.

Nothing is assumed of the node, which may change in any way between two requests.

## The five requests

A fetch asks for the hashes at the height, the info of the first, the finalization summary, the
transactions and the special events, in this order and one at a time. `FetchState` is that list,
each request with the replies before it. At any time a fetch is waiting, has been refused, or has
assembled what it was given as best it could; nothing else can be the case, whatever the node does
meanwhile.

## Main definitions

* `ApiConnectionError`, `ConcordiumApiConnection.handleError` — how errors are sorted
* `fetchContent` — the requests of a fetch
* `FetchState` — where a fetch stands, by what it was told

## Main results

* `fetchBlock_eq` — a fetch is its requests, and then the assembly
* `fetchState_of_steps` — where a fetch stands after any replies
* `fetch_outcome` — the same in any interleaving, and how the error is sorted
-/

namespace SubqlConcordium

open Js Interaction

/-! ### Sorting errors -/

/-- The errors of node-core that `handleError` makes. The last one is an `ApiConnectionError` with
`ApiErrorType.Default`. -/
inductive ApiConnectionError where
  | timeoutError (e : JsError)
  | disconnectionError (e : JsError)
  | rateLimitError (e : JsError)
  | default (name message : String)
  deriving DecidableEq

/-- `message.toLowerCase().includes(word)`, for the words that are looked for. Only ASCII capitals
lower to their letters, but for the dotted capital `i`, which has its dot put after it. -/
def includes (message word : String) : Bool :=
  word.toList <:+: message.toList.map Char.toLower

def ConcordiumApiConnection.handleError (e : JsError) : ApiConnectionError :=
  if includes e.message "timeout" then .timeoutError e
  else if includes e.message "disconnected" then .disconnectionError e
  else if includes e.message "ratelimit" then .rateLimitError e
  else .default e.name e.message

open ConcordiumApiConnection

section

variable (sdk : Sdk) (lodash : Lodash)

/-! ### The requests of a fetch -/

/-- What `getAndWrapBlock` asks for. -/
def fetchContent (height : ℕ) : NodeProc BlockContent := do
  let hashes : List String ← request (.getBlocksAtHeight height)
  let info ← getBlockByHash hashes.head?
  let finalizationSummary : Value ← request (.getBlockFinalizationSummary info.blockHash)
  let transactions : List Obj ← request (.getBlockTransactionEvents info.blockHash)
  let specialEvents : List Obj ← request (.getBlockSpecialEvents info.blockHash)
  return ⟨info, finalizationSummary, transactions, specialEvents⟩

/-- **A fetch is its requests, and then the assembly.** -/
theorem fetchBlock_eq (height : ℕ) :
    fetchBlock sdk lodash height = fetchContent height >>= fun c =>
      Proc.ofExcept ((assembleContent sdk lodash c).map IBlock.mk) := by
  have hmap : ∀ x : Except JsError ConcordiumBlock,
      ((Proc.ofExcept x : NodeProc ConcordiumBlock) >>= fun block => Proc.ret (IBlock.mk block)) =
        Proc.ofExcept (x.map IBlock.mk) := by
    rintro (e | block) <;> rfl
  simp only [fetchBlock, getAndWrapBlock, getAndWrapTransactions, getAndWrapSpecialEvents,
    fetchContent, bind_assoc, Proc.pure_eq, Proc.ret_bind, assembleContent, hmap]

variable {sdk lodash} {height : ℕ} {tr : List (Event Rpc Rpc.Reply JsError)} {c : BlockContent}
  {e : JsError}

theorem relays_fetchContent (height : ℕ) : (fetchContent height).Relays :=
  (relays_await _).bind fun _ => (relays_await _).bind fun _ => (relays_await _).bind fun _ =>
    (relays_await _).bind fun _ => (relays_await _).bind fun _ => trivial

theorem atMost_fetchContent (height : ℕ) : (fetchContent height).AtMost 5 := by
  have h : (fetchContent height).AtMost (1 + (1 + (1 + (1 + (1 + 0))))) :=
    (atMost_await _).bind fun _ => (atMost_await _).bind fun _ => (atMost_await _).bind fun _ =>
      (atMost_await _).bind fun _ => (atMost_await _).bind fun _ => atMost_ofExcept (.ok _)
  exact h

theorem returns_fetchContent_iff :
    Steps (fetchContent height) tr (.ret c) ↔ ∃ hashes, tr = fetchTrace height hashes c := by
  simp only [fetchContent, getBlockByHash, returns_bind_iff, returns_await_iff, Proc.pure_eq,
    steps_ret_iff]
  constructor
  · rintro ⟨_, hashes, _, rfl, rfl, _, info, _, rfl, rfl, _, summary, _, rfl, rfl, _, txs, _, rfl,
      rfl, _, evs, _, rfl, rfl, rfl, hc⟩
    cases hc
    exact ⟨hashes, rfl⟩
  · rintro ⟨hashes, rfl⟩
    exact ⟨_, hashes, _, rfl, rfl, _, c.info, _, rfl, rfl, _, c.finalizationSummary, _, rfl, rfl, _,
      c.transactions, _, rfl, rfl, _, c.specialEvents, _, rfl, rfl, rfl, rfl⟩

/-! ### The errors of the assembly -/

theorem exists_of_assembleContent_eq_error (h : assembleContent sdk lodash c = .error e) :
    ∃ tx ∈ c.transactions, wrapTransactionEvents sdk (wrapTransaction tx) = .error e := by
  rw [assembleContent, assembleBlock] at h
  rcases bind_eq_error_iff.mp h with hevents | ⟨_, -, hrest⟩
  · obtain ⟨tx, htx, herror⟩ := exists_of_mapM_eq_error hevents
    obtain ⟨tx, htx', rfl⟩ := List.mem_map.mp htx
    exact ⟨tx, htx', herror⟩
  · cases hrest

/-- A transaction has an error if its events are to be listed and are no list. -/
theorem iterate_of_wrapTransactionEvents_eq_error {tx : Obj}
    (h : wrapTransactionEvents sdk (wrapTransaction tx) = .error e) :
    (tx.prop "events").iterate = .error e := by
  have hprop : (wrapTransaction tx).prop "events" = tx.prop "events" :=
    Obj.prop_put_of_ne _ _ (by decide)
  rw [wrapTransactionEvents] at h
  split_ifs at h with htype
  rcases bind_eq_error_iff.mp h with hpushed | ⟨_, -, hrest⟩
  · rw [← hprop]
    rw [pushedEvents] at hpushed
    split at hpushed <;> first | exact hpushed | cases hpushed
  · cases hrest

theorem handleError_of_iterate_eq_error {v : Value} (h : v.iterate = .error e) :
    handleError e = .default e.name e.message := by
  rw [Value.iterate_eq_error h]
  decide +kernel

/-! ### Where a fetch stands -/

variable (sdk lodash height) in
/-- **Where a fetch stands**, by what it was told. It waits for one of its five requests, none of
which was refused so far, or was refused one, or has made all of them and assembled the block. -/
inductive FetchState : List (Event Rpc Rpc.Reply JsError) → NodeProc IBlock → Prop
  | waiting {tr : List (Event Rpc Rpc.Reply JsError)} {q : Rpc}
      {k : Except JsError q.Reply → NodeProc IBlock} (answered : ∀ ev ∈ tr, ∃ r, ev.2 = .ok r)
      (few : tr.length < 5) : FetchState tr (.ask q k)
  | refused {tr : List (Event Rpc Rpc.Reply JsError)} {q : Rpc} {e : JsError}
      (answered : ∀ ev ∈ tr, ∃ r, ev.2 = .ok r) (few : tr.length < 5) :
      FetchState (tr ++ [⟨q, .error e⟩]) (.fail e)
  | assembled (hashes : List String) (c : BlockContent) :
      FetchState (fetchTrace height hashes c)
        (Proc.ofExcept ((assembleContent sdk lodash c).map IBlock.mk))

/-- **After any replies**, a fetch is in one of these states. -/
theorem fetchState_of_steps {p : NodeProc IBlock} (h : Steps (fetchBlock sdk lodash height) tr p) :
    FetchState sdk lodash height tr p := by
  rw [fetchBlock_eq] at h
  rcases steps_bind_iff.mp h with ⟨p', hp', rfl⟩ | ⟨tr₁, c, tr₂, rfl, hret, hrest⟩
  · -- it is still at the requests, which end at the first that is refused
    have hlength := (hp'.atMost (atMost_fetchContent height)).1
    rcases (relays_fetchContent height).propagates.steps hp' with
      hok | ⟨tr₁, q, e, rfl, hok, rfl⟩
    · cases p' with
      | ret c =>
        obtain ⟨hashes, rfl⟩ := returns_fetchContent_iff.mp hp'
        exact .assembled hashes c
      | fail e =>
        obtain ⟨tr₁, q, rfl, -⟩ := (relays_fetchContent height).fails hp'
        obtain ⟨r, hr⟩ := hok ⟨q, .error e⟩ (by simp)
        cases hr
      | ask q k => exact .waiting hok (hp'.length_lt (atMost_fetchContent height))
    · rw [List.length_append, List.length_singleton] at hlength
      exact .refused hok hlength
  · -- they were all answered
    obtain ⟨hashes, rfl⟩ := returns_fetchContent_iff.mp hret
    generalize hx : (assembleContent sdk lodash c).map IBlock.mk = x at hrest
    obtain ⟨rfl, rfl⟩ : tr₂ = [] ∧ p = Proc.ofExcept x := by
      cases x with
      | ok ib => exact steps_ret_iff.mp hrest
      | error e => exact steps_fail_iff.mp hrest
    rw [List.append_nil, ← hx]
    exact .assembled hashes c

end

/-- **How fetching ends.** In any interleaving of a batch, while the node changes in any way at all,
each fetch makes no more than its five requests, and none after one that was refused. When it
fails, the error is what the last request was refused with. The only other error is of a
transaction whose events are no list; it comes after all requests, and `handleError` does not take
it for a time-out, a lost connection or a rate limit. -/
theorem fetch_outcome {ι : Type} [DecidableEq ι] (sdk : Sdk) (lodash : Lodash)
    (evolve : NodeState → NodeState → Prop) (n : NodeState) (bufferBlocks : ι → ℕ)
    (pool : Pool NodeState ι Rpc Rpc.Reply JsError IBlock)
    (hreach : Pool.Reachable evolve NodeState.answer
      (Pool.start n (fetchBlocks sdk lodash bufferBlocks)) pool) (i : ι) :
    FetchState sdk lodash (bufferBlocks i) (pool.history i) (pool.current i) ∧
      ∀ e, pool.current i = .fail e →
        (∃ tr q, pool.history i = tr ++ [⟨q, .error e⟩]) ∨
          handleError e = .default e.name e.message ∧
            ∃ hashes c, pool.history i = fetchTrace (bufferBlocks i) hashes c ∧
              ∃ tx ∈ c.transactions, (tx.prop "events").iterate = .error e := by
  have hstate := fetchState_of_steps (Pool.Reachable.steps hreach i)
  refine ⟨hstate, fun e hfail => ?_⟩
  generalize pool.history i = tr at hstate ⊢
  rw [hfail] at hstate
  generalize hp : (Proc.fail e : NodeProc IBlock) = p at hstate
  cases hstate with
  | waiting => cases hp
  | @refused tr q e' =>
    cases hp
    exact .inl ⟨tr, q, rfl⟩
  | assembled hashes c =>
    cases hassembled : assembleContent sdk lodash c with
    | ok block =>
      rw [hassembled] at hp
      cases hp
    | error e' =>
      rw [hassembled] at hp
      cases hp
      obtain ⟨tx, htx, herror⟩ := exists_of_assembleContent_eq_error hassembled
      have hevents := iterate_of_wrapTransactionEvents_eq_error herror
      exact .inr ⟨handleError_of_iterate_eq_error hevents, hashes, c, rfl, tx, htx, hevents⟩

def busyNode : NodeState :=
  { NodeState.single transferBlock with
    failure := fun _ => some ⟨"RpcError", "Request Timeout", some "DEADLINE_EXCEEDED"⟩ }

theorem busyNode_outcome :
    ∃ (pool : Pool NodeState Unit Rpc Rpc.Reply JsError IBlock) (e : JsError),
      pool.current () = .fail e ∧ handleError e = .timeoutError e ∧
        ∃ tr q, pool.history () = tr ++ [⟨q, .error e⟩] := by
  have hrun : Steps (fetchBlocks Sdk.reference Lodash.reference (fun _ : Unit => 9) ())
      [⟨.getBlocksAtHeight 9, busyNode.answer (.getBlocksAtHeight 9)⟩]
      (.fail ⟨"RpcError", "Request Timeout", some "DEADLINE_EXCEEDED"⟩) :=
    .ask (.refl _)
  have hstart : Pool.Reachable (fun _ _ => True) NodeState.answer
      (Pool.start busyNode (fetchBlocks Sdk.reference Lodash.reference fun _ : Unit => 9))
      (Pool.start busyNode (fetchBlocks Sdk.reference Lodash.reference fun _ => 9)) :=
    .refl
  obtain ⟨pool, hreach, -, hfail⟩ := Pool.Reachable.alone hstart () hrun (by
    simp only [List.mem_singleton, forall_eq]
    rfl)
  refine ⟨pool, _, hfail, by decide, ?_⟩
  obtain ⟨-, houtcome⟩ := fetch_outcome Sdk.reference Lodash.reference (fun _ _ => True) busyNode
    (fun _ : Unit => 9) pool hreach ()
  rcases houtcome _ hfail with hrefused | ⟨hsorted, -⟩
  · exact hrefused
  · cases hsorted

end SubqlConcordium
