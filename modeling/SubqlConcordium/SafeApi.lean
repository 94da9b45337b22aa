import SubqlConcordium.Interaction.Process
import SubqlConcordium.Js.Value

/-!
# The client that handlers get

`SafeConcordiumGRPCClient` overrides the methods of `ConcordiumGRPCClient` so that a handler only
sees the state of the block it is called for. A method either refuses, or calls the parent's method
with the height or hash of that block. Which of the two, and with what arguments, is its `Body`;
calling it is `directCall`.

A method hands back a promise or an iterable, as declared. A promise makes its request when the
method is called. An iterable is handed back before anything is read from it, and reading its
elements is the caller's business: what a caller awaits is therefore an `Awaited`, which still has
to be read where it is an iterable. Keeping the two apart matters, since a `try` around the call
does not see what happens while the elements are read.

Arguments are untyped, as the proxy in front of the client passes on whatever it is given, and a
missing one is `undefined`. `blockParameter?` says independently where the parent's methods take
their block.

## Main definitions

* `Argument`, `Method`, `Body` — what is called with what
* `SafeConcordiumGRPCClient` and its methods, `body` — the overriding methods
* `ApiRequest`, `ApiProc` — what a call may have to wait for
* `ResultType`, `Awaited`, `Result` — what a call hands back, and what it comes to
* `directCall`, `awaitResult` — a call, on a stack of limited depth, and waiting for its result
* `blockParameter?`, `pinnedArgs?` — the call that a method stands for

## Main results

* `body_eq` — every method but one refuses, or makes the call it stands for
* `awaitResult_of_throws`, `awaitResult_of_callSuper` — what comes of either
-/

namespace SubqlConcordium

open Js Interaction

/-- An argument: a value, or a reference that is only passed on, such as an abort signal. -/
inductive Argument where
  | value (v : Value)
  | reference (n : ℕ)

namespace Argument

def undefined : Argument := .value .undefined

def str (s : String) : Argument := .value (.str s)

def bigint (n : ℤ) : Argument := .value (.bigint n)

theorem bigint_injective : Function.Injective bigint := by
  rintro m n h
  simpa [bigint] using h

end Argument

/-- The methods that `SafeConcordiumGRPCClient` declares. The parent's go by the same names. -/
inductive Method where
  | getNextAccountNonce
  | getCryptographicParameters
  | getAccountInfo
  | getBlockItemStatus
  | getConsensusStatus
  | getModuleSource
  | getInstanceInfo
  | invokeContract
  | sendAccountTransaction
  | sendCredentialDeploymentTransaction
  | getBlockChainParameters
  | getPoolInfo
  | getPassiveDelegationInfo
  | getTokenomicsInfo
  | getFinalizedBlocks
  | getBlocks
  | waitForTransactionFinalization
  | getAccountList
  | getModuleList
  | getAncestors
  | getInstanceState
  | instanceStateLookup
  | getIdentityProviders
  | getAnonymityRevokers
  | getBlocksAtHeight
  | getBlockInfo
  | getBakerList
  | getPoolDelegators
  | getPoolDelegatorsRewardPeriod
  | getPassiveDelegators
  | getPassiveDelegatorsRewardPeriod
  | getBranches
  | getElectionInfo
  | getAccountNonFinalizedTransactions
  | getBlockTransactionEvents
  | getNextUpdateSequenceNumbers
  | shutdown
  | peerConnect
  | peerDisconnect
  | getBannedPeers
  | banPeer
  | unbanPeer
  | dumpStart
  | dumpStop
  | getNodeInfo
  | getPeersInfo
  | getBlockSpecialEvents
  | getBlockPendingUpdates
  | getBlockFinalizationSummary
  | getFinalizedBlocksFrom
  | findEarliestFinalized
  | findInstanceCreation
  | findFirstFinalizedBlockNoLaterThan
  deriving DecidableEq

/-- What a method does when it is called. -/
inductive Body where
  | throws (e : JsError)
  /-- `return super.method(...args)`. -/
  | callSuper (method : Method) (args : List Argument)
  /-- `return this.method(...args)`. -/
  | callThis (method : Method) (args : List Argument)

/-- The error of a method that refuses. -/
def notSupported (name : String) : JsError :=
  plainError ("Method `" ++ name ++ "` not supported.")

/-- A method that refuses. -/
def unsupported (name : String) : Body := .throws (notSupported name)

/-- `SafeConcordiumGRPCClient`: a connection, given by its endpoint, and a block. -/
structure SafeConcordiumGRPCClient where
  transport : String
  blockHeight : ℕ
  blockHash : String

namespace SafeConcordiumGRPCClient

/-! ### The methods -/

variable (client : SafeConcordiumGRPCClient)

def getNextAccountNonce (_accountAddress : Argument) : Body := unsupported "getNextAccountNonce"

def getCryptographicParameters : Body :=
  .callSuper .getCryptographicParameters [.str client.blockHash]

def getAccountInfo (accountIdentifier : Argument) : Body :=
  .callSuper .getAccountInfo [accountIdentifier, .str client.blockHash]

def getBlockItemStatus (_transactionHash : Argument) : Body := unsupported "getBlockItemStatus"

def getConsensusStatus : Body := unsupported "getConsensusStatus"

def getModuleSource (moduleRef : Argument) : Body :=
  .callSuper .getModuleSource [moduleRef, .str client.blockHash]

def getInstanceInfo (contractAddress : Argument) : Body :=
  .callSuper .getInstanceInfo [contractAddress, .str client.blockHash]

def invokeContract (context : Argument) : Body :=
  .callSuper .invokeContract [context, .str client.blockHash]

def sendAccountTransaction (_transaction _signature : Argument) : Body :=
  unsupported "sendAccountTransaction"

def sendCredentialDeploymentTransaction
    (_credentialDeploymentTransaction _signatures : Argument) : Body :=
  unsupported "sendCredentialDeploymentTransaction"

def getBlockChainParameters : Body := .callSuper .getBlockChainParameters [.str client.blockHash]

def getPoolInfo (bakerId : Argument) : Body :=
  .callSuper .getPoolInfo [bakerId, .str client.blockHash]

def getPassiveDelegationInfo : Body := .callSuper .getPassiveDelegationInfo [.str client.blockHash]

def getTokenomicsInfo : Body := .callSuper .getTokenomicsInfo [.str client.blockHash]

def getFinalizedBlocks (_abortSignal : Argument) : Body := unsupported "getFinalizedBlocks"

def getBlocks (_abortSignal : Argument) : Body := unsupported "getBlocks"

def waitForTransactionFinalization (_transactionHash _timeoutTime : Argument) : Body :=
  unsupported "getBlocks"

def getAccountList (_blockHash abortSignal : Argument) : Body :=
  .callSuper .getAccountList [.str client.blockHash, abortSignal]

def getModuleList (_blockHash abortSignal : Argument) : Body :=
  .callSuper .getModuleList [.str client.blockHash, abortSignal]

def getAncestors (maxAmountOfAncestors _blockHash abortSignal : Argument) : Body :=
  .callSuper .getAncestors [maxAmountOfAncestors, .str client.blockHash, abortSignal]

def getInstanceState (contractAddress _blockHash abortSignal : Argument) : Body :=
  .callSuper .getInstanceState [contractAddress, .str client.blockHash, abortSignal]

def instanceStateLookup (contractAddress key : Argument) : Body :=
  .callSuper .instanceStateLookup [contractAddress, key, .str client.blockHash]

def getIdentityProviders (_blockHash abortSignal : Argument) : Body :=
  .callSuper .getIdentityProviders [.str client.blockHash, abortSignal]

def getAnonymityRevokers (_blockHash abortSignal : Argument) : Body :=
  .callThis .getAnonymityRevokers [.str client.blockHash, abortSignal]

def getBlocksAtHeight : Body := .callSuper .getBlocksAtHeight [.bigint client.blockHeight]

def getBlockInfo : Body := .callSuper .getBlockInfo [.str client.blockHash]

def getBakerList (_blockHash abortSignal : Argument) : Body :=
  .callSuper .getBakerList [.str client.blockHash, abortSignal]

def getPoolDelegators (baker _blockHash abortSignal : Argument) : Body :=
  .callSuper .getPoolDelegators [baker, .str client.blockHash, abortSignal]

def getPoolDelegatorsRewardPeriod (baker _blockHash abortSignal : Argument) : Body :=
  .callSuper .getPoolDelegatorsRewardPeriod [baker, .str client.blockHash, abortSignal]

def getPassiveDelegators (_blockHash abortSignal : Argument) : Body :=
  .callSuper .getPassiveDelegators [.str client.blockHash, abortSignal]

def getPassiveDelegatorsRewardPeriod (_blockHash abortSignal : Argument) : Body :=
  .callSuper .getPassiveDelegatorsRewardPeriod [.str client.blockHash, abortSignal]

def getBranches : Body := unsupported "getBranches"

def getElectionInfo : Body := .callSuper .getElectionInfo [.str client.blockHash]

def getAccountNonFinalizedTransactions (_accountAddress _abortSignal : Argument) : Body :=
  unsupported "getAccountNonFinalizedTransactions"

def getBlockTransactionEvents (_blockHash abortSignal : Argument) : Body :=
  .callSuper .getBlockTransactionEvents [.str client.blockHash, abortSignal]

def getNextUpdateSequenceNumbers : Body :=
  .callSuper .getNextUpdateSequenceNumbers [.str client.blockHash]

def shutdown : Body := unsupported "shutdown"

def peerConnect (_ip _port : Argument) : Body := unsupported "peerConnect"

def peerDisconnect (_ip _port : Argument) : Body := unsupported "peerDisconnect"

def getBannedPeers : Body := unsupported "getBannedPeers"

def banPeer (_ip : Argument) : Body := unsupported "banPeer"

def unbanPeer (_ip : Argument) : Body := unsupported "unbanPeer"

def dumpStart (_filePath _raw : Argument) : Body := unsupported "dumpStart"

def dumpStop : Body := unsupported "dumpStop"

def getNodeInfo : Body := unsupported "getNodeInfo"

def getPeersInfo : Body := unsupported "getPeerInfo"

def getBlockSpecialEvents (_blockHash abortSignal : Argument) : Body :=
  .callSuper .getBlockSpecialEvents [.str client.blockHash, abortSignal]

def getBlockPendingUpdates (_blockHash abortSignal : Argument) : Body :=
  .callSuper .getBlockPendingUpdates [.str client.blockHash, abortSignal]

def getBlockFinalizationSummary : Body :=
  .callSuper .getBlockFinalizationSummary [.str client.blockHash]

def getFinalizedBlocksFrom (_startHeight _end : Argument) : Body :=
  unsupported "getFinalizedBlocksFrom"

def findEarliestFinalized (_predicate _from _to : Argument) : Body :=
  unsupported "findEarliestFinalized"

def findInstanceCreation (_address _from _to : Argument) : Body :=
  unsupported "findInstanceCreation"

def findFirstFinalizedBlockNoLaterThan (_time _from _to : Argument) : Body :=
  unsupported "findFirstFinalizedBlockNoLaterThan"

/-- The method of a name, applied to the arguments of a call. -/
def body (m : Method) (args : List Argument) : Body :=
  let arg (i : ℕ) : Argument := args.getD i .undefined
  match m with
  | .getNextAccountNonce => getNextAccountNonce (arg 0)
  | .getCryptographicParameters => client.getCryptographicParameters
  | .getAccountInfo => client.getAccountInfo (arg 0)
  | .getBlockItemStatus => getBlockItemStatus (arg 0)
  | .getConsensusStatus => getConsensusStatus
  | .getModuleSource => client.getModuleSource (arg 0)
  | .getInstanceInfo => client.getInstanceInfo (arg 0)
  | .invokeContract => client.invokeContract (arg 0)
  | .sendAccountTransaction => sendAccountTransaction (arg 0) (arg 1)
  | .sendCredentialDeploymentTransaction => sendCredentialDeploymentTransaction (arg 0) (arg 1)
  | .getBlockChainParameters => client.getBlockChainParameters
  | .getPoolInfo => client.getPoolInfo (arg 0)
  | .getPassiveDelegationInfo => client.getPassiveDelegationInfo
  | .getTokenomicsInfo => client.getTokenomicsInfo
  | .getFinalizedBlocks => getFinalizedBlocks (arg 0)
  | .getBlocks => getBlocks (arg 0)
  | .waitForTransactionFinalization => waitForTransactionFinalization (arg 0) (arg 1)
  | .getAccountList => client.getAccountList (arg 0) (arg 1)
  | .getModuleList => client.getModuleList (arg 0) (arg 1)
  | .getAncestors => client.getAncestors (arg 0) (arg 1) (arg 2)
  | .getInstanceState => client.getInstanceState (arg 0) (arg 1) (arg 2)
  | .instanceStateLookup => client.instanceStateLookup (arg 0) (arg 1)
  | .getIdentityProviders => client.getIdentityProviders (arg 0) (arg 1)
  | .getAnonymityRevokers => client.getAnonymityRevokers (arg 0) (arg 1)
  | .getBlocksAtHeight => client.getBlocksAtHeight
  | .getBlockInfo => client.getBlockInfo
  | .getBakerList => client.getBakerList (arg 0) (arg 1)
  | .getPoolDelegators => client.getPoolDelegators (arg 0) (arg 1) (arg 2)
  | .getPoolDelegatorsRewardPeriod => client.getPoolDelegatorsRewardPeriod (arg 0) (arg 1) (arg 2)
  | .getPassiveDelegators => client.getPassiveDelegators (arg 0) (arg 1)
  | .getPassiveDelegatorsRewardPeriod => client.getPassiveDelegatorsRewardPeriod (arg 0) (arg 1)
  | .getBranches => getBranches
  | .getElectionInfo => client.getElectionInfo
  | .getAccountNonFinalizedTransactions => getAccountNonFinalizedTransactions (arg 0) (arg 1)
  | .getBlockTransactionEvents => client.getBlockTransactionEvents (arg 0) (arg 1)
  | .getNextUpdateSequenceNumbers => client.getNextUpdateSequenceNumbers
  | .shutdown => shutdown
  | .peerConnect => peerConnect (arg 0) (arg 1)
  | .peerDisconnect => peerDisconnect (arg 0) (arg 1)
  | .getBannedPeers => getBannedPeers
  | .banPeer => banPeer (arg 0)
  | .unbanPeer => unbanPeer (arg 0)
  | .dumpStart => dumpStart (arg 0) (arg 1)
  | .dumpStop => dumpStop
  | .getNodeInfo => getNodeInfo
  | .getPeersInfo => getPeersInfo
  | .getBlockSpecialEvents => client.getBlockSpecialEvents (arg 0) (arg 1)
  | .getBlockPendingUpdates => client.getBlockPendingUpdates (arg 0) (arg 1)
  | .getBlockFinalizationSummary => client.getBlockFinalizationSummary
  | .getFinalizedBlocksFrom => getFinalizedBlocksFrom (arg 0) (arg 1)
  | .findEarliestFinalized => findEarliestFinalized (arg 0) (arg 1) (arg 2)
  | .findInstanceCreation => findInstanceCreation (arg 0) (arg 1) (arg 2)
  | .findFirstFinalizedBlockNoLaterThan =>
    findFirstFinalizedBlockNoLaterThan (arg 0) (arg 1) (arg 2)

end SafeConcordiumGRPCClient

/-! ### Calls -/

/-- What a call may have to wait for: an API of the connection pool, or a method of the parent's.
A stream is one request; its elements are read by the caller. -/
inductive ApiRequest where
  | unsafeApi
  | grpc (transport : String) (method : Method) (args : List Argument)

/-- An API is known by its endpoint. -/
def ApiRequest.Reply : ApiRequest → Type
  | unsafeApi => String
  | grpc .. => Value

/-- A process that makes such requests. -/
abbrev ApiProc := Proc ApiRequest ApiRequest.Reply JsError

/-- A call that has no frame left on the stack. -/
def stackOverflow : JsError := ⟨"RangeError", "Maximum call stack size exceeded", none⟩

/-- What an `async` method does when it is called, with so many frames left. -/
def invoke : ℕ → SafeConcordiumGRPCClient → Method → List Argument → ApiProc Value
  | 0, _, _, _ => .fail stackOverflow
  | frames + 1, client, m, args =>
    match client.body m args with
    | .throws e => .fail e
    | .callSuper m' args' => Proc.await (ApiRequest.grpc client.transport m' args')
    | .callThis m' args' => invoke frames client m' args'

/-! ### What calls hand back -/

/-- The type a method is declared to return. -/
inductive ResultType where
  | promise
  | asyncIterable
  deriving DecidableEq

/-- The declared type of each method's result. -/
def Method.resultType : Method → ResultType
  | .getFinalizedBlocks | .getBlocks | .getAccountList | .getModuleList | .getAncestors
  | .getInstanceState | .getIdentityProviders | .getAnonymityRevokers | .getBakerList
  | .getPoolDelegators | .getPoolDelegatorsRewardPeriod | .getPassiveDelegators
  | .getPassiveDelegatorsRewardPeriod | .getAccountNonFinalizedTransactions
  | .getBlockTransactionEvents | .getBlockSpecialEvents | .getBlockPendingUpdates
  | .getFinalizedBlocksFrom => .asyncIterable
  | _ => .promise

/-- What a promise can be fulfilled with: a value, or an iterable, with the process that reads all
its elements. -/
inductive Awaited where
  | value (v : Value)
  | iterable (elements : ApiProc Value)

/-- What a call hands back. -/
inductive Result where
  | promise (p : ApiProc Awaited)
  | asyncIterable (elements : ApiProc Value)

/-- The call of a method that is not `async`, with so many frames left. It hands the parent's stream
back, or throws. -/
def streamCall : ℕ → SafeConcordiumGRPCClient → Method → List Argument → Except JsError Result
  | 0, _, _, _ => .error stackOverflow
  | frames + 1, client, m, args =>
    match client.body m args with
    | .throws e => .error e
    | .callSuper m' sent =>
      .ok (.asyncIterable (Proc.await (ApiRequest.grpc client.transport m' sent)))
    | .callThis m' sent => streamCall frames client m' sent

/-- `client.m(...args)`. An `async` method never throws, its promise is rejected. -/
def directCall (frames : ℕ) (client : SafeConcordiumGRPCClient) (m : Method)
    (args : List Argument) : Except JsError Result :=
  match m.resultType with
  | .promise => .ok (.promise (Awaited.value <$> invoke frames client m args))
  | .asyncIterable => streamCall frames client m args

/-- `await result`. What is not a promise is its own value. -/
def awaitResult : Except JsError Result → ApiProc Awaited
  | .error e => .fail e
  | .ok (.promise p) => p
  | .ok (.asyncIterable elements) => .ret (.iterable elements)

/-- A value as it is, an iterable read to its end. -/
def Awaited.read : Awaited → ApiProc Value
  | value v => .ret v
  | iterable elements => elements

/-- Hand a request over: wait for it, or leave it to the caller. -/
def ResultType.handOver : ResultType → ApiProc Value → ApiProc Awaited
  | .promise, request => Awaited.value <$> request
  | .asyncIterable, request => .ret (.iterable request)

/-- Whoever reads what is handed over makes the request. -/
@[simp] theorem handOver_read (r : ResultType) (request : ApiProc Value) :
    (r.handOver request >>= Awaited.read) = request := by
  cases r with
  | promise =>
    rw [ResultType.handOver, bind_map_left]
    exact bind_pure request
  | asyncIterable => rfl

section

variable {frames : ℕ} {client : SafeConcordiumGRPCClient} {m m' : Method}
  {args sent : List Argument}

theorem awaitResult_of_throws {e : JsError} (hbody : client.body m args = .throws e) :
    awaitResult (directCall (frames + 1) client m args) = .fail e := by
  cases hresult : m.resultType with
  | promise =>
    simp only [directCall, hresult, invoke, hbody]
    rfl
  | asyncIterable => simp only [directCall, hresult, streamCall, hbody, awaitResult]

/-- A method that calls the parent's hands that request over. -/
theorem awaitResult_of_callSuper (hbody : client.body m args = .callSuper m' sent) :
    awaitResult (directCall (frames + 1) client m args) =
      m.resultType.handOver (Proc.await (ApiRequest.grpc client.transport m' sent)) := by
  cases hresult : m.resultType with
  | promise => simp only [directCall, hresult, invoke, hbody, awaitResult, ResultType.handOver]
  | asyncIterable =>
    simp only [directCall, hresult, streamCall, hbody, awaitResult, ResultType.handOver]

/-- One method calls itself until the stack is exhausted. -/
theorem streamCall_getAnonymityRevokers :
    streamCall frames client .getAnonymityRevokers args = .error stackOverflow := by
  induction frames generalizing args with
  | zero => rfl
  | succ frames ih => exact ih

end

/-! ### The calls that methods stand for -/

/-- Where a method of the parent takes the hash of the block whose state it reads: after how many
other parameters, and whether an abort signal follows. -/
structure BlockParameter where
  leading : ℕ
  abortable : Bool

/-- The methods of the parent that read the state of a block given by its hash. -/
def blockParameter? : Method → Option BlockParameter
  | .getCryptographicParameters | .getBlockChainParameters | .getPassiveDelegationInfo
  | .getTokenomicsInfo | .getBlockInfo | .getElectionInfo | .getNextUpdateSequenceNumbers
  | .getBlockFinalizationSummary => some ⟨0, false⟩
  | .getAccountInfo | .getModuleSource | .getInstanceInfo | .invokeContract
  | .getPoolInfo => some ⟨1, false⟩
  | .instanceStateLookup => some ⟨2, false⟩
  | .getAccountList | .getModuleList | .getIdentityProviders | .getAnonymityRevokers
  | .getBakerList | .getPassiveDelegators | .getPassiveDelegatorsRewardPeriod
  | .getBlockTransactionEvents | .getBlockSpecialEvents
  | .getBlockPendingUpdates => some ⟨0, true⟩
  | .getAncestors | .getInstanceState | .getPoolDelegators
  | .getPoolDelegatorsRewardPeriod => some ⟨1, true⟩
  | _ => none

/-- The arguments with the block replaced: those before it, its hash, and the abort signal. -/
def BlockParameter.pin (p : BlockParameter) (hash : String) (args : List Argument) :
    List Argument :=
  (List.range p.leading).map (fun i => args.getD i .undefined) ++ .str hash ::
    if p.abortable then [args.getD (p.leading + 1) .undefined] else []

/-- The arguments that the parent's method of the same name is due, if it is to be called at all. -/
def pinnedArgs? (height : ℕ) (hash : String) (m : Method) (args : List Argument) :
    Option (List Argument) :=
  match m with
  | .getBlocksAtHeight => some [.bigint height]
  | m => (blockParameter? m).map fun p => p.pin hash args

/-- Arguments that differ in the block at most. -/
def SameButBlock (m : Method) (args args' : List Argument) : Prop :=
  ∀ p, blockParameter? m = some p → ∀ i, i ≠ p.leading →
    args.getD i .undefined = args'.getD i .undefined

theorem pinnedArgs?_congr {height : ℕ} {hash : String} {m : Method} {args args' : List Argument}
    (h : SameButBlock m args args') :
    pinnedArgs? height hash m args = pinnedArgs? height hash m args' := by
  have hpin : ∀ p, blockParameter? m = some p → p.pin hash args = p.pin hash args' := by
    intro p hp
    rw [BlockParameter.pin, BlockParameter.pin, h p hp (p.leading + 1) (by omega),
      List.map_congr_left fun i hi => h p hp i (List.mem_range.mp hi).ne]
  unfold pinnedArgs?
  split
  · rfl
  · exact Option.map_congr hpin

/-- Only one method depends on the height. -/
theorem pinnedArgs?_height {height height' : ℕ} {hash : String} {m : Method} {args : List Argument}
    (h : m = .getBlocksAtHeight → height = height') :
    pinnedArgs? height hash m args = pinnedArgs? height' hash m args := by
  unfold pinnedArgs?
  split
  · rw [h rfl]
  · rfl

/-- **Every method but one** refuses, or calls the parent's method of the same name with the
client's block. -/
theorem body_eq {m : Method} (hm : m ≠ .getAnonymityRevokers) :
    (∃ name, ∀ (client : SafeConcordiumGRPCClient) args, client.body m args = unsupported name) ∨
      ∀ (client : SafeConcordiumGRPCClient) args, ∃ sent,
        pinnedArgs? client.blockHeight client.blockHash m args = some sent ∧
          client.body m args = .callSuper m sent := by
  cases m <;> first
    | exact Or.inl ⟨_, fun _ _ => rfl⟩
    | exact Or.inr fun _ _ => ⟨_, rfl, rfl⟩
    | exact absurd rfl hm

end SubqlConcordium
