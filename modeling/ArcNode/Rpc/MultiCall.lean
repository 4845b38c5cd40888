/-
**`eth_multiCall`: many calls in one request.**

All requests of a batch share one database and one loop (`callOne`). A call is simulated and never
committed, so what it leaves in the database is seen by nobody (`ReadsOnly`), and every result is
the one of the request sent alone. A request that fails before it is executed has no result at all:
the error leaves the loop, and the results of the other requests go with it
(`failing_request_takes_the_batch`). Exactly then the requests are not independent
(**`requests_independent_iff`**).
-/

import ArcNode.Evm.State

namespace ArcNode.Rpc

open ArcNode.Lib ArcNode.Types ArcNode.Evm

/-! ### Results -/

inductive MultiCallErrorCode where
  | success
  | codeTxArgs
  | nativeMethodNotFound
  | nativeMethodStateError
  | evmCancelled
  | evmReverted
  | evmFastFailed

def MultiCallErrorCode.asI32 : MultiCallErrorCode → ℤ
  | success => 0
  | codeTxArgs => -40000
  | nativeMethodNotFound => -40001
  | nativeMethodStateError => -40011
  | evmCancelled => -40013
  | evmReverted => -40014
  | evmFastFailed => -40015

/-- `SingleCallResult`, without the measured time. -/
structure SingleCallResult where
  code : ℤ
  err : String
  fromCache : Bool
  result : List Byte
  gasUsed : ℤ
  deriving DecidableEq

/-- A result with everything but its code and text left at the default. -/
def SingleCallResult.failed (code : MultiCallErrorCode) (err : String) : SingleCallResult :=
  ⟨code.asI32, err, false, [], 0⟩

/-- The result of a call that succeeded without gas. -/
def SingleCallResult.returned (result : List Byte) : SingleCallResult :=
  ⟨MultiCallErrorCode.success.asI32, "", false, result, 0⟩

/-- What a request gets that comes after a failed one. -/
def SingleCallResult.skipped : SingleCallResult := .failed .evmFastFailed "skipped due to fast_fail"

structure MultiCallStats where
  blockNum : U64
  blockHash : BlockHash
  blockTime : U64
  success : Bool
  cacheEnabled : Bool
  deriving DecidableEq

structure MultiCallResp where
  results : List SingleCallResult
  stats : MultiCallStats
  deriving DecidableEq

/-! ### The native token -/

def nativeTokenAddress : Address := 0xeeeeeeeeeeeeeeeeeeeeeeeeeeeeeeeeeeeeeeee

def ethErc20Handle (basicRef : Address → Except String (Option U256)) :
    Option (List Byte) → SingleCallResult
  | none => .failed .codeTxArgs "tx input missing"
  | some data =>
    if data.length < 4 then .failed .codeTxArgs "tx input less than 4 bytes"
    else if data.take 4 = [0x70, 0xa0, 0x82, 0x31] then
      if data.length < 36 then .failed .codeTxArgs "balanceOf: input too short"
      else
        match basicRef (Fin.ofNat _ (beValue ((data.drop 16).take 20))) with
        | .ok account => .returned (beBytes 32 (account.getD 0).val)
        | .error error => .failed .nativeMethodStateError ("native balance read failed: " ++ error)
    else if data.take 4 = [0x18, 0x16, 0x0d, 0xdd] then .returned (beBytes 32 1)
    else if data.take 4 = [0x31, 0x3c, 0xe5, 0x67] then .returned (beBytes 32 18)
    else if data.take 4 = [0x06, 0xfd, 0xde, 0x03] ∨ data.take 4 = [0x95, 0xd8, 0x9b, 0x41] then
      -- the ABI encoding of "ETH": offset, length, the padded text
      .returned (beBytes 32 32 ++ beBytes 32 3 ++ [0x45, 0x54, 0x48] ++ List.replicate 29 0)
    else .failed .nativeMethodNotFound "method not found"

/-! ### The loop -/

/-- The fields of a request that the handler reads; the EVM reads the others. -/
structure Request (ρ : Type) where
  toAddr : Option Address
  input : Option (List Byte)
  others : ρ

/-- `ExecutionResult`; a halt with its reason as text. -/
inductive ExecutionResult where
  | success (output : List Byte)
  | revert (output : List Byte)
  | halt (reason : String)

/-- What a batch is run with: its flags, and what it asks of the node's `eth` API for its block and
overrides. Databases are handed on with what the calls cached in them. -/
structure Batch (δ ρ κ ε : Type) where
  fastFail : Option Bool
  disableCache : Option Bool
  /-- The block, if there is one, with number, hash and time. -/
  block : Except ε (U64 × BlockHash × U64)
  /-- The state at the block with the state overrides applied. -/
  state : Except ε δ
  prepareCallEnv : δ → Request ρ → Except ε (κ × δ)
  transact : δ → κ → Except ε ((ExecutionResult × ℕ) × δ)
  basicRef : δ → Address → Except String (Option U256)
  decodeRevertReason : List Byte → Option String

/-- The database and the response so far. -/
structure Progress (δ : Type) where
  db : δ
  results : List SingleCallResult
  success : Bool

section Loop

variable {δ ρ κ ε : Type} (batch : Batch δ ρ κ ε)

def singleCallResult (gasUsed : ℕ) : ExecutionResult → SingleCallResult
  | .success output => ⟨MultiCallErrorCode.success.asI32, "", false, output, min gasUsed (2 ^ 63 - 1)⟩
  | .revert output => ⟨MultiCallErrorCode.evmReverted.asI32,
      (batch.decodeRevertReason output).getD "Reason Unknown", false, [], min gasUsed (2 ^ 63 - 1)⟩
  | .halt reason =>
    ⟨MultiCallErrorCode.evmCancelled.asI32, "Halted: " ++ reason, false, [], min gasUsed (2 ^ 63 - 1)⟩

def evmCall (db : δ) (request : Request ρ) : Except ε (SingleCallResult × δ) := do
  let (call, prepared) ← batch.prepareCallEnv db request
  let ((result, gasUsed), after) ← batch.transact prepared call
  .ok (singleCallResult batch gasUsed result, after)

/-- A request that is not skipped. -/
def answer (db : δ) (request : Request ρ) : Except ε (SingleCallResult × δ) :=
  if request.toAddr = some nativeTokenAddress then
    .ok (ethErc20Handle (batch.basicRef db) request.input, db)
  else evmCall batch db request

def callOne (progress : Progress δ) (request : Request ρ) : Except ε (Progress δ) :=
  if batch.fastFail.getD false && progress.results.getLast?.any fun last => last.code ≠ 0 then
    .ok { progress with results := progress.results ++ [.skipped] }
  else do
    let (result, after) ← answer batch progress.db request
    .ok ⟨after, progress.results ++ [result], progress.success && result.code = 0⟩

def multiCall (requests : List (Request ρ)) : Except ε MultiCallResp := do
  let (number, hash, time) ← batch.block
  let db ← batch.state
  let done ← requests.foldlM (callOne batch) ⟨db, [], true⟩
  .ok ⟨done.results, number, hash, time, done.success, !batch.disableCache.getD false⟩

/-- **The calls only read**: databases that are alike give the same answers, and a call leaves one
that is like the one before. -/
structure ReadsOnly (alike : δ → δ → Prop) : Prop where
  equivalence : Equivalence alike
  basicRef : ∀ {first second}, alike first second → batch.basicRef first = batch.basicRef second
  evmCall : ∀ {first second}, alike first second → ∀ request,
    (evmCall batch first request).map Prod.fst = (evmCall batch second request).map Prod.fst
  leaves : ∀ {db request result after},
    Rpc.evmCall batch db request = .ok (result, after) → alike db after

/-! ### Independence -/

/-- The request sent alone has this result. -/
def Alone (request : Request ρ) (result : SingleCallResult) : Prop :=
  ∃ stats, multiCall batch [request] = .ok ⟨[result], stats⟩

/-- **Nothing fails before the request is executed**: it is for the native token, or the call is
prepared and simulated, whatever comes of it. -/
def Executes (db : δ) (request : Request ρ) : Prop :=
  request.toAddr = some nativeTokenAddress ∨ ∃ call prepared outcome,
    batch.prepareCallEnv db request = .ok (call, prepared) ∧ batch.transact prepared call = .ok outcome

/-- The loop comes to the request after these: without `fast_fail` always, otherwise if none of them
fails. -/
def Reached (front : List (Request ρ)) : Prop :=
  batch.fastFail = some true → ∀ request ∈ front, ∃ result, Alone batch request result ∧ result.code = 0

/-- **Independent requests**: one result for each, that of the request sent alone, or skipped. -/
structure Independent (requests : List (Request ρ)) (results : List SingleCallResult) (success : Bool) :
    Prop where
  length : results.length = requests.length
  answered : ∀ front request back, requests = front ++ request :: back → Reached batch front →
    ∃ result, Alone batch request result ∧ results[front.length]? = some result
  skipped : ∀ front request back, requests = front ++ request :: back → ¬ Reached batch front →
    results[front.length]? = some .skipped
  success : success = true ↔ ∀ result ∈ results, result.code = 0

/-- What is known after some turns of the loop. -/
structure Midway (alike : δ → δ → Prop) (base : δ) (requests : List (Request ρ))
    (progress : Progress δ) : Prop where
  alike : alike base progress.db
  independent : Independent batch requests progress.results progress.success
  goes : (batch.fastFail.getD false && progress.results.getLast?.any fun last => last.code ≠ 0) = false ↔
    Reached batch requests

variable {batch} {alike : δ → δ → Prop} {requests : List (Request ρ)}
  {request : Request ρ} {base : δ}

theorem answer_alike (reads : ReadsOnly batch alike) {db : δ} (same : alike base db) :
    (answer batch db request).map Prod.fst = (answer batch base request).map Prod.fst := by
  unfold answer
  split_ifs
  · rw [reads.basicRef same]
    rfl
  · exact (reads.evmCall same request).symm

variable {result : SingleCallResult}

theorem alike_answer (reads : ReadsOnly batch alike) {db after : δ}
    (answers : answer batch db request = .ok (result, after)) : alike db after := by
  unfold answer at answers
  split_ifs at answers
  · cases answers
    exact reads.equivalence.refl db
  · exact reads.leaves answers

theorem alone_iff (state : batch.state = .ok base) (found : ∃ block, batch.block = .ok block) :
    Alone batch request result ↔ (answer batch base request).map Prod.fst = .ok result := by
  obtain ⟨⟨number, hash, time⟩, block⟩ := found
  unfold Alone multiCall
  rw [block, state]
  cases answers : answer batch base request <;>
    simp [bind, Except.bind, Except.map, callOne, answers, List.foldlM, pure, Except.pure]

theorem exists_alone_iff (state : batch.state = .ok base) (found : ∃ block, batch.block = .ok block) :
    (∃ result, Alone batch request result) ↔ Executes batch base request := by
  simp only [alone_iff state found, Executes, answer, evmCall]
  split_ifs with native
  · simp [native, Except.map]
  · cases prepares : batch.prepareCallEnv base request with
    | error error => simp [native, Except.map, bind, Except.bind]
    | ok pair =>
      obtain ⟨call, prepared⟩ := pair
      rcases executes : batch.transact prepared call with error | ⟨⟨result, gasUsed⟩, after⟩ <;>
        simp [native, executes, Except.map, bind, Except.bind]

theorem reached_append : Reached batch (requests ++ [request]) ↔ Reached batch requests ∧
    (batch.fastFail = some true → ∃ result, Alone batch request result ∧ result.code = 0) := by
  simp [Reached, or_imp, forall_and]

theorem split_append {front back : List (Request ρ)} {other : Request ρ}
    (split : requests ++ [request] = front ++ other :: back) :
    (front = requests ∧ other = request) ∨ ∃ rest, requests = front ++ other :: rest := by
  rcases List.eq_nil_or_concat' back with rfl | ⟨rest, last, rfl⟩
  · obtain ⟨rfl, same⟩ := List.append_inj' split rfl
    exact .inl ⟨rfl, (List.singleton_inj.mp same).symm⟩
  · rw [← List.cons_append, ← List.append_assoc] at split
    exact .inr ⟨rest, (List.append_inj' split rfl).1⟩

/-- A result is added at the end: for a request that is reached its own, otherwise `skipped`. -/
theorem Independent.append {results : List SingleCallResult} {success : Bool}
    (independent : Independent batch requests results success) (request : Request ρ)
    (answered : Reached batch requests → Alone batch request result)
    (skipped : ¬ Reached batch requests → result = .skipped) :
    Independent batch (requests ++ [request]) (results ++ [result]) (success && result.code = 0) := by
  have length := independent.length
  have earlier : ∀ {front rest other}, requests = front ++ other :: rest →
      (results ++ [result])[front.length]? = results[front.length]? := by
    rintro front rest other rfl
    exact List.getElem?_append_left (by simp [length])
  refine ⟨by simp [length], ?_, ?_, by simp [independent.success, or_imp, forall_and]⟩
  · intro front other back split reached
    rcases split_append split with ⟨rfl, rfl⟩ | ⟨rest, whole⟩
    · exact ⟨result, answered reached, by simp [← length]⟩
    · exact earlier whole ▸ independent.answered front other rest whole reached
  · intro front other back split unreached
    rcases split_append split with ⟨rfl, rfl⟩ | ⟨rest, whole⟩
    · simp [← length, skipped unreached]
    · exact earlier whole ▸ independent.skipped front other rest whole unreached

section Turns

variable (reads : ReadsOnly batch alike) (state : batch.state = .ok base)
  (found : ∃ block, batch.block = .ok block) {progress next : Progress δ}

include reads state found

theorem Midway.turn (midway : Midway batch alike base requests progress)
    (turn : callOne batch progress request = .ok next) :
    Midway batch alike base (requests ++ [request]) next := by
  unfold callOne at turn
  cases stops : batch.fastFail.getD false && progress.results.getLast?.any fun last => last.code ≠ 0 with
  | true =>
    have unreached : ¬ Reached batch requests := by
      intro reached
      rw [midway.goes.mpr reached] at stops
      cases stops
    obtain ⟨fast, last⟩ := Bool.and_eq_true_iff.mp stops
    have failed : progress.success = false := by
      obtain ⟨failing, final, code⟩ := (Option.any_eq_true _ _).mp last
      by_contra succeeds
      have zero := midway.independent.success.mp (Bool.not_eq_false _ ▸ succeeds) failing
        (List.mem_of_getLast? final)
      simp [zero] at code
    rw [stops, if_pos rfl] at turn
    obtain rfl := Except.ok.inj turn
    refine ⟨midway.alike, ?_, ?_⟩
    · have := midway.independent.append request (absurd · unreached) fun _ => rfl
      rwa [failed, Bool.false_and, ← failed] at this
    · rw [reached_append]
      simp [fast, unreached, SingleCallResult.skipped, SingleCallResult.failed, MultiCallErrorCode.asI32]
  | false =>
    have reached := midway.goes.mp stops
    rw [stops, if_neg Bool.false_ne_true] at turn
    cases answers : answer batch progress.db request with
    | error error =>
      rw [answers] at turn
      cases turn
    | ok pair =>
      obtain ⟨result, after⟩ := pair
      rw [answers] at turn
      obtain rfl := Except.ok.inj turn
      have alone : Alone batch request result := by
        rw [alone_iff state found, ← answer_alike reads midway.alike, answers]
        rfl
      refine ⟨reads.equivalence.trans midway.alike (alike_answer reads answers),
        midway.independent.append request (fun _ => alone) (absurd reached), ?_⟩
      have unique : ∀ other, Alone batch request other → other = result := by
        intro other also
        rw [alone_iff state found] at also alone
        exact Except.ok.inj (also.symm.trans alone)
      have zero : (∃ other, Alone batch request other ∧ other.code = 0) ↔ result.code = 0 :=
        ⟨fun ⟨other, also, code⟩ => unique other also ▸ code, fun code => ⟨result, alone, code⟩⟩
      rw [reached_append, zero]
      cases batch.fastFail with | none => simp [reached] | some fast => cases fast <;> simp [reached]

theorem Midway.exists_turn (midway : Midway batch alike base requests progress)
    (answers : Reached batch requests → ∃ result, Alone batch request result) :
    ∃ next, callOne batch progress request = .ok next := by
  unfold callOne
  split_ifs with stops
  · exact ⟨_, rfl⟩
  · obtain ⟨result, alone⟩ := answers (midway.goes.mp (Bool.not_eq_true _ ▸ stops))
    rw [alone_iff state found, ← answer_alike reads midway.alike] at alone
    cases answered : answer batch progress.db request with
    | error error =>
      rw [answered] at alone
      cases alone
    | ok pair => exact ⟨_, rfl⟩

theorem midway_foldlM (requests : List (Request ρ))
    (answers : ∀ front request back, requests = front ++ request :: back → Reached batch front →
      ∃ result, Alone batch request result) :
    ∃ progress, requests.foldlM (callOne batch) ⟨base, [], true⟩ = .ok progress ∧
      Midway batch alike base requests progress := by
  induction requests using List.reverseRecOn with
  | nil =>
    refine ⟨_, rfl, reads.equivalence.refl base, ⟨rfl, by simp, by simp, by simp⟩, ?_⟩
    simp [Reached]
  | append_singleton front request ih =>
    obtain ⟨progress, ran, midway⟩ := ih fun start other rest whole =>
      answers start other (rest ++ [request]) (by simp [whole])
    obtain ⟨next, turn⟩ := midway.exists_turn reads state found (answers front request [] rfl)
    refine ⟨next, ?_, midway.turn reads state found turn⟩
    rw [List.foldlM_append, ran]
    simp [turn, bind, Except.bind, pure, Except.pure]

end Turns

/-- **Requests are independent**, and the response is there with them, exactly if no request that
the loop comes to fails in `prepare_call_env` or `transact`. -/
theorem requests_independent_iff {block : U64 × BlockHash × U64} (reads : ReadsOnly batch alike)
    (found : batch.block = .ok block) (state : batch.state = .ok base) (requests : List (Request ρ)) :
    (∃ response, multiCall batch requests = .ok response ∧
        Independent batch requests response.results response.stats.success) ↔
      ∀ front request back, requests = front ++ request :: back → Reached batch front →
        Executes batch base request := by
  simp only [← exists_alone_iff state ⟨block, found⟩]
  constructor
  · rintro ⟨response, -, independent⟩ front request back split reached
    obtain ⟨result, alone, -⟩ := independent.answered front request back split reached
    exact ⟨result, alone⟩
  · intro answers
    obtain ⟨progress, ran, midway⟩ := midway_foldlM reads state ⟨block, found⟩ requests answers
    refine ⟨⟨progress.results, block.1, block.2.1, block.2.2, progress.success,
      !batch.disableCache.getD false⟩, ?_, midway.independent⟩
    unfold multiCall
    rw [found, state]
    simp only [bind, Except.bind, ran]

end Loop

/-- The database is a balance and what was cached; a call needs its value there, and returns one
byte. -/
def sampleBatch : Batch (U256 × List U256) U256 Unit String where
  fastFail := none
  disableCache := none
  block := .ok (7, 8, 9)
  state := .ok (5, [])
  prepareCallEnv db request :=
    if request.others ≤ db.1 then .ok ((), db.1, request.others :: db.2) else .error "insufficient funds"
  transact db _ := .ok ((.success [1], 21000), db)
  basicRef db _ := .ok (some db.1)
  decodeRevertReason _ := none

def sampleCall (value : U256) : Request U256 := ⟨some 3, some [], value⟩

theorem sampleBatch_readsOnly : ReadsOnly sampleBatch fun first second => first.1 = second.1 where
  equivalence := ⟨fun _ => rfl, Eq.symm, Eq.trans⟩
  basicRef same := by simp only [sampleBatch, same]
  evmCall same request := by
    simp only [evmCall, sampleBatch, same]
    split_ifs <;> rfl
  leaves ran := by
    simp only [evmCall, sampleBatch] at ran
    split_ifs at ran <;> cases ran
    rfl

theorem requests_independent_iff_sample : ∃ response,
    multiCall sampleBatch [sampleCall 1, sampleCall 2] = .ok response ∧
      Independent sampleBatch [sampleCall 1, sampleCall 2] response.results response.stats.success := by
  refine (requests_independent_iff sampleBatch_readsOnly rfl rfl _).mpr
    fun front request back split _ => ?_
  have small : request.others ≤ 5 := by
    have member : request ∈ [sampleCall 1, sampleCall 2] := by simp [split]
    simp only [List.mem_cons, List.not_mem_nil, or_false] at member
    rcases member with rfl | rfl <;> decide
  exact .inr ⟨(), _, _, if_pos small, rfl⟩

/-- **One request that fails before it is executed takes the others with it.** The first call has a
result when it is sent alone, and none in the batch. -/
theorem failing_request_takes_the_batch : multiCall sampleBatch [sampleCall 1] =
        .ok ⟨[⟨0, "", false, [1], 21000⟩], 7, 8, 9, true, true⟩ ∧
      multiCall sampleBatch [sampleCall 1, sampleCall 6] = .error "insufficient funds" := by
  exact ⟨rfl, rfl⟩

end ArcNode.Rpc
