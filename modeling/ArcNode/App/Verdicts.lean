/-
**Verdicts in the undecided table.**

Two properties of every run of single ingestions. *Soundness*: a row is valid or stored under its
canonical hash. Two of the four paths apply that guard; along runs in which the other two meet no
rejected block with a forged hash every row keeps it (**`rows_stay_storable`**). *Faithfulness*:
after an ingestion the row of its block and the value reported carry the verdict just obtained,
along runs in which stored rows agree with the verdicts that are not written
(**`verdicts_stay_faithful`**).
-/

import ArcNode.App.IngestSpec

namespace ArcNode.App

open ArcNode.Lib ArcNode.Types ArcNode.Store

/-! ### Soundness of the rows -/

variable (E : Externals)

/-- Every row may be stored: it is valid, or its key carries the canonical hash. -/
def RowsStorable (db : AppDb) : Prop :=
  ∀ key row, db.undecidedBlocks.get key = some row →
    row.mayBeStoredAsUndecided E.canonicalBlockHash = true

theorem rowsStorable_empty : RowsStorable E ∅ := by
  intro key row found
  cases found

/-- The paths that store a block without asking whether it may be stored. -/
def IngestInput.unguarded : IngestInput → Bool
  | completeParts _ _ => false
  | pendingParts _ _ => true
  | syncedValue _ _ _ _ _ => false
  | undecidedBlock _ _ => true

/-- **No forged block is rejected on an unguarded path**: a block whose self-reported hash is not
canonical gets no invalid verdict there. -/
def Guarded (E : Externals) (engine : Engine) (world : World) (input : IngestInput) : Prop :=
  ∀ block ∈ ingested E world input, input.unguarded = true →
    block.selfReportedHashIsCanonical E.canonicalBlockHash = true ∨
      input.verdict engine world block ≠ some .invalid
  deriving Decidable

variable {validity : Validity}

section Soundness

variable {E : Externals} {engine : Engine} {world : World} {input : IngestInput}
  {block : ConsensusBlock}

theorem storable_valid (block : ConsensusBlock) : Storable E block .valid := rfl

theorem storable_of_canonical
    (canonical : block.selfReportedHashIsCanonical E.canonicalBlockHash = true) :
    Storable E block validity := by
  show (validity.isValid || block.selfReportedHashIsCanonical E.canonicalBlockHash) = true
  rw [canonical, Bool.or_true]

theorem storable_of_writes (found : ingested E world input = some block)
    (guarded : Guarded E engine world input)
    (verdict : input.verdict engine world block = some validity)
    (written : input.writes E world block validity) : Storable E block validity := by
  have unforged : input.unguarded = true → Storable E block validity := by
    intro path
    rcases guarded block found path with canonical | accepted
    · exact storable_of_canonical canonical
    · cases validity with
      | valid => exact storable_valid block
      | invalid => exact absurd verdict accepted
  cases input with
  | completeParts ctx parts => exact written
  | pendingParts ctx parts => exact unforged rfl
  | syncedValue ctx height round proposer valueBytes => exact written.1
  | undecidedBlock ctx key => exact unforged rfl

theorem rowsStorable_step (rows : RowsStorable E world.db)
    (guarded : Guarded E engine world input) :
    RowsStorable E (ingestStep E engine world input).1.db := by
  intro key row there
  cases found : ingested E world input with
  | none =>
    rw [(ingestStep_idle found).1.undecided] at there
    exact rows key row there
  | some block =>
    rw [(ingestStep_settled found).1.undecided] at there
    rcases settle_cases there with old | ⟨-, validity, verdict, written, new⟩
    · exact rows key row old
    · rw [new]
      exact storable_of_writes found guarded verdict written

/-- **The undecided table stays sound**: along every run that rejects no forged block on an
unguarded path, all rows after every step, the one just written included, may be stored. -/
theorem rows_stay_storable {inputs : List IngestInput} (rows : RowsStorable E world.db)
    (guarded : Along (ingestStep E engine) (Guarded E engine) world inputs) :
    Along (ingestStep E engine) (fun before input =>
      RowsStorable E (ingestStep E engine before input).1.db) world inputs :=
  along_of_invariant (fun _ _ sound meets => rowsStorable_step sound meets)
    (fun _ _ sound meets => rowsStorable_step sound meets) rows guarded

end Soundness

section ForgedBlock

/-- A payload whose hash is the canonical one. -/
def genuinePayload : ExecutionPayload := ⟨5, 1, 1000, 9, []⟩

/-- Another payload under the same hash. -/
def forgedPayload : ExecutionPayload := ⟨5, 1, 2000, 9, []⟩

/-- The digest signed for the forged payload, and the one its pending parts are stored under. -/
def forgedDigest : BlockHash :=
  57427018208724344479634921285416934518233558548959285841319808675374810788212

def forgedPendingDigest : BlockHash :=
  92544473410725755616059099646164963498048588256019963531571844551569477734431

def forgedExternals : Externals :=
  bareExternals
    [(ProposalParts.preimage 1 (.some 0) (bareSszBytes genuinePayload), sampleDigest),
      (ProposalParts.preimage 1 (.some 0) (bareSszBytes forgedPayload), forgedDigest),
      (beBytes 32 forgedDigest.val ++ (beBytes 20 3 ++ (Round.nil.toBeBytes ++
        bareSignature 7 forgedDigest)), forgedPendingDigest)]
    fun payload => if payload = genuinePayload then some 9 else some 10

def genuineBlock : ConsensusBlock :=
  ⟨1, .some 0, .nil, 3, .valid, genuinePayload, some (bareSignature 7 sampleDigest)⟩

def forgedBlock : ConsensusBlock :=
  ⟨1, .some 0, .nil, 3, .valid, forgedPayload, some (bareSignature 7 forgedDigest)⟩

/-- The parts of the forged block, signed by the selected proposer. -/
def forgedParts : ProposalParts := partsOf forgedExternals forgedBlock (bareSignature 7 forgedDigest)

def genuineParts : ProposalParts :=
  partsOf forgedExternals genuineBlock (bareSignature 7 sampleDigest)

/-- The first round of the first height, with one validator. -/
def sampleContext : HandlerContext where
  currentHeight := 1
  currentRound := .some 0
  validatorSet := [⟨3, 7, 10⟩]
  maxPendingProposals := 4
  maxPositive := by decide
  previousBlock := none
  localTime := none

/-- An engine that accepts only the genuine payload. -/
def strictEngine : Engine := fun _ payload =>
  if payload = genuinePayload then .valid else .invalid "block hash mismatch"

/-- The genuine block is stored as valid, and the forged parts wait for the round. -/
def forgedWorld : World where
  db := { (∅ : AppDb) with
    undecidedBlocks := Table.insert ∅ genuineBlock.key genuineBlock
    pendingProposalParts := Table.insert ∅ (forgedParts.pendingKey forgedExternals.keccak)
      forgedParts }
  calls := []

/-- **A forged block overwrites a genuine row**: the round start stores the rejected block under the
hash it claims. -/
theorem forged_pending_block_overwrites :
    genuineBlock.mayBeStoredAsUndecided forgedExternals.canonicalBlockHash = true ∧
      forgedWorld.db.undecidedBlocks.get genuineBlock.key = some genuineBlock ∧
      (fetchAndProcessPendingProposals forgedExternals strictEngine sampleContext forgedWorld 1
          (.some 0)).map (fun result => result.1.db.undecidedBlocks.get genuineBlock.key) =
        some (some { forgedBlock with validity := .invalid }) ∧
      { forgedBlock with validity := .invalid }.mayBeStoredAsUndecided
        forgedExternals.canonicalBlockHash = false := by
  decide +kernel

/-- The genuine block through its parts, the forged one through sync, and a re-validation. -/
def guardedInputs : List IngestInput :=
  [.pendingParts sampleContext genuineParts,
    .syncedValue sampleContext 1 (.some 0) 3 (bareSszBytes forgedPayload),
    .undecidedBlock sampleContext genuineBlock.key]

theorem rows_stay_storable_guardedInputs :
    Along (ingestStep forgedExternals strictEngine) (fun before input =>
      RowsStorable forgedExternals (ingestStep forgedExternals strictEngine before input).1.db)
      ⟨∅, []⟩ guardedInputs :=
  rows_stay_storable (rowsStorable_empty forgedExternals) (by decide +kernel)

end ForgedBlock

/-! ### Faithfulness of the verdicts -/

/-- The engine has accepted a payload with this hash. -/
def AnsweredValid (world : World) (hash : BlockHash) : Prop :=
  ∃ payload, (payload, EngineAnswer.valid) ∈ world.calls ∧ payload.blockHash = hash

/-- A value is reported with a verdict, or downgraded for its timestamp. -/
def ReportedAs (ctx : HandlerContext) (block : ConsensusBlock) (validity : Validity)
    (value : ProposedValue) : Prop :=
  value.validity = validity ∨
    (validity = .valid ∧ value.validity = .invalid ∧ ∃ now, ctx.localTime = some now ∧
      headerTimestampExceedsSkew block.executionPayload.timestamp now = true)

/-- **The ingestion of a block is faithful.** -/
structure FaithfulTo (E : Externals) (engine : Engine) (world : World) (input : IngestInput)
    (block : ConsensusBlock) : Prop where
  /-- A block that is not bound is rejected without asking the engine. -/
  unasked : ¬ Bound block.executionPayload block.height input.ctx.previousBlock →
    input.verdict engine world block = some .invalid ∧
      (ingestStep E engine world input).1.calls = world.calls
  /-- A bound block gets the answer of the engine. -/
  asked : Bound block.executionPayload block.height input.ctx.previousBlock →
    input.verdict engine world block =
        (validatePayload (world.nextAnswer engine block)).map PayloadValidationResult.validity ∧
      (ingestStep E engine world input).1.calls =
        world.calls ++ [(block.executionPayload, world.nextAnswer engine block)]
  /-- The row of the block carries the verdict. -/
  row : ∀ validity, input.verdict engine world block = some validity → ∀ row,
    (ingestStep E engine world input).1.db.undecidedBlocks.get block.key = some row →
      row.executionPayload = block.executionPayload → row.validity = validity
  /-- The value reported carries the verdict. -/
  value : ∀ validity, input.verdict engine world block = some validity → ∀ value,
    (ingestStep E engine world input).2 = some value → ReportedAs input.ctx block validity value
  /-- Without a verdict no row is created or changed. -/
  inconclusive : input.verdict engine world block = none →
    (ingestStep E engine world input).1.db.undecidedBlocks = world.db.undecidedBlocks
  /-- What is reported valid has been answered valid. -/
  answered : ∀ value, (ingestStep E engine world input).2 = some value →
    value.validity = .valid → AnsweredValid (ingestStep E engine world input).1 value.value

/-- **An ingestion is faithful**: to its block, or by leaving everything as it is. -/
def Faithful (engine : Engine) (world : World) (input : IngestInput) : Prop :=
  (∀ block, ingested E world input = some block → FaithfulTo E engine world input block) ∧
    (ingested E world input = none →
      (ingestStep E engine world input).1.db.undecidedBlocks = world.db.undecidedBlocks ∧
        (ingestStep E engine world input).2 = none)

/-- What a stored row has to agree with when the block of an ingestion is not written. -/
def IngestInput.agrees (E : Externals) (block : ConsensusBlock) (validity : Validity)
    (row : ConsensusBlock) : IngestInput → Prop
  | completeParts _ _ => ¬ Storable E block validity →
      row.executionPayload = block.executionPayload → row.validity = validity
  | pendingParts _ _ => True
  | syncedValue ctx _ _ _ _ =>
      (¬ Storable E block validity → row.executionPayload = block.executionPayload →
        row.validity = validity) ∧
      (Bound block.executionPayload block.height ctx.previousBlock → Storable E block validity →
        row.validity = validity)
  | undecidedBlock _ _ => True

instance (E : Externals) (block : ConsensusBlock) (validity : Validity) (row : ConsensusBlock) :
    ∀ input : IngestInput, Decidable (input.agrees E block validity row)
  | .completeParts _ _ => inferInstanceAs (Decidable (_ → _ → _))
  | .pendingParts _ _ => inferInstanceAs (Decidable True)
  | .syncedValue _ _ _ _ _ => inferInstanceAs (Decidable ((_ → _ → _) ∧ (_ → _ → _)))
  | .undecidedBlock _ _ => inferInstanceAs (Decidable True)

/-- **The row under the key of a block agrees with the verdict** wherever a path keeps that row:
when it answers a synced value, and when the guard refuses the block. -/
def Agreeing (E : Externals) (engine : Engine) (world : World) (input : IngestInput) : Prop :=
  ∀ block ∈ ingested E world input, ∀ validity ∈ input.verdict engine world block,
    ∀ row ∈ world.db.undecidedBlocks.get block.key, input.agrees E block validity row
  deriving Decidable

/-- **Valid rows have been answered valid**, and every row is stored under its own key. -/
structure Answered (world : World) : Prop where
  keyed : Keyed world.db
  valid : ∀ key row, world.db.undecidedBlocks.get key = some row → row.validity = .valid →
    (row.executionPayload, EngineAnswer.valid) ∈ world.calls

theorem answered_empty (calls : List (ExecutionPayload × EngineAnswer)) : Answered ⟨∅, calls⟩ where
  keyed := by
    intro key row found
    cases found
  valid := by
    intro key row found
    cases found

section Faithfulness

variable {E : Externals} {engine : Engine} {world : World} {input : IngestInput}
  {block : ConsensusBlock}

theorem validatePayload_valid {answer : EngineAnswer}
    (accepted : (validatePayload answer).map PayloadValidationResult.validity = some .valid) :
    answer = .valid := by
  cases answer with
  | valid => rfl
  | rpcError error =>
    by_cases internal : error.isInternalError = true
    · simp [validatePayload, internal] at accepted
    · simp [validatePayload, internal, PayloadValidationResult.validity] at accepted
  | _ => simp [validatePayload, PayloadValidationResult.validity] at accepted

theorem asked_of_valid (verdict : input.verdict engine world block = some .valid) :
    Bound block.executionPayload block.height input.ctx.previousBlock ∧
      world.nextAnswer engine block = .valid := by
  unfold IngestInput.verdict conclusiveVerdict at verdict
  by_cases bound : Bound block.executionPayload block.height input.ctx.previousBlock
  · rw [if_pos bound] at verdict
    exact ⟨bound, validatePayload_valid verdict⟩
  · rw [if_neg bound] at verdict
    cases verdict

theorem call_of_valid (found : ingested E world input = some block)
    (verdict : input.verdict engine world block = some .valid) :
    (block.executionPayload, EngineAnswer.valid) ∈ (ingestStep E engine world input).1.calls := by
  obtain ⟨bound, answer⟩ := asked_of_valid verdict
  rw [(ingestStep_settled found).1.calls, if_pos bound, answer]
  exact List.mem_append_right _ (List.mem_singleton.mpr rfl)

theorem mem_calls_ingestStep {call : ExecutionPayload × EngineAnswer} (made : call ∈ world.calls) :
    call ∈ (ingestStep E engine world input).1.calls := by
  cases found : ingested E world input with
  | none =>
    rw [(ingestStep_idle found).1.calls]
    exact made
  | some block =>
    rw [(ingestStep_settled found).1.calls]
    by_cases bound : Bound block.executionPayload block.height input.ctx.previousBlock
    · rw [if_pos bound]
      exact List.mem_append_left _ made
    · rw [if_neg bound]
      exact made

theorem answered_step (answered : Answered world) :
    Answered (ingestStep E engine world input).1 where
  keyed := keyed_ingestStep answered.keyed input
  valid := by
    intro key row there valid
    cases found : ingested E world input with
    | none =>
      rw [(ingestStep_idle found).1.undecided] at there
      exact mem_calls_ingestStep (answered.valid key row there valid)
    | some block =>
      rw [(ingestStep_settled found).1.undecided] at there
      rcases settle_cases there with old | ⟨-, validity, verdict, -, new⟩
      · exact mem_calls_ingestStep (answered.valid key row old valid)
      · rw [new] at valid ⊢
        have called := call_of_valid found (verdict.trans (congrArg some valid))
        exact called

/-- The gate only downgrades, and only for the timestamp. -/
theorem reportedAs_validityFor (ctx : HandlerContext) (block : ConsensusBlock)
    (validity : Validity) : ReportedAs ctx block validity
      (block.toProposedValueWithValidity
        (validityFor { block with validity := validity } ctx.localTime)) := by
  unfold ReportedAs validityFor skewGate
  cases clock : ctx.localTime with
  | none => exact .inl rfl
  | some now =>
    cases validity with
    | invalid => exact .inl rfl
    | valid =>
      by_cases ahead : headerTimestampExceedsSkew block.executionPayload.timestamp now = true
      · refine .inr ⟨rfl, ?_, now, rfl, ahead⟩
        show (if (true && headerTimestampExceedsSkew block.executionPayload.timestamp now) = true
          then Validity.invalid else Validity.valid) = _
        rw [ahead, Bool.and_self, if_pos rfl]
      · refine .inl ?_
        show (if (true && headerTimestampExceedsSkew block.executionPayload.timestamp now) = true
          then Validity.invalid else Validity.valid) = _
        rw [Bool.true_and, if_neg ahead]

variable {value : ProposedValue}

theorem ReportedAs.valid_of_valid {ctx : HandlerContext}
    (reported : ReportedAs ctx block validity value)
    (valid : value.validity = .valid) : validity = .valid := by
  rcases reported with same | ⟨same, -, -⟩
  · rw [← same, valid]
  · exact same

theorem row_faithful (answered : Answered world) (found : ingested E world input = some block)
    (agreeing : Agreeing E engine world input)
    (verdict : input.verdict engine world block = some validity) {row : ConsensusBlock}
    (there : (ingestStep E engine world input).1.db.undecidedBlocks.get block.key = some row)
    (same : row.executionPayload = block.executionPayload) : row.validity = validity := by
  have judged : conclusiveVerdict block input.ctx.previousBlock (world.nextAnswer engine block) =
    some validity := verdict
  rw [(ingestStep_settled found).1.undecided, judged, settle_get_self] at there
  by_cases written : input.writes E world block validity
  · rw [if_pos written, Option.some.injEq] at there
    rw [← there]
  -- the row was there before, so the path decides why the block was not written
  · rw [if_neg written] at there
    have agrees := agreeing block found validity verdict row there
    cases input with
    | completeParts ctx parts => exact agrees written same
    | pendingParts ctx parts => exact absurd trivial written
    | syncedValue ctx height round proposer valueBytes =>
      by_cases storable : Storable E block validity
      · have bound : Bound block.executionPayload block.height ctx.previousBlock := by
          by_contra unbound
          exact written ⟨storable, fun bound => absurd bound unbound⟩
        exact agrees.2 bound storable
      · exact agrees.1 storable same
    | undecidedBlock ctx key =>
      have stored : world.db.undecidedBlocks.get key = some block := found
      rw [answered.keyed key block stored, stored, Option.some.injEq] at there
      rw [← there]
      exact (not_not.mp written).symm

theorem value_faithful (found : ingested E world input = some block)
    (agreeing : Agreeing E engine world input)
    (verdict : input.verdict engine world block = some validity)
    (reported : (ingestStep E engine world input).2 = some value) :
    ReportedAs input.ctx block validity value := by
  rw [(ingestStep_settled found).2, verdict] at reported
  have agrees := agreeing block found validity verdict
  cases input with
  | completeParts ctx parts =>
    simp only [IngestInput.report] at reported
    obtain ⟨same, judged, rfl⟩ := liveReport_eq_some reported
    cases judged
    exact reportedAs_validityFor ctx block validity
  | pendingParts ctx parts => cases reported
  | syncedValue ctx height round proposer valueBytes =>
    refine .inl ?_
    simp only [IngestInput.report] at reported
    obtain ⟨same, judged, reports⟩ := syncReport_eq_some reported
    cases judged
    rcases reports with rfl | ⟨row, stored, rfl, bound, storable⟩
    · rfl
    · exact (agrees row stored).2 bound storable
  | undecidedBlock ctx key =>
    obtain rfl := Option.some.inj reported
    exact reportedAs_validityFor ctx block validity

theorem valid_report (keyed : Keyed world.db) (found : ingested E world input = some block)
    (reported : (ingestStep E engine world input).2 = some value)
    (valid : value.validity = .valid) :
    (input.verdict engine world block = some .valid ∧ value.value = block.selfReportedBlockHash) ∨
      ∃ row, world.db.undecidedBlocks.get block.key = some row ∧ row.validity = .valid ∧
        value.value = row.selfReportedBlockHash := by
  rw [(ingestStep_settled found).2] at reported
  cases input with
  | completeParts ctx parts =>
    simp only [IngestInput.report] at reported
    obtain ⟨validity, verdict, rfl⟩ := liveReport_eq_some reported
    have accepted := (reportedAs_validityFor ctx block validity).valid_of_valid valid
    exact .inl ⟨accepted ▸ verdict, rfl⟩
  | pendingParts ctx parts => cases reported
  | syncedValue ctx height round proposer valueBytes =>
    simp only [IngestInput.report] at reported
    obtain ⟨validity, verdict, rfl | ⟨row, stored, rfl, -, -⟩⟩ := syncReport_eq_some reported
    · have accepted : validity = .valid := valid
      exact .inl ⟨accepted ▸ verdict, rfl⟩
    · exact .inr ⟨row, stored, valid, rfl⟩
  | undecidedBlock ctx key =>
    have stored : world.db.undecidedBlocks.get key = some block := found
    obtain rfl := Option.some.inj reported
    cases verdict : IngestInput.verdict engine world (.undecidedBlock ctx key) block with
    | none =>
      rw [verdict] at valid
      have accepted := (reportedAs_validityFor ctx block block.validity).valid_of_valid valid
      rw [keyed key block stored]
      exact .inr ⟨block, stored, accepted, rfl⟩
    | some validity =>
      rw [verdict] at valid
      have accepted := (reportedAs_validityFor ctx block validity).valid_of_valid valid
      exact .inl ⟨congrArg some accepted, rfl⟩

theorem answered_report (answered : Answered world) (found : ingested E world input = some block)
    (reported : (ingestStep E engine world input).2 = some value)
    (valid : value.validity = .valid) :
    AnsweredValid (ingestStep E engine world input).1 value.value := by
  rcases valid_report answered.keyed found reported valid with
    ⟨verdict, same⟩ | ⟨row, stored, accepted, same⟩
  · exact ⟨block.executionPayload, call_of_valid found verdict, same.symm⟩
  · exact ⟨row.executionPayload, mem_calls_ingestStep (answered.valid _ row stored accepted),
      same.symm⟩

theorem faithfulTo (answered : Answered world) (found : ingested E world input = some block)
    (agreeing : Agreeing E engine world input) : FaithfulTo E engine world input block where
  unasked unbound := by
    refine ⟨if_neg unbound, ?_⟩
    rw [(ingestStep_settled found).1.calls, if_neg unbound]
  asked bound := by
    refine ⟨if_pos bound, ?_⟩
    rw [(ingestStep_settled found).1.calls, if_pos bound]
  row _ verdict _ there same := row_faithful answered found agreeing verdict there same
  value _ verdict _ reported := value_faithful found agreeing verdict reported
  inconclusive verdict := by
    have judged : conclusiveVerdict block input.ctx.previousBlock
      (world.nextAnswer engine block) = none := verdict
    rw [(ingestStep_settled found).1.undecided, judged]
    rfl
  answered _ reported valid := answered_report answered found reported valid

/-- **Verdicts stay faithful**: along every run in which the rows that a path keeps agree with the
verdicts it obtains, every ingestion is faithful. -/
theorem verdicts_stay_faithful {inputs : List IngestInput} (answered : Answered world)
    (agreeing : Along (ingestStep E engine) (Agreeing E engine) world inputs) :
    Along (ingestStep E engine) (Faithful E engine) world inputs := by
  refine along_of_invariant (fun _ _ inv _ => answered_step inv) ?_ answered agreeing
  intro before input inv agrees
  refine ⟨fun block found => faithfulTo inv found agrees, fun none => ?_⟩
  obtain ⟨idle, silent⟩ := ingestStep_idle none
  exact ⟨idle.undecided, silent⟩

end Faithfulness

section ChangingEngine

/-- An engine that accepts its first calls and rejects the later ones. -/
def changingEngine (accepted : ℕ) : Engine := fun call _ =>
  if call < accepted then .valid else .invalid "state root mismatch"

def genuineSync : IngestInput := .syncedValue sampleContext 1 (.some 0) 3 (bareSszBytes genuinePayload)

/-- The world after the genuine value was synced and accepted. -/
def syncedWorld : World := (ingestStep forgedExternals (changingEngine 1) ⟨∅, []⟩ genuineSync).1

/-- **A synced value is answered by the old row**: the engine now rejects the payload, and its value
is reported valid and its row stays valid. -/
theorem synced_value_answered_by_old_row : ingested forgedExternals syncedWorld genuineSync =
        some (syncedBlock 1 (.some 0) 3 genuinePayload) ∧
      genuineSync.verdict (changingEngine 1) syncedWorld (syncedBlock 1 (.some 0) 3 genuinePayload) =
        some .invalid ∧
      (ingestStep forgedExternals (changingEngine 1) syncedWorld genuineSync).2.map
        ProposedValue.validity = some .valid ∧
      ((ingestStep forgedExternals (changingEngine 1) syncedWorld
        genuineSync).1.db.undecidedBlocks.get genuineBlock.key).map ConsensusBlock.validity =
        some .valid := by
  decide +kernel

/-- A synced value, the same block through its parts, and a re-validation that rejects it. -/
def agreeingInputs : List IngestInput :=
  [genuineSync, .pendingParts sampleContext genuineParts,
    .undecidedBlock sampleContext genuineBlock.key]

theorem verdicts_stay_faithful_agreeingInputs :
    Along (ingestStep forgedExternals (changingEngine 2))
      (Faithful forgedExternals (changingEngine 2)) ⟨∅, []⟩ agreeingInputs :=
  verdicts_stay_faithful (answered_empty []) (by decide +kernel)

end ChangingEngine

end ArcNode.App
