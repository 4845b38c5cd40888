/-
**Bytes from peers do not panic the node.**

The functions a stream message passes through, from its bytes to the tables and to the engine,
written again with everything in them that can fail: assertions, `expect`s, checked conversions,
machine arithmetic (`none`, at the place where the source has it). Each agrees with the model
without the checks, because of what holds of every decoded message (`WellFormed`), live stream
(`Bounded`) and pending row (`SaneParts`); so no sequence of byte strings ends in a panic
(**`peer_bytes_never_panic`**), unless the node's own height is so large that a window or an index
passes the last `u64` (`height_at_the_top_panics`), or its round has no next one
(`startedRoundChecked_lastRound`).
-/

import ArcNode.Codec.Parts
import ArcNode.App.StreamBounds
import ArcNode.App.DecidedFrame

namespace ArcNode.App

open ArcNode.Lib ArcNode.Types ArcNode.Store ArcNode.Codec ArcNode.Codec.ProtobufCodec

/-! ### Checked arithmetic -/

def addU64 (first second : ℕ) : Option ℕ :=
  if first + second < 2 ^ 64 then some (first + second) else none

def subU64 (first second : ℕ) : Option ℕ := if second ≤ first then some (first - second) else none

def assertThat (holds : Prop) [Decidable holds] : Option Unit := if holds then some () else none

theorem assertThat_eq {holds : Prop} [Decidable holds] (proof : holds) : assertThat holds = some () :=
  if_pos proof

theorem addU64_eq {first second : ℕ} (fits : first + second < 2 ^ 64) :
    addU64 first second = some (first + second) := if_pos fits

theorem subU64_eq {first second : ℕ} (fits : second ≤ first) :
    subU64 first second = some (first - second) := if_pos fits

/-! ### Streams -/

variable (state : StreamState) (message : StreamMessage)

/-- The number of messages the end of a stream announces. -/
def StreamState.expectChecked : Option ℕ :=
  if message.isFin then addU64 message.sequence 1 else some state.expectedMessages

/-- The part of `StreamState::insert` that counts a new message. -/
def StreamState.pushChecked : Option StreamState := do
  let messageCount ← addU64 state.messageCount 1
  let expectedMessages ← state.expectChecked message
  some { state with
    buffer := state.buffer ++ [message]
    seenSequences := message.sequence :: state.seenSequences
    messageCount := messageCount
    height := message.content.initHeight <|> state.height
    finReceived := state.finReceived || message.isFin
    expectedMessages := expectedMessages }

/-- `StreamState::insert`. -/
def StreamState.insertChecked : Option (StreamState × StreamInsertResult) :=
  match message.content.oversized with
  | some actual => some (state, .exceededMaxChunkSize actual)
  | none =>
    if message.isFin && !isValidFinSequence message.sequence then
      some (state, .invalidFinSequence message.sequence)
    else if message.sequence ∈ state.seenSequences then some (state, .duplicate)
    else if maxMessagesPerStream ≤ state.messageCount then
      some ({ state with seenSequences := message.sequence :: state.seenSequences },
        .exceededMaxMessages)
    else do
      let pushed ← state.pushChecked message
      some (if pushed.hasAll then
          ({ pushed with buffer := [], isComplete := true }, .complete (StreamState.drain pushed.buffer))
        else ({ pushed with isComplete := false }, .incomplete pushed.height))

variable (map : PartStreamsMap) (key : StreamKey)

namespace PartStreamsMap

/-- `evict_oldest_stream`: `busiest_peer` counts the streams of every peer. -/
def evictOldestStreamChecked : Option PartStreamsMap := do
  assertThat (∀ key ∈ map.streams.keys, map.peerStreamsCount key.peer < 2 ^ 64)
  some map.evictOldestStream

/-- Room for a stream, if the peer has a slot for it. -/
def makeRoomChecked : Option (Option PartStreamsMap) :=
  if (map.streams.get key).isSome then some (some map)
  else if maxStreamsPerPeer ≤ map.peerStreamsCount key.peer then some none
  else if map.maxTotalStreams ≤ map.streams.len then map.evictOldestStreamChecked.map some
  else some (some map)

/-- `PartStreamsMap::insert`. -/
def insertChecked (peer : PeerId) (message : StreamMessage) (now : ℕ) :
    Option (PartStreamsMap × InsertResult) :=
  let key : StreamKey := ⟨peer, message.streamId⟩
  let actual := message.streamId.length
  if actual ≠ streamIdLen then
    some (map.dropStream key, .invalid (.invalidStreamIdLength actual streamIdLen))
  else
    match streamIdHeight message.streamId with
    | none => some (map.dropStream key, .invalid (.invalidStreamIdLength actual streamIdLen))
    | some streamHeight =>
      if streamHeight < map.currentHeight then some (map.dropStream key, .stale)
      else
        let swept := map.evictOldStreams now
        if key ∈ swept.closedKeys then some (swept, .pending)
        else do
          let room ← swept.makeRoomChecked key
          match room with
          | none => some (swept, .pending)
          | some admitted => do
            let (after, result) ← ((admitted.streams.get key).getD (.new now)).insertChecked message
            let effect := result.effect streamHeight after
            some (effect.1.apply admitted key, effect.2)

end PartStreamsMap

/-! ### Complete proposals -/

/-- `RoundRobin::select_proposer`: the set is not empty, the round is not nil, and neither the
subtraction nor the addition leaves the words. -/
def selectProposerChecked (validatorSet : ValidatorSet) (height : Height) (round : Round) :
    Option Validator := do
  assertThat (validatorSet ≠ [])
  let number ← round.asU32
  let below ← subU64 height.val 1
  let index ← addU64 below number.val
  validatorSet[index % validatorSet.length]?

variable (E : Externals) (parts : ProposalParts)

/-- `validate_proposal_parts`, which asserts what it has just compared. -/
def validateProposalPartsChecked (expectedProposer : Validator) : Option Bool :=
  if expectedProposer.address ≠ parts.proposer then some false
  else do
    assertThat (expectedProposer.address = parts.proposer)
    some (E.verifySignedBytes (parts.hash E.keccak) parts.signature expectedProposer.publicKey =
      some true)

/-- `data_size`: a sum of words. -/
def dataSizeChecked : Option ℕ :=
  parts.data.foldlM (fun total bytes => addU64 total bytes.length) 0

/-- `assemble_block_from_parts`; a vector has room for at most `isize::MAX` bytes. -/
def assembleBlockFromPartsChecked : Option (Except String ConsensusBlock) := do
  let totalSize ← dataSizeChecked parts
  assertThat (totalSize < 2 ^ 63)
  some (assembleBlockFromParts E parts)

/-- `insert_pending_proposal_parts`; the row is encoded before the room is looked at, and the
encoder expects a round. -/
def insertPendingProposalPartsChecked (db : AppDb) (parts : ProposalParts)
    (maxPendingParts : ℕ) (currentHeight : Height) : Option (AppDb × Bool) := do
  let ahead ← subU64 maxPendingParts 1
  let maxAllowedHeight ← currentHeight.incrementBy ahead
  if maxAllowedHeight < parts.height then some (db, false)
  else do
    let _ ← proposalPartsToProto parts
    if db.pendingProposalParts.len < maxPendingParts then
      some ({ db with
        pendingProposalParts := db.pendingProposalParts.insert (parts.pendingKey E.keccak) parts },
        true)
    else some (db, false)

/-- `maybe_store_pending_proposal`. -/
def maybeStorePendingProposalChecked (ctx : HandlerContext) (db : AppDb)
    (parts : ProposalParts) : Option (AppDb × Bool) := do
  let ahead ← subU64 ctx.maxPendingProposals 1
  let maxFutureHeight ← ctx.currentHeight.incrementBy ahead
  if maxFutureHeight < parts.height then some (db, false)
  else insertPendingProposalPartsChecked E db parts ctx.maxPendingProposals ctx.currentHeight

section Handlers

variable (E : Externals) (engine : Engine) (ctx : HandlerContext)

/-- `process_proposal_parts`. -/
def processProposalPartsChecked (db : AppDb) (parts : ProposalParts) :
    Option (AppDb × PartsOutcome) :=
  if parts.height < ctx.currentHeight then some (db, .ignoredPastHeight)
  else if ctx.currentHeight < parts.height ∨ ctx.currentRound < parts.round then do
    let (stored, kept) ← maybeStorePendingProposalChecked E ctx db parts
    some (stored, if kept then .storedPending else .deferred)
  else do
    assertThat (parts.height = ctx.currentHeight)
    let expectedProposer ← selectProposerChecked ctx.validatorSet parts.height parts.round
    let valid ← validateProposalPartsChecked E parts expectedProposer
    if valid then do
      let assembled ← assembleBlockFromPartsChecked E parts
      match assembled with
      | .ok block => some (db, .block block)
      | .error error =>
        some (appendInvalidPayload db (.newFromParts parts error), .assemblyFailed)
    else some (db, .rejectedInvalid)

variable (world : World)

/-- `on_received_proposal_part`: the streams and the world after one message. -/
def onReceivedProposalPartChecked (streams : PartStreamsMap) (world : World) (delivery : Delivery) :
    Option (PartStreamsMap × World × Option ProposedValue) := do
  let (inserted, result) ← streams.insertChecked delivery.peer delivery.message delivery.now
  match result with
  | .complete parts =>
    let outcome ← processProposalPartsChecked E ctx world.db parts
    let (after, disposition) := concludeParts E engine ctx world parts outcome
    some (if disposition = some .deferred then inserted else inserted.markClosed delivery.key, after,
      disposition.bind Disposition.reported)
  | _ => some (inserted, world, none)

/-! ### The start of a round -/

/-- One turn of the loop of `process_pending_proposal_parts`, with its assertions that the row
belongs to this height and round. -/
def processPendingPartChecked (parts : ProposalParts) : Option World := do
  assertThat (parts.height = ctx.currentHeight)
  assertThat (parts.round = ctx.currentRound)
  let expectedProposer ← selectProposerChecked ctx.validatorSet parts.height parts.round
  let valid ← validateProposalPartsChecked E parts expectedProposer
  if valid then do
    let assembled ← assembleBlockFromPartsChecked E parts
    match assembled with
    | .error error =>
      some { world with db := appendInvalidPayload world.db (.newFromParts parts error) }
    | .ok block =>
      let (after, verdict) := establishBlockValidity engine world block ctx.previousBlock
      match verdict with
      | none => some after
      | some verdict =>
        some { after with
          db := removePendingPartsAndStoreUndecidedBlock E after.db parts
            { block with validity := verdict.validity } }
  else some world

/-- The rounds `record_missed_rounds` goes through: from the previous one, or the first, to this
one. -/
def missedRounds (previous current : Round) : List Round :=
  ((List.range current.asI64.toNat).filter fun round : ℕ => previous.asI64 ≤ (round : ℤ)).map
    fun round => .some (Fin.ofNat _ round)

/-- `on_started_round`: its assertions, the proposers of the missed rounds, then the pending rows
and the undecided blocks of the round, whose scan asserts that there is a next round. -/
def startedRoundChecked (previous : Round) : Option (World × List ProposedValue) := do
  assertThat (ctx.currentRound ≠ .nil)
  assertThat (previous ≤ ctx.currentRound)
  let _ ← (missedRounds previous ctx.currentRound).mapM
    (selectProposerChecked ctx.validatorSet ctx.currentHeight)
  let processed ← (getPendingProposalParts world.db ctx.currentHeight ctx.currentRound).foldlM
    (processPendingPartChecked E engine ctx) world
  let stored ← getUndecidedBlocks processed.db ctx.currentHeight ctx.currentRound
  let (after, blocks) := validateUndecidedBlocks engine ctx processed stored
  some (after, blocks.map fun block =>
    block.toProposedValueWithValidity (validityFor block ctx.localTime))

end Handlers

/-! ### The checks of the streams hold -/

theorem StreamState.pushChecked_eq {state : StreamState} {message : StreamMessage}
    (few : state.messageCount < maxMessagesPerStream)
    (valid : ¬ (message.isFin && !isValidFinSequence message.sequence) = true) :
    state.pushChecked message = some (state.push message) := by
  have counted : state.messageCount + 1 < 2 ^ 64 := by
    unfold maxMessagesPerStream at few
    omega
  have expected : state.expectChecked message =
      some (if message.isFin then message.sequence + 1 else state.expectedMessages) := by
    unfold StreamState.expectChecked
    by_cases fin : message.isFin = true
    · -- the sequence of an end was compared with the limit of messages
      have small : message.sequence + 1 < 2 ^ 64 := by
        rw [fin, Bool.true_and, Bool.not_eq_true', Bool.not_eq_false] at valid
        have : message.sequence < 128 := of_decide_eq_true valid
        omega
      rw [if_pos fin, if_pos fin, addU64_eq small]
    · rw [if_neg fin, if_neg fin]
  unfold StreamState.pushChecked StreamState.push
  rw [addU64_eq counted, expected]
  rfl

theorem StreamState.insertChecked_eq :
    state.insertChecked message = some (state.insert message) := by
  unfold StreamState.insertChecked StreamState.insert
  cases message.content.oversized with
  | some actual => rfl
  | none =>
    dsimp only
    split_ifs with invalid seen full
    · rfl
    · rfl
    · rfl
    all_goals
      rw [StreamState.pushChecked_eq (not_le.mp full) invalid]
      simp [*]

theorem Bounded.makeRoomChecked_eq {map : PartStreamsMap} (bounded : Bounded map) (key : StreamKey) :
    map.makeRoomChecked key = some (map.makeRoom key) := by
  have few : ∀ other ∈ map.streams.keys, map.peerStreamsCount other.peer < 2 ^ 64 := by
    intro other _
    exact lt_of_le_of_lt (bounded.perPeer other.peer) (by decide)
  unfold PartStreamsMap.makeRoomChecked PartStreamsMap.makeRoom PartStreamsMap.evictOldestStreamChecked
  split_ifs
  · rfl
  · rfl
  · rw [assertThat_eq few]
    rfl
  · rfl

theorem Bounded.insertChecked_eq {map : PartStreamsMap} (bounded : Bounded map)
    (delivery : Delivery) :
    map.insertChecked delivery.peer delivery.message delivery.now = some (App.receive map delivery) := by
  have swept := bounded.evictOldStreams delivery.now
  unfold PartStreamsMap.insertChecked App.receive PartStreamsMap.insert
  dsimp only
  cases streamIdHeight delivery.message.streamId with
  | none => split_ifs <;> rfl
  | some height =>
    dsimp only
    split_ifs
    · rfl
    · rfl
    · rfl
    rw [swept.makeRoomChecked_eq]
    cases (map.evictOldStreams delivery.now).makeRoom ⟨delivery.peer, delivery.message.streamId⟩ with
    | none => rfl
    | some admitted =>
      dsimp only [Option.bind_eq_bind, Option.bind_some]
      rw [StreamState.insertChecked_eq]
      rfl

/-! ### Decoded messages in the streams -/

/-- Every stream of the later map was there before. -/
def FewerStreams (before after : PartStreamsMap) : Prop :=
  ∀ key state, after.streams.get key = some state → before.streams.get key = some state

namespace FewerStreams

variable {before middle after : PartStreamsMap}

theorem refl : FewerStreams map map := fun _ _ found => found

theorem trans (first : FewerStreams before middle) (second : FewerStreams middle after) :
    FewerStreams before after := fun key state found => first key state (second key state found)

theorem dropStream : FewerStreams map (map.dropStream key) :=
  fun _ _ found => Table.get_of_get_retain found

theorem evictions : Evictions FewerStreams :=
  ⟨refl, trans, fun map _ => refl map, fun map key _ => dropStream map key⟩

theorem setNumValidators (numValidators : ℕ) :
    FewerStreams map (map.setNumValidators numValidators) :=
  evictions.evictOldestStreams { map with maxTotalStreams := App.maxTotalStreams numValidators } _

theorem setCurrentHeight (height : Height) : FewerStreams map (map.setCurrentHeight height) :=
  fun _ _ found => Table.get_of_get_retain found

end FewerStreams

/-- **The map within its limits, with decoded messages only.** -/
structure SaneStreams (map : PartStreamsMap) : Prop where
  bounded : Bounded map
  decoded : ∀ key state, map.streams.get key = some state →
    ∀ message ∈ state.buffer, WellFormed message

variable {delivery : Delivery}

section Streams

variable {map : PartStreamsMap}

theorem SaneStreams.getD (sane : SaneStreams map) (key : StreamKey) (now : ℕ) :
    ∀ message ∈ ((map.streams.get key).getD (.new now)).buffer, WellFormed message := by
  intro message member
  cases found : map.streams.get key with
  | none =>
    rw [found] at member
    cases member
  | some state =>
    rw [found] at member
    exact sane.decoded key state found message member

theorem SaneStreams.fewer {after : PartStreamsMap} (sane : SaneStreams map) (bounded : Bounded after)
    (less : FewerStreams map after) : SaneStreams after :=
  ⟨bounded, fun key state found => sane.decoded key state (less key state found)⟩

theorem SaneStreams.admitted {admitted : PartStreamsMap} (sane : SaneStreams map) {now : ℕ}
    {key : StreamKey} (opened : (map.evictOldStreams now).makeRoom key = some admitted) :
    SaneStreams admitted :=
  sane.fewer ((sane.bounded.evictOldStreams now).admits opened).1
    ((FewerStreams.evictions.evictOldStreams map now).trans (FewerStreams.evictions.makeRoom opened))

/-- The messages of a stream, with one that arrives. -/
theorem SaneStreams.append (sane : SaneStreams map) (decoded : WellFormed delivery.message) :
    ∀ message ∈ ((map.streams.get delivery.key).getD (.new delivery.now)).buffer ++ [delivery.message],
      WellFormed message := by
  intro message member
  rcases List.mem_append.mp member with before | last
  · exact sane.getD delivery.key delivery.now message before
  · rw [List.mem_singleton.mp last]
    exact decoded

theorem SaneStreams.receive (sane : SaneStreams map)
    (decoded : WellFormed delivery.message) : SaneStreams (App.receive map delivery).1 := by
  have bounded := sane.bounded.receive delivery
  rcases receive_cases map delivery with ⟨result, -, dropped⟩ | ⟨-, -, kept⟩ |
    ⟨admitted, height, -, -, -, opened, reached⟩
  · rw [dropped] at bounded ⊢
    exact sane.fewer bounded (FewerStreams.dropStream map delivery.key)
  · rw [kept] at bounded ⊢
    exact sane.fewer bounded (FewerStreams.evictions.evictOldStreams map delivery.now)
  · have admittedSane := sane.admitted opened
    rw [reached, PartStreamsMap.deliver] at bounded ⊢
    rcases effect_cases ((admitted.streams.get delivery.key).getD (.new delivery.now)) height
        delivery.message with ⟨after, kept, grown⟩ | ⟨closed, -⟩ | ⟨finished, -⟩
    · rw [kept] at bounded ⊢
      refine ⟨bounded, fun key state found => ?_⟩
      obtain ⟨-, rfl⟩ | old := Table.get_insert_cases found
      · rcases grown with rfl | ⟨-, rfl⟩
        · exact admittedSane.getD delivery.key delivery.now
        · exact admittedSane.append decoded
      · exact admittedSane.decoded key state old
    · rw [closed] at bounded ⊢
      exact admittedSane.fewer bounded (FewerStreams.dropStream admitted delivery.key)
    · rw [finished] at bounded ⊢
      exact admittedSane.fewer bounded (FewerStreams.dropStream admitted delivery.key)

end Streams

/-! ### Proposals that come out of the streams -/

def dataBytes : ProposalPart → Option (List Byte)
  | .data bytes => some bytes
  | _ => none

/-- What the loop of `ProposalParts::new` has found: its `Init` is one of the parts, and the data
parts are all there, in order. -/
theorem foldlM_absorb_eq_ok {parts : List ProposalPart} {init found : Option ProposalInit}
    {front data : List (List Byte)} {fin signature : Option Signature}
    (absorbed : parts.foldlM ProposalParts.absorb (init, front, fin) =
      .ok (found, data, signature)) :
    (found = init ∨ ∃ one, found = some one ∧ ProposalPart.init one ∈ parts) ∧
      data = front ++ parts.filterMap dataBytes := by
  induction parts generalizing init front fin with
  | nil =>
    obtain ⟨rfl, rfl, rfl⟩ := Except.ok.inj absorbed
    exact ⟨.inl rfl, (List.append_nil _).symm⟩
  | cons part rest ih =>
    rw [List.foldlM_cons] at absorbed
    obtain ⟨next, first, later⟩ := bind_eq_ok.mp absorbed
    cases part with
    | init one =>
      unfold ProposalParts.absorb at first
      dsimp only at first
      split_ifs at first
      obtain rfl := Except.ok.inj first
      obtain ⟨from', same⟩ := ih later
      refine ⟨.inr ?_, same⟩
      rcases from' with rfl | ⟨other, rfl, member⟩
      · exact ⟨one, rfl, List.mem_cons_self ..⟩
      · exact ⟨other, rfl, List.mem_cons_of_mem _ member⟩
    | data bytes =>
      obtain rfl := Except.ok.inj first
      obtain ⟨from', same⟩ := ih later
      refine ⟨from'.imp_right fun ⟨other, here, member⟩ =>
        ⟨other, here, List.mem_cons_of_mem _ member⟩, ?_⟩
      rw [same, List.append_assoc]
      rfl
    | fin one =>
      unfold ProposalParts.absorb at first
      dsimp only at first
      split_ifs at first
      obtain rfl := Except.ok.inj first
      obtain ⟨from', same⟩ := ih later
      exact ⟨from'.imp_right fun ⟨other, here, member⟩ =>
        ⟨other, here, List.mem_cons_of_mem _ member⟩, same⟩

theorem new_eq_ok {parts : List ProposalPart} {proposal : ProposalParts}
    (built : ProposalParts.new parts = .ok proposal) :
    ProposalPart.init proposal.init ∈ parts ∧ proposal.data = parts.filterMap dataBytes := by
  unfold ProposalParts.new at built
  cases absorbed : parts.foldlM ProposalParts.absorb (none, [], none) with
  | error error =>
    rw [absorbed] at built
    cases built
  | ok result =>
    obtain ⟨init, data, fin⟩ := result
    rw [absorbed] at built
    cases init with
    | none => cases built
    | some init =>
      cases fin with
      | none => cases built
      | some signature =>
        obtain rfl := Except.ok.inj built
        obtain ⟨none | ⟨one, same, member⟩, data⟩ := foldlM_absorb_eq_ok absorbed
        · cases none
        · exact ⟨Option.some.inj same ▸ member, data⟩

/-- **Parts that can be handled**: they have a round, and their data fits into a stream. -/
structure SaneParts (parts : ProposalParts) : Prop where
  defined : parts.round ≠ .nil
  small : (parts.data.map List.length).sum ≤ maxMessagesPerStream * chunkSize

theorem sum_dataBytes (buffer : List StreamMessage) :
    (((buffer.filterMap fun message => message.content.intoData).filterMap dataBytes).map
      List.length).sum = (buffer.map fun message => message.content.dataSize).sum := by
  induction buffer with
  | nil => rfl
  | cons message rest ih =>
    obtain ⟨streamId, sequence, content⟩ := message
    cases content with
    | fin => simpa [StreamContent.intoData, StreamContent.dataSize] using ih
    | data part =>
      cases part <;>
        simpa [StreamContent.intoData, StreamContent.dataSize, dataBytes, List.filterMap_cons] using ih

theorem sum_drain (buffer : List StreamMessage) :
    (((StreamState.drain buffer).filterMap dataBytes).map List.length).sum =
      (buffer.map fun message => message.content.dataSize).sum := by
  unfold StreamState.drain
  rw [sum_dataBytes]
  exact ((List.perm_insertionSort _ buffer).map _).sum_eq

theorem assembled_eq_complete {buffer : List StreamMessage} {parts : ProposalParts} :
    assembled buffer = .complete parts ↔
      ProposalParts.new (StreamState.drain buffer) = .ok parts := by
  unfold assembled
  cases ProposalParts.new (StreamState.drain buffer) <;> simp

/-- **A proposal that completes is sane**, whatever the layout of its stream. -/
theorem SaneStreams.complete {map : PartStreamsMap} (sane : SaneStreams map)
    (decoded : WellFormed delivery.message) {parts : ProposalParts}
    (complete : (App.receive map delivery).2 = .complete parts) : SaneParts parts := by
  obtain ⟨admitted, opened, accepts, -, answer⟩ :=
    receive_reportsComplete (complete ▸ trivial : (App.receive map delivery).2.ReportsComplete)
  have admittedSane := sane.admitted opened
  obtain ⟨init, data⟩ := new_eq_ok (assembled_eq_complete.mp (answer.symm.trans complete))
  refine ⟨?_, ?_⟩
  · -- the `Init` stands in a buffered message, and buffered messages were decoded
    obtain ⟨message, member, carried⟩ := List.mem_filterMap.mp init
    rw [List.mem_insertionSort] at member
    have content : message.content = .data (.init parts.init) := by
      cases same : message.content with
      | data part =>
        rw [same] at carried
        rw [Option.some.inj carried]
      | fin =>
        rw [same] at carried
        cases carried
    exact (admittedSane.append decoded message member).defined parts.init content
  · rw [data, sum_drain]
    exact ((admittedSane.bounded.sound_getD delivery.key delivery.now).push accepts).bufferedData_le

/-! ### The checks of a complete proposal hold -/

/-- **Where the node works**: a height from 1 on and some validators; neither the window of pending
heights nor the index of a proposer up to the current round passes the last word. -/
structure Position (ctx : HandlerContext) : Prop where
  height : 1 ≤ ctx.currentHeight.val
  validators : ctx.validatorSet ≠ []
  window : ctx.currentHeight.val + (ctx.maxPendingProposals - 1) < 2 ^ 64
  proposers : ∀ number, ctx.currentRound = .some number →
    ctx.currentHeight.val - 1 + number.val < 2 ^ 64

def Succeeds {α : Type} (checked plain : Option α) : Prop :=
  ∃ result, checked = some result ∧ plain = some result

theorem Succeeds.bind {α β : Type} {checked plain : Option α} {next next' : α → Option β}
    (first : Succeeds checked plain) (later : ∀ result, plain = some result →
      Succeeds (next result) (next' result)) : Succeeds (checked >>= next) (plain >>= next') := by
  obtain ⟨result, here, there⟩ := first
  obtain ⟨final, last, last'⟩ := later result there
  refine ⟨final, ?_, ?_⟩
  · rw [here]
    exact last
  · rw [there]
    exact last'

theorem Succeeds.of_some {α : Type} (result : α) : Succeeds (some result) (some result) :=
  ⟨result, rfl, rfl⟩

section Parts

variable {E : Externals} {engine : Engine} {ctx : HandlerContext} {parts : ProposalParts}

theorem selectProposerChecked_succeeds {validatorSet : ValidatorSet} {height : Height}
    {number : Fin (2 ^ 32)} (some_validator : validatorSet ≠ []) (positive : 1 ≤ height.val)
    (fits : height.val - 1 + number.val < 2 ^ 64) :
    Succeeds (selectProposerChecked validatorSet height (.some number))
      (selectProposer validatorSet height (.some number)) := by
  have index : (height.val + (2 ^ 64 - 1) + number.val) % 2 ^ 64 = height.val - 1 + number.val := by
    rw [show height.val + (2 ^ 64 - 1) + number.val = height.val - 1 + number.val + 2 ^ 64 by omega,
      Nat.add_mod_right, Nat.mod_eq_of_lt fits]
  have within : (height.val - 1 + number.val) % validatorSet.length < validatorSet.length :=
    Nat.mod_lt _ (List.length_pos_iff.mpr some_validator)
  refine ⟨validatorSet[(height.val - 1 + number.val) % validatorSet.length], ?_, ?_⟩
  · unfold selectProposerChecked
    rw [assertThat_eq some_validator, subU64_eq positive, Round.asU32]
    simp only [Option.bind_eq_bind, Option.bind_some, addU64_eq fits]
    exact List.getElem?_eq_getElem within
  · unfold selectProposer
    dsimp only
    rw [index]
    exact List.getElem?_eq_getElem within

theorem validateProposalPartsChecked_eq (expectedProposer : Validator) :
    validateProposalPartsChecked E parts expectedProposer =
      some (validateProposalParts E parts expectedProposer) := by
  unfold validateProposalPartsChecked validateProposalParts
  by_cases same : expectedProposer.address = parts.proposer
  · rw [if_neg (not_not.mpr same), assertThat_eq same, decide_eq_true same, Bool.true_and]
    rfl
  · rw [if_pos same, decide_eq_false same, Bool.false_and]

theorem foldlM_addU64 {data : List (List Byte)} {total : ℕ}
    (fits : total + (data.map List.length).sum < 2 ^ 64) :
    data.foldlM (fun total bytes => addU64 total bytes.length) total =
      some (total + (data.map List.length).sum) := by
  induction data generalizing total with
  | nil => rfl
  | cons bytes rest ih =>
    rw [List.map_cons, List.sum_cons, ← Nat.add_assoc] at fits ⊢
    have first : addU64 total bytes.length = some (total + bytes.length) := addU64_eq (by omega)
    rw [List.foldlM_cons, first]
    exact ih fits

theorem SaneParts.assembleBlockFromPartsChecked_eq (sane : SaneParts parts) :
    assembleBlockFromPartsChecked E parts = some (assembleBlockFromParts E parts) := by
  have small : (parts.data.map List.length).sum < 2 ^ 63 := lt_of_le_of_lt sane.small (by decide)
  have size : dataSizeChecked parts = some (0 + (parts.data.map List.length).sum) :=
    foldlM_addU64 (by omega)
  unfold assembleBlockFromPartsChecked
  rw [size, Nat.zero_add]
  dsimp only [Option.bind_eq_bind, Option.bind_some]
  rw [assertThat_eq small]
  rfl

theorem SaneParts.exists_number (sane : SaneParts parts) : ∃ number, parts.round = .some number := by
  cases round : parts.round with
  | nil => exact absurd round sane.defined
  | some number => exact ⟨number, rfl⟩

theorem Position.incrementBy (position : Position ctx) :
    ∃ last, ctx.currentHeight.incrementBy (ctx.maxPendingProposals - 1) = some last :=
  ⟨_, dif_pos position.window⟩

theorem Position.maybeStorePendingProposalChecked_succeeds (position : Position ctx)
    (sane : SaneParts parts) (db : AppDb) :
    Succeeds (maybeStorePendingProposalChecked E ctx db parts)
      (maybeStorePendingProposal E ctx db parts) := by
  obtain ⟨last, reached⟩ := position.incrementBy
  obtain ⟨number, round⟩ := sane.exists_number
  have encoded : ∃ message, proposalPartsToProto parts = some message := by
    unfold proposalPartsToProto proposalInitToProto
    rw [show parts.init.round = .some number from round]
    exact ⟨_, rfl⟩
  obtain ⟨message, wrote⟩ := encoded
  unfold maybeStorePendingProposalChecked maybeStorePendingProposal insertPendingProposalPartsChecked
    insertPendingProposalParts
  rw [subU64_eq ctx.maxPositive]
  dsimp only [Option.bind_eq_bind, Option.bind_some]
  rw [reached]
  dsimp only [Option.bind_some]
  split_ifs
  · exact .of_some _
  · rw [wrote]
    exact .of_some _
  · rw [wrote]
    exact .of_some _

/-- **The proposer is found** for parts of the current height up to the current round. -/
theorem Position.select_succeeds (position : Position ctx) (sane : SaneParts parts)
    (current : parts.height = ctx.currentHeight) (reached : parts.round ≤ ctx.currentRound) :
    Succeeds (selectProposerChecked ctx.validatorSet parts.height parts.round)
      (resolveExpectedProposer ctx.validatorSet parts) := by
  obtain ⟨number, round⟩ := sane.exists_number
  have fits : ctx.currentHeight.val - 1 + number.val < 2 ^ 64 := by
    rw [round, Round.le_def] at reached
    cases here : ctx.currentRound with
    | nil =>
      rw [here] at reached
      simp only [Round.asI64] at reached
      omega
    | some limit =>
      have := position.proposers limit here
      rw [here] at reached
      simp only [Round.asI64] at reached
      omega
  unfold resolveExpectedProposer
  rw [round, current]
  exact selectProposerChecked_succeeds position.validators position.height fits

theorem Position.processProposalPartsChecked_succeeds (position : Position ctx)
    (sane : SaneParts parts) (db : AppDb) :
    Succeeds (processProposalPartsChecked E ctx db parts) (processProposalParts E ctx db parts) := by
  unfold processProposalPartsChecked processProposalParts
  split_ifs with past future
  · exact .of_some _
  · exact (position.maybeStorePendingProposalChecked_succeeds sane db).bind fun result _ => .of_some _
  · obtain ⟨low, reached⟩ := not_or.mp future
    have current : parts.height = ctx.currentHeight := le_antisymm (not_lt.mp low) (not_lt.mp past)
    rw [assertThat_eq current]
    refine (position.select_succeeds sane current (not_lt.mp reached)).bind fun proposer _ => ?_
    rw [validateProposalPartsChecked_eq]
    dsimp only [Option.bind_eq_bind, Option.bind_some]
    split_ifs
    · rw [sane.assembleBlockFromPartsChecked_eq]
      dsimp only [Option.bind_some]
      cases assembleBlockFromParts E parts <;> exact .of_some _
    · exact .of_some _

theorem Position.onReceivedProposalPartChecked_eq (position : Position ctx) {streams : PartStreamsMap}
    (sane : SaneStreams streams) (decoded : WellFormed delivery.message)
    (world : World) :
    onReceivedProposalPartChecked E engine ctx streams world delivery =
      some (onReceivedProposalPart E engine ctx streams world delivery) := by
  have complete : ∀ parts, (receive streams delivery).2 = .complete parts → SaneParts parts :=
    fun parts => sane.complete decoded
  unfold onReceivedProposalPartChecked onReceivedProposalPart
  rw [sane.bounded.insertChecked_eq]
  generalize receive streams delivery = received at complete
  obtain ⟨inserted, result⟩ := received
  dsimp only [Option.bind_eq_bind, Option.bind_some]
  cases result with
  | complete parts =>
    obtain ⟨outcome, checked, plain⟩ :=
      position.processProposalPartsChecked_succeeds (complete parts rfl) world.db
    have handled : handleCompleteParts E engine ctx world parts =
        concludeParts E engine ctx world parts outcome := by
      unfold handleCompleteParts
      rw [plain]
    dsimp only
    rw [checked, handled]
    rfl
  | pending | stale | invalid error => rfl

end Parts

/-! ### The checks at the start of a round hold -/

/-- **The pending rows can be handled**: they are sane and stand under their own keys. -/
def SaneRows (db : AppDb) : Prop :=
  ∀ key parts, db.pendingProposalParts.get key = some parts →
    key = parts.pendingKey E.keccak ∧ SaneParts parts

section Round

variable {E : Externals} {engine : Engine} {ctx : HandlerContext} {parts : ProposalParts}
  {world : World}

theorem SaneRows.getPendingProposalParts (sane : SaneRows E world.db) {height : Height}
    {round : Round} :
    ∀ parts ∈ getPendingProposalParts world.db height round,
      parts.height = height ∧ parts.round = round ∧ SaneParts parts := by
  intro parts member
  obtain ⟨⟨key, row⟩, filtered, same⟩ := List.mem_map.mp member
  obtain rfl : row = parts := same
  obtain ⟨there, selected⟩ := List.mem_filter.mp filtered
  obtain ⟨atHeight, atRound⟩ := of_decide_eq_true selected
  obtain ⟨stored, fine⟩ := sane key row (Table.get_eq_some.mpr there)
  rw [stored] at atHeight atRound
  exact ⟨atHeight, atRound, fine⟩

theorem Position.processPendingPartChecked_succeeds (position : Position ctx) (sane : SaneParts parts)
    (atHeight : parts.height = ctx.currentHeight) (atRound : parts.round = ctx.currentRound)
    (world : World) :
    Succeeds (processPendingPartChecked E engine ctx world parts)
      (processPendingPart E engine ctx world parts) := by
  unfold processPendingPartChecked processPendingPart
  rw [assertThat_eq atHeight, assertThat_eq atRound]
  refine (position.select_succeeds sane atHeight atRound.le).bind fun proposer _ => ?_
  rw [validateProposalPartsChecked_eq]
  dsimp only [Option.bind_eq_bind, Option.bind_some]
  split_ifs
  · rw [sane.assembleBlockFromPartsChecked_eq]
    dsimp only [Option.bind_some]
    cases assembleBlockFromParts E parts with
    | error error => exact .of_some _
    | ok block =>
      dsimp only
      generalize establishBlockValidity engine world block ctx.previousBlock = established
      obtain ⟨after, verdict⟩ := established
      cases verdict <;> exact .of_some _
  · exact .of_some _

/-- The loop over the pending rows; a turn that succeeds hands its world to the next one. -/
theorem Position.foldlM_processPendingPart_succeeds (position : Position ctx)
    {pending : List ProposalParts} (sane : ∀ parts ∈ pending,
      parts.height = ctx.currentHeight ∧ parts.round = ctx.currentRound ∧ SaneParts parts)
    (world : World) :
    Succeeds (pending.foldlM (processPendingPartChecked E engine ctx) world)
      (processPendingProposalParts E engine ctx world pending) := by
  unfold processPendingProposalParts
  induction pending generalizing world with
  | nil => exact .of_some world
  | cons parts rest ih =>
    obtain ⟨atHeight, atRound, fine⟩ := sane parts (List.mem_cons_self ..)
    rw [List.foldlM_cons, List.foldlM_cons]
    exact (position.processPendingPartChecked_succeeds fine atHeight atRound world).bind
      fun next _ => ih (fun other member => sane other (List.mem_cons_of_mem _ member)) next

theorem mapM_eq_some_of_forall {α β : Type} {f : α → Option β} {values : List α}
    (each : ∀ value ∈ values, ∃ result, f value = some result) :
    ∃ results, values.mapM f = some results := by
  induction values with
  | nil => exact ⟨[], rfl⟩
  | cons value rest ih =>
    obtain ⟨result, here⟩ := each value (List.mem_cons_self ..)
    obtain ⟨results, there⟩ := ih fun other member => each other (List.mem_cons_of_mem _ member)
    refine ⟨result :: results, ?_⟩
    rw [List.mapM_cons, here, there]
    rfl

theorem Position.missedRounds (position : Position ctx) (previous : Round) :
    ∃ proposers, (missedRounds previous ctx.currentRound).mapM
      (selectProposerChecked ctx.validatorSet ctx.currentHeight) = some proposers := by
  refine mapM_eq_some_of_forall fun missed member => ?_
  obtain ⟨number, filtered, rfl⟩ := List.mem_map.mp member
  have below : number < ctx.currentRound.asI64.toNat :=
    List.mem_range.mp (List.mem_filter.mp filtered).1
  cases here : ctx.currentRound with
  | nil =>
    rw [here] at below
    exact absurd below (Nat.not_lt_zero _)
  | some current =>
    rw [here] at below
    have less : number < current.val := below
    have same : (Fin.ofNat (2 ^ 32) number).val = number := Nat.mod_eq_of_lt (less.trans current.isLt)
    have fits : ctx.currentHeight.val - 1 + (Fin.ofNat (2 ^ 32) number).val < 2 ^ 64 := by
      have := position.proposers current here
      omega
    obtain ⟨proposer, found, -⟩ :=
      selectProposerChecked_succeeds position.validators position.height fits
    exact ⟨proposer, found⟩

theorem Position.startedRoundChecked_succeeds (position : Position ctx) (sane : SaneRows E world.db)
    {previous : Round} (defined : ctx.currentRound ≠ .nil) (forward : previous ≤ ctx.currentRound)
    (next : ctx.currentRound.asI64 + 1 < 2 ^ 32) :
    Succeeds (startedRoundChecked E engine ctx world previous)
      (fetchAndProcessPendingProposals E engine ctx world ctx.currentHeight ctx.currentRound) := by
  obtain ⟨proposers, missed⟩ := position.missedRounds previous
  unfold startedRoundChecked fetchAndProcessPendingProposals
  rw [assertThat_eq defined, assertThat_eq forward, missed]
  refine (position.foldlM_processPendingPart_succeeds sane.getPendingProposalParts world).bind
    fun processed _ => ?_
  cases scanned : getUndecidedBlocks processed.db ctx.currentHeight ctx.currentRound with
  | none => exact absurd ((getUndecidedBlocks_eq_none ..).mp scanned) (not_le.mpr next)
  | some stored => exact .of_some _

/-- **No start of the last round succeeds**: its scan has no upper end. -/
theorem startedRoundChecked_lastRound {previous : Round} (last : 2 ^ 32 ≤ ctx.currentRound.asI64 + 1) :
    startedRoundChecked E engine ctx world previous = none := by
  unfold startedRoundChecked
  simp only [fun db => (getUndecidedBlocks_eq_none db ctx.currentHeight _).mpr last,
    Option.bind_eq_bind, Option.bind_none, Option.bind_fun_none]

end Round

/-! ### Runs -/

/-- What peers reach of the node: the streams, and the store with the engine's answers. -/
structure Receiver where
  streams : PartStreamsMap
  world : World

/-- What happens to it: bytes of a peer arrive while the node works at some height and round, a
round starts after another one, the height or the number of validators changes, pending rows are
cleaned. -/
inductive ReceiverInput where
  | bytes (ctx : HandlerContext) (peer : PeerId) (bytes : List Byte) (now : ℕ)
  | startedRound (ctx : HandlerContext) (previous : Round)
  | setCurrentHeight (height : Height)
  | setNumValidators (numValidators : ℕ)
  | clean (keep : BlockKey → ProposalParts → Bool)

/-- The node calls the handlers in positions that make sense; consensus never goes back a round, and
never starts the last one. -/
def ReceiverInput.Working : ReceiverInput → Prop
  | bytes ctx _ _ _ => Position ctx
  | startedRound ctx previous =>
    Position ctx ∧ ctx.currentRound ≠ .nil ∧ previous ≤ ctx.currentRound ∧
      ctx.currentRound.asI64 + 1 < 2 ^ 32
  | _ => True

section Runs

variable (stream : WireFormat Proto.StreamMessage) (part : WireFormat Proto.ProposalPart)
  (E : Externals) (engine : Engine)

/-- One step; `none` is a panic. Bytes that are no message are an error of the codec. -/
def receiverStep (receiver : Receiver) : ReceiverInput → Option Receiver
  | .bytes ctx peer bytes now =>
    match decodeStreamMessage stream part bytes with
    | .error _ => some receiver
    | .ok message =>
      (onReceivedProposalPartChecked E engine ctx receiver.streams receiver.world
        ⟨peer, message, now⟩).map fun result => ⟨result.1, result.2.1⟩
  | .startedRound ctx previous =>
    (startedRoundChecked E engine ctx receiver.world previous).map fun result =>
      { receiver with world := result.1 }
  | .setCurrentHeight height =>
    some { receiver with streams := receiver.streams.setCurrentHeight height }
  | .setNumValidators numValidators =>
    some { receiver with streams := receiver.streams.setNumValidators numValidators }
  | .clean keep => some { receiver with world := { receiver.world with db := { receiver.world.db with
      pendingProposalParts := receiver.world.db.pendingProposalParts.retain keep } } }

/-- What the run keeps: decoded messages within the limits, and rows that can be handled. -/
structure SaneReceiver (receiver : Receiver) : Prop where
  streams : SaneStreams receiver.streams
  rows : SaneRows E receiver.world.db

variable {stream part E engine}

theorem SaneRows.of_frame {before after : AppDb} {arrived : Option ProposalParts}
    (sane : SaneRows E before) (frame : IngestFrame E arrived before after)
    (fine : ∀ parts, arrived = some parts → SaneParts parts) : SaneRows E after := by
  intro key parts found
  rcases frame.pending key parts found with old | ⟨arrives, stored⟩
  · exact sane key parts old
  · exact ⟨stored, fine parts arrives⟩

theorem onReceivedProposalPart_streams {ctx : HandlerContext} {streams : PartStreamsMap}
    {world : World} :
    (onReceivedProposalPart E engine ctx streams world delivery).1 = (receive streams delivery).1 ∨
      (onReceivedProposalPart E engine ctx streams world delivery).1 =
        (receive streams delivery).1.markClosed delivery.key := by
  unfold onReceivedProposalPart
  generalize receive streams delivery = received
  obtain ⟨inserted, result⟩ := received
  cases result with
  | complete parts =>
    dsimp only
    split_ifs
    · exact .inl rfl
    · exact .inr rfl
  | pending | stale | invalid error => exact .inl rfl

theorem InsertResult.completed_eq_some {result : InsertResult} {parts : ProposalParts} :
    result.completed = some parts ↔ result = .complete parts := by
  cases result <;> simp [InsertResult.completed]

theorem SaneReceiver.step {receiver : Receiver} (sane : SaneReceiver E receiver)
    {input : ReceiverInput}
    (working : input.Working) :
    ∃ after, receiverStep stream part E engine receiver input = some after ∧
      SaneReceiver E after := by
  cases input with
  | bytes ctx peer bytes now =>
    cases decoded : decodeStreamMessage stream part bytes with
    | error error =>
      refine ⟨receiver, ?_, sane⟩
      unfold receiverStep
      dsimp only
      rw [decoded]
    | ok message =>
      have wellFormed := decodeStreamMessage_wellFormed decoded
      have position : Position ctx := working
      have handled : onReceivedProposalPartChecked E engine ctx receiver.streams receiver.world
          ⟨peer, message, now⟩ = some (onReceivedProposalPart E engine ctx receiver.streams
            receiver.world ⟨peer, message, now⟩) :=
        position.onReceivedProposalPartChecked_eq sane.streams wellFormed receiver.world
      have received : SaneStreams (receive receiver.streams ⟨peer, message, now⟩).1 :=
        sane.streams.receive wellFormed
      refine ⟨⟨(onReceivedProposalPart E engine ctx receiver.streams receiver.world
        ⟨peer, message, now⟩).1, (onReceivedProposalPart E engine ctx receiver.streams receiver.world
        ⟨peer, message, now⟩).2.1⟩, ?_, ?_, ?_⟩
      · unfold receiverStep
        dsimp only
        rw [decoded]
        dsimp only
        rw [handled]
        rfl
      · rcases onReceivedProposalPart_streams with same | closed
        · exact same ▸ received
        · exact closed ▸ ⟨received.bounded.markClosed _, received.decoded⟩
      · refine sane.rows.of_frame (ingestFrame_onReceivedProposalPart receiver.streams _) ?_
        intro parts completed
        exact sane.streams.complete wellFormed (InsertResult.completed_eq_some.mp completed)
  | startedRound ctx previous =>
    obtain ⟨position, defined, forward, next⟩ := working
    obtain ⟨result, checked, plain⟩ : Succeeds (startedRoundChecked E engine ctx receiver.world previous)
        (fetchAndProcessPendingProposals E engine ctx receiver.world ctx.currentHeight
          ctx.currentRound) := position.startedRoundChecked_succeeds sane.rows defined forward next
    refine ⟨{ receiver with world := result.1 }, ?_, sane.streams, ?_⟩
    · unfold receiverStep
      dsimp only
      rw [checked]
      rfl
    · have frame : IngestFrame E none receiver.world.db result.1.db :=
        ingestFrame_fetchAndProcessPendingProposals plain
      exact sane.rows.of_frame frame fun parts impossible => by cases impossible
  | setCurrentHeight height =>
    exact ⟨_, rfl, sane.streams.fewer (sane.streams.bounded.setCurrentHeight height)
      (FewerStreams.setCurrentHeight _ height), sane.rows⟩
  | setNumValidators numValidators =>
    exact ⟨_, rfl, sane.streams.fewer (sane.streams.bounded.setNumValidators numValidators)
      (FewerStreams.setNumValidators _ numValidators), sane.rows⟩
  | clean keep =>
    exact ⟨_, rfl, sane.streams, fun key parts found =>
      sane.rows key parts (Table.get_of_get_retain found)⟩

/-- **Bytes from peers never panic the node.** Whatever bytes arrive, in whatever order and number,
and whatever heights, rounds and validators the node works with in between, every message is
decoded, put into its stream, classified, stored or validated, and every round start reads and
processes the pending rows, without a failed assertion, `expect` or checked operation; as long as
the node works below the last heights of a `u64` and starts no round that has no next one. -/
theorem peer_bytes_never_panic (height : Height) (numValidators now : ℕ) (world : World)
    (rows : SaneRows E world.db) (inputs : List ReceiverInput)
    (working : ∀ input ∈ inputs, input.Working) :
    ∃ after, inputs.foldlM (receiverStep stream part E engine)
      ⟨.new height numValidators now, world⟩ = some after := by
  have begins : SaneReceiver E ⟨.new height numValidators now, world⟩ :=
    ⟨⟨bounded_new height numValidators now, fun key state found => by cases found⟩, rows⟩
  generalize (⟨.new height numValidators now, world⟩ : Receiver) = receiver at begins ⊢
  induction inputs generalizing receiver with
  | nil => exact ⟨receiver, rfl⟩
  | cons input rest ih =>
    obtain ⟨next, stepped, sane⟩ : ∃ next, receiverStep stream part E engine receiver input = some next ∧
        SaneReceiver E next := begins.step (working input (List.mem_cons_self ..))
    rw [List.foldlM_cons, stepped]
    exact ih (fun other member => working other (List.mem_cons_of_mem _ member)) next sane

end Runs

/-- A node at height 1, in round 0, with one validator. -/
def firstContext : HandlerContext where
  currentHeight := 1
  currentRound := .some 0
  validatorSet := [⟨3, 7, 1⟩]
  maxPendingProposals := 4
  maxPositive := Nat.succ_pos 3
  previousBlock := none
  localTime := none

/-- Bytes that are no message, the sample stream in protobuf, and the start of a round. -/
def firstInputs : List ReceiverInput :=
  ([[0, 0, 0], []] ++ (sampleMessages.mapM
    (encodeStreamMessage (Protobuf.wireFormat _) (Protobuf.wireFormat _))).getD []).map
      (fun bytes => .bytes firstContext [1] bytes 100) ++ [.startedRound firstContext .nil]

/-- The node after the inputs. -/
def firstRun : Option Receiver :=
  firstInputs.foldlM (receiverStep (Protobuf.wireFormat _) (Protobuf.wireFormat _) sampleExternals
    fun _ _ => .valid) ⟨.new 1 1 0, ⟨∅, []⟩⟩

theorem peer_bytes_never_panic_first : (∃ after, firstRun = some after) ∧
    firstRun.map (fun after => after.world.db.undecidedBlocks.len) = some 1 := by
  have position : Position firstContext := by
    refine ⟨by decide, by decide, by decide, ?_⟩
    intro number same
    rw [← Round.some.inj same]
    decide
  refine ⟨?_, by decide +kernel⟩
  refine peer_bytes_never_panic 1 1 0 ⟨∅, []⟩ (fun key parts found => by cases found) _ ?_
  intro input member
  rcases List.mem_append.mp member with bytes | start
  · obtain ⟨bytes, -, rfl⟩ := List.mem_map.mp bytes
    exact position
  · rw [List.mem_singleton.mp start]
    exact ⟨position, by decide, by decide, by decide⟩

/-! ### The last height -/

section Top

variable {stream : WireFormat Proto.StreamMessage} {part : WireFormat Proto.ProposalPart}
  {E : Externals} {engine : Engine} {ctx : HandlerContext}

def messageStep (E : Externals) (engine : Engine) (ctx : HandlerContext) (receiver : Receiver)
    (message : StreamMessage) : Option Receiver :=
  (onReceivedProposalPartChecked E engine ctx receiver.streams receiver.world
    ⟨[1], message, 0⟩).map fun result => ⟨result.1, result.2.1⟩

theorem foldlM_encoded {messages : List StreamMessage} {sent : List (List Byte)}
    (sized : ∀ message ∈ messages, Sized message)
    (encoded : messages.mapM (encodeStreamMessage stream part) = some sent) (receiver : Receiver) :
    (sent.map fun bytes => ReceiverInput.bytes ctx [1] bytes 0).foldlM
        (receiverStep stream part E engine) receiver =
      messages.foldlM (messageStep E engine ctx) receiver := by
  induction messages generalizing sent receiver with
  | nil =>
    obtain rfl : [] = sent := Option.some.inj encoded
    rfl
  | cons message rest ih =>
    rw [List.mapM_cons] at encoded
    obtain ⟨bytes, first, others⟩ := Option.bind_eq_some_iff.mp encoded
    obtain ⟨tail, later, same⟩ := Option.bind_eq_some_iff.mp others
    obtain rfl : bytes :: tail = sent := Option.some.inj same
    have decoded : decodeStreamMessage stream part bytes = .ok message :=
      inverts_streamMessage message bytes (sized message (List.mem_cons_self ..)) first
    have step : receiverStep stream part E engine receiver (.bytes ctx [1] bytes 0) =
        messageStep E engine ctx receiver message := by
      unfold receiverStep messageStep
      dsimp only
      rw [decoded]
    rw [List.map_cons, List.foldlM_cons, List.foldlM_cons, step]
    cases messageStep E engine ctx receiver message with
    | none => rfl
    | some next => exact ih (fun other member => sized other (List.mem_cons_of_mem _ member)) later next

/-- The same node at the last height. -/
def topContext : HandlerContext := { firstContext with currentHeight := .new (2 ^ 64 - 1) }

/-- A proposal without data for the next round of that height. -/
def topMessages : List StreamMessage :=
  [⟨newStreamId (.new (2 ^ 64 - 1)) 1 0, 0, .data (.init ⟨.new (2 ^ 64 - 1), .some 1, .nil, 3⟩)⟩,
    ⟨newStreamId (.new (2 ^ 64 - 1)) 1 0, 1, .data (.fin (List.replicate 64 0))⟩,
    ⟨newStreamId (.new (2 ^ 64 - 1)) 1 0, 2, .fin⟩]

/-- **At the last height the window of pending proposals has no end**: three messages of a peer
panic a node there, in any faithful format. -/
theorem height_at_the_top_panics : 1 ≤ topContext.currentHeight.val ∧ topContext.validatorSet ≠ [] ∧
      ∀ (stream : WireFormat Proto.StreamMessage) (part : WireFormat Proto.ProposalPart),
        ∃ sent, topMessages.mapM (encodeStreamMessage stream part) = some sent ∧
          (sent.map fun bytes => ReceiverInput.bytes topContext [1] bytes 0).foldlM
            (receiverStep stream part (bareExternals [] fun _ => none) fun _ _ => .valid)
            ⟨.new (.new (2 ^ 64 - 1)) 1 0, ⟨∅, []⟩⟩ = none := by
  refine ⟨by decide, by decide, fun stream part => ?_⟩
  have sized : ∀ message ∈ topMessages, Sized message := by
    intro message member
    simp only [topMessages, List.mem_cons, List.not_mem_nil, or_false] at member
    rcases member with rfl | rfl | rfl
    · refine ⟨fun data same => ?_, by decide⟩
      rw [← StreamContent.data.inj same]
      trivial
    · refine ⟨fun data same => ?_, by decide⟩
      rw [← StreamContent.data.inj same]
      exact List.length_replicate
    · refine ⟨fun data same => ?_, by decide⟩
      cases same
  refine ⟨_, rfl, ?_⟩
  rw [foldlM_encoded sized rfl]
  exact Option.isNone_iff_eq_none.mp (by decide +kernel)

end Top

end ArcNode.App
