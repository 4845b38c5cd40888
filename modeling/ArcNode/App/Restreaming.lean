/-
**A proposal that is streamed again.**

A receiver drops what arrives for a closed stream, because a retry comes under a fresh stream id.
The proposer makes the id from height, round and a counter of its process (`nextStreamId_step`).
While the counter does not repeat, the key of a new stream is unknown to the receiver, whatever it
has evicted or closed, so a full delivery completes (**`retry_completes`**). A process that starts
again counts from zero, and streams under the ids of the process before it
(`restarted_process_reuses_id`).
-/

import ArcNode.App.Node
import ArcNode.App.StreamBounds

namespace ArcNode.App.Restreaming

open ArcNode.Lib ArcNode.Types

/-! ### The keys a map knows -/

/-- The key that an operation is about. -/
def about : MapInput → Option StreamKey
  | .insert delivery => some delivery.key
  | .markClosed key => some key
  | .setCurrentHeight _ => none
  | .setNumValidators _ => none

/-- **All keys that are closed or have a stream are of a kind.** -/
structure KnownWithin (P : StreamKey → Prop) (map : PartStreamsMap) : Prop where
  closed : ∀ key ∈ map.closedKeys, P key
  live : ∀ key ∈ map.streams.keys, P key

variable {inputs : List MapInput}

namespace KnownWithin

variable {P Q : StreamKey → Prop} {map : PartStreamsMap} {key : StreamKey}

theorem mono (known : KnownWithin P map) (wider : ∀ key, P key → Q key) : KnownWithin Q map :=
  ⟨fun key there => wider key (known.closed key there), fun key there => wider key (known.live key there)⟩

theorem dropStream (known : KnownWithin P map) (key : StreamKey) : KnownWithin P
    (map.dropStream key) :=
  ⟨known.closed, fun other there => known.live other (Table.mem_keys_remove.mp there).2⟩

theorem markClosed (known : KnownWithin P map) (holds : P key) : KnownWithin P
    (map.markClosed key) := by
  refine ⟨fun other there => ?_, known.live⟩
  by_cases same : other = key
  · rwa [same]
  · exact known.closed other ((Untouched.markClosed map same).closed there)

theorem evict (known : KnownWithin P map) (holds : P key) : KnownWithin P (map.evict key) :=
  (known.dropStream key).markClosed holds

theorem evictions : Evictions fun before after => KnownWithin P before → KnownWithin P after :=
  ⟨fun _ => id, fun first second => second ∘ first, fun _ _ known => { known with },
    fun _ key there known => known.evict (known.live key there)⟩

theorem apply (known : KnownWithin P map) (holds : P key) (effect : StreamEffect) :
    KnownWithin P (effect.apply map key) := by
  cases effect with
  | keep state =>
    refine ⟨known.closed, fun other there => ?_⟩
    rcases Table.mem_keys_insert.mp there with rfl | old
    · exact holds
    · exact known.live other old
  | close => exact known.evict holds
  | finish => exact known.dropStream key

theorem mapStep (known : KnownWithin P map) {input : MapInput} (holds : ∀ key ∈ about input, P key) :
    KnownWithin P (mapStep map input).1 := by
  cases input with
  | insert delivery =>
    have own : P delivery.key := holds _ rfl
    show KnownWithin P (receive map delivery).1
    rcases receive_cases map delivery with ⟨result, -, dropped⟩ | ⟨-, -, kept⟩ |
      ⟨admitted, height, -, -, -, opened, reached⟩
    · rw [dropped]
      exact known.dropStream _
    · rw [kept]
      exact evictions.evictOldStreams map delivery.now known
    · rw [reached, PartStreamsMap.deliver]
      exact (evictions.makeRoom opened (evictions.evictOldStreams map delivery.now known)).apply own _
  | setCurrentHeight height =>
    exact ⟨known.closed, fun key there => known.live key ((Table.keys_retain_sublist _ _).subset there)⟩
  | setNumValidators numValidators =>
    exact evictions.evictOldestStreams { map with maxTotalStreams := maxTotalStreams numValidators } _
      ⟨known.closed, known.live⟩
  | markClosed key => exact known.markClosed (holds key rfl)

theorem run (known : KnownWithin P map)
    (holds : ∀ input ∈ inputs, ∀ key ∈ about input, P key) :
    KnownWithin P (run App.mapStep map inputs) := by
  induction inputs generalizing map with
  | nil => exact known
  | cons input rest ih =>
    exact ih (known.mapStep (holds input List.mem_cons_self))
      fun other there => holds other (List.mem_cons_of_mem _ there)

end KnownWithin

/-! ### A full delivery -/

def deliveries (inputs : List MapInput) : List Delivery :=
  inputs.filterMap fun
    | .insert delivery => some delivery
    | _ => none

/-- **An operation leaves a stream alone**: no message evicts it, its peer has room for it, and what
is no message does not touch it. -/
def LeavesAlone (key : StreamKey) (map : PartStreamsMap) : MapInput → Prop
  | .insert delivery => Spares key map delivery ∧ HasRoom key map delivery
  | input => Untouched key map (mapStep map input).1

/-- **A stream is delivered in full** at its height and within the limits: genuine messages, in any
order, any of them repeatedly, among other operations, up to the last one that was missing. -/
structure DeliveredInFull (key : StreamKey) (proposal : ProposalParts) (map : PartStreamsMap)
    (inputs : List MapInput) (final : Delivery) : Prop where
  fits : Streamable proposal.height proposal.toList
  current : map.currentHeight = proposal.height
  genuine : ∀ delivery ∈ deliveries inputs ++ [final], delivery.key = key →
    delivery.message ∈ streamMessages key.streamId proposal.toList
  own : final.key = key
  missing : final.message ∉ ownMessages key (deliveries inputs)
  others : ∀ message ∈ streamMessages key.streamId proposal.toList, message ≠ final.message →
    message ∈ ownMessages key (deliveries inputs)
  alone : Along mapStep (LeavesAlone key) map (inputs ++ [.insert final])

section Delivered

variable {key : StreamKey} {map : PartStreamsMap}

theorem receiving_run {parts : List ProposalPart} {height : Height} {received : List StreamMessage}
    {missing : StreamMessage} (receiving : Receiving key parts height map received)
    (streamable : Streamable height parts) (length : key.streamId.length = streamIdLen)
    (encoded : streamIdHeight key.streamId = some height)
    (genuine : ∀ delivery ∈ deliveries inputs, delivery.key = key →
      delivery.message ∈ streamMessages key.streamId parts)
    (wanted : missing ∈ streamMessages key.streamId parts)
    (absent : missing ∉ received ++ ownMessages key (deliveries inputs))
    (alone : Along mapStep (LeavesAlone key) map inputs) :
    Receiving key parts height (run mapStep map inputs)
      (received ++ ownMessages key (deliveries inputs)) := by
  -- as for messages alone: what is no message leaves the stream as it is
  induction inputs generalizing map received with
  | nil => exact (List.append_nil received).symm ▸ receiving
  | cons input rest ih =>
    cases input with
    | insert delivery =>
      have split : ownMessages key (deliveries (.insert delivery :: rest)) =
          ownMessages key [delivery] ++ ownMessages key (deliveries rest) := ownMessages_cons _ _
      rw [split, ← List.append_assoc] at absent ⊢
      have early : missing ∉ received ++ ownMessages key [delivery] :=
        fun present => absent (List.mem_append.mpr (.inl present))
      obtain ⟨-, kept⟩ := receive_step receiving streamable length encoded
        (genuine delivery List.mem_cons_self) wanted early alone.1.1 alone.1.2
      exact ih kept (fun next there => genuine next (List.mem_cons_of_mem _ there)) absent alone.2
    | setCurrentHeight height => exact ih (receiving.of_untouched alone.1) genuine absent alone.2
    | setNumValidators numValidators => exact ih (receiving.of_untouched alone.1) genuine absent alone.2
    | markClosed other => exact ih (receiving.of_untouched alone.1) genuine absent alone.2

theorem completes_of_unknown {proposal : ProposalParts} {final : Delivery}
    (unknown : KnownWithin (· ≠ key) map) (length : key.streamId.length = streamIdLen)
    (encoded : streamIdHeight key.streamId = some proposal.height)
    (delivered : DeliveredInFull key proposal map inputs final) :
    (receive (run mapStep map inputs) final).2 = .complete proposal := by
  have notClosed : key ∉ map.closedKeys := fun there => unknown.closed key there rfl
  have notLive : map.streams.get key = none := by
    by_contra live
    exact unknown.live key (Table.mem_keys.mpr (Option.isSome_iff_ne_none.mpr live)) rfl
  have wanted := delivered.genuine final (by simp) delivered.own
  obtain ⟨front, ⟨spares, room⟩, -⟩ := along_append.mp delivered.alone
  have receiving := receiving_run (receiving_nil delivered.current notClosed notLive)
    delivered.fits length encoded
    (fun delivery there => delivered.genuine delivery (List.mem_append.mpr (.inl there))) wanted
    delivered.missing front
  obtain ⟨admitted, ready, reached⟩ := receive_own receiving delivered.own length encoded spares room
  rw [reached]
  exact deliver_complete ready delivered.fits wanted delivered.missing delivered.others
    (ProposalParts.new_toList _) rfl

end Delivered

/-! ### The proposer and the receiver -/

/-- The counter of the proposer's process, what this process and the earlier ones have streamed, all
ids so far, and the receiver's map. -/
structure System where
  streamNonce : Fin (2 ^ 32)
  current : List (Height × Fin (2 ^ 32))
  earlier : List (Height × Fin (2 ^ 32))
  sent : List StreamId
  map : PartStreamsMap

/-- What happens: the proposer streams a block of a height and round, its process is started again,
or the receiver handles an operation. -/
inductive Event where
  | streams (height : Height) (round : Fin (2 ^ 32))
  | restarts
  | receiver (input : MapInput)

def System.start (map : PartStreamsMap) : System := ⟨0, [], [], [], map⟩

variable (system : System)

def System.nextId (height : Height) (round : Fin (2 ^ 32)) : StreamId :=
  newStreamId height round system.streamNonce

def step : Event → System × Option StreamId
  | .streams height round =>
    ({ system with
        streamNonce := system.streamNonce + 1
        current := (height, round) :: system.current
        sent := system.nextId height round :: system.sent }, some (system.nextId height round))
  | .restarts =>
    ({ system with streamNonce := 0, current := [], earlier := system.current ++ system.earlier }, none)
  | .receiver input => ({ system with map := (mapStep system.map input).1 }, none)

theorem nextStreamId_step {state : State} {system : System} (height : Height) (round : Fin (2 ^ 32))
    (same : state.streamNonce = system.streamNonce) :
    ∃ used, nextStreamId state height (.some round) = some (system.nextId height round, used) ∧
      used.streamNonce = (step system (.streams height round)).1.streamNonce := by
  refine ⟨{ state with streamNonce := state.streamNonce + 1 }, ?_, congrArg (· + 1) same⟩
  rw [System.nextId, ← same]
  rfl

/-- What the receiver gets under the peer id of the proposer, and closes, is of streams of the
proposer. -/
def Genuine (peer : PeerId) (system : System) : Event → Prop
  | .receiver input => ∀ key ∈ about input, key.peer = peer → key.streamId ∈ system.sent
  | _ => True

/-- **The counter does not repeat**: no earlier process has streamed at this height and round, and
this one has not used up its counter. -/
def Unrepeated : Event → Prop
  | .streams height round => (height, round) ∉ system.earlier ∧ system.current.length < 2 ^ 32
  | _ => True

/-- **Retries are not blocked**: a stream has an id that was never used before, and completes once
it is delivered in full, whatever the receiver has done before and does until the first message. -/
def Retries (peer : PeerId) (system : System) (event : Event) : Prop :=
  ∀ height round, event = .streams height round → system.nextId height round ∉ system.sent ∧
    ∀ between inputs final proposal, proposal.height = height →
      (∀ input ∈ between, ⟨peer, system.nextId height round⟩ ∉ about input) →
      DeliveredInFull ⟨peer, system.nextId height round⟩ proposal (run mapStep system.map between) inputs
        final →
      (receive (run mapStep system.map (between ++ inputs)) final).2 = .complete proposal

instance (peer : PeerId) (system : System) : ∀ event, Decidable (Genuine peer system event)
  | .streams _ _ => inferInstanceAs (Decidable True)
  | .restarts => inferInstanceAs (Decidable True)
  | .receiver _ => inferInstanceAs (Decidable (∀ _ ∈ _, _ → _))

instance (system : System) : ∀ event, Decidable (Unrepeated system event)
  | .streams _ _ => inferInstanceAs (Decidable (_ ∧ _))
  | .restarts => inferInstanceAs (Decidable True)
  | .receiver _ => inferInstanceAs (Decidable True)

/-- What is known of the ids, and what the receiver knows of the proposer. -/
structure Inv (peer : PeerId) (system : System) : Prop where
  counted : system.streamNonce.val = system.current.length % 2 ^ 32
  sent : ∀ id ∈ system.sent, ∃ height round nonce, id = newStreamId height round nonce ∧
    ((height, round) ∈ system.earlier ∨
      ((height, round) ∈ system.current ∧ nonce.val < system.current.length))
  known : KnownWithin (fun key => key.peer = peer → key.streamId ∈ system.sent) system.map

section Runs

variable {peer : PeerId} {system : System}

theorem inv_step (event : Event) (inv : Inv peer system) (genuine : Genuine peer system event) :
    Inv peer (step system event).1 := by
  cases event with
  | streams height round =>
    refine ⟨?_, ?_, inv.known.mono fun key own same => List.mem_cons_of_mem _ (own same)⟩
    · show (system.streamNonce + 1).val = (system.current.length + 1) % 2 ^ 32
      rw [Fin.val_add, inv.counted]
      show (_ + 1) % 2 ^ 32 = _
      omega
    · intro id there
      rcases List.mem_cons.mp there with rfl | old
      · refine ⟨height, round, system.streamNonce, rfl, .inr ⟨List.mem_cons_self, ?_⟩⟩
        show system.streamNonce.val < system.current.length + 1
        rw [inv.counted]
        exact Nat.lt_succ_of_le (Nat.mod_le _ _)
      · obtain ⟨height', round', nonce, rfl, before | ⟨here, less⟩⟩ := inv.sent id old
        · exact ⟨_, _, nonce, rfl, .inl before⟩
        · exact ⟨_, _, nonce, rfl, .inr ⟨List.mem_cons_of_mem _ here, Nat.lt_succ_of_lt less⟩⟩
  | restarts =>
    refine ⟨rfl, fun id there => ?_, inv.known⟩
    obtain ⟨height, round, nonce, rfl, before⟩ := inv.sent id there
    exact ⟨_, _, nonce, rfl, .inl (List.mem_append.mpr (before.symm.imp_left And.left))⟩
  | receiver input => exact ⟨inv.counted, inv.sent, inv.known.mapStep genuine⟩

theorem nextId_not_mem_sent (inv : Inv peer system) {height : Height} {round : Fin (2 ^ 32)}
    (unrepeated : Unrepeated system (.streams height round)) :
    system.nextId height round ∉ system.sent := by
  obtain ⟨unstreamed, few⟩ := unrepeated
  intro there
  obtain ⟨height', round', nonce, same, before⟩ := inv.sent _ there
  obtain ⟨rfl, rfl, rfl⟩ := newStreamId_injective same
  rcases before with before | ⟨-, less⟩
  · exact unstreamed before
  · rw [inv.counted, Nat.mod_eq_of_lt few] at less
    exact lt_irrefl _ less

theorem retries_of_inv (event : Event) (inv : Inv peer system)
    (unrepeated : Unrepeated system event) :
    Retries peer system event := by
  rintro height round rfl
  have fresh := nextId_not_mem_sent inv unrepeated
  refine ⟨fresh, ?_⟩
  rintro between inputs final proposal rfl elsewhere delivered
  have unknown : KnownWithin (· ≠ ⟨peer, system.nextId proposal.height round⟩) system.map :=
    inv.known.mono fun key own same => fresh (by simpa [same] using own)
  rw [run_append]
  refine completes_of_unknown (unknown.run fun input there key concerned => ?_) (length_newStreamId _ _ _)
    (streamIdHeight_newStreamId _ _ _) delivered
  rintro rfl
  exact elsewhere input there concerned

/-- **A retry is never blocked** in a run in which the counter does not repeat: every stream of the
proposer has a fresh id and completes at the receiver once it is delivered in full. -/
theorem retry_completes {map : PartStreamsMap} {events : List Event}
    (unknown : KnownWithin (fun key => key.peer ≠ peer) map)
    (genuine : Along step (Genuine peer) (.start map) events)
    (unrepeated : Along step Unrepeated (.start map) events) :
    Along step (Retries peer) (.start map) events := by
  have begins : Inv peer (.start map) :=
    ⟨rfl, (fun _ there => nomatch there), unknown.mono fun _ other own => absurd own other⟩
  exact along_of_invariant (fun _ event inv meets => inv_step event inv meets.1)
    (fun _ event inv meets => retries_of_inv event inv meets.2) begins (genuine.and unrepeated)

end Runs

/-! ### A process that starts again -/

/-- The first part of the sample stream arrives; a message of another peer comes a minute later, and
the stream has aged out. -/
def agedEvents : List Event :=
  [.streams 1 0, .receiver (.insert (sampleDelivery 0)),
    .receiver (.insert ⟨[2], ⟨newStreamId 1 0 5, 0, .fin⟩, 70000⟩)]

/-- What the sample stream carries. -/
def sampleParts : ProposalParts := partsOf sampleExternals sampleBlock (bareSignature 7 sampleDigest)

/-- The key under which it is streamed again. -/
def retryKey : StreamKey := ⟨[1], newStreamId 1 0 1⟩

def retryDelivery (sequence : ℕ) : Delivery :=
  ⟨[1], (streamMessages retryKey.streamId sampleParts.toList).getD sequence ⟨[], 0, .fin⟩, 70100⟩

theorem delivered_retry : DeliveredInFull retryKey sampleParts
    (run step (.start (.new 1 4 0)) agedEvents).map
    ([3, 1, 1, 0].map fun sequence => .insert (retryDelivery sequence)) (retryDelivery 2) where
  fits := streamable_partsOf (by decide +kernel)
  current := by decide +kernel
  genuine := by decide +kernel
  own := by decide +kernel
  missing := by decide +kernel
  others := by decide +kernel
  alone := by
    refine ⟨?_, ?_, ?_, ?_, ?_, trivial⟩ <;> unfold LeavesAlone <;> decide +kernel

/-- The stream that aged out is streamed again and delivered in full, the end first and a chunk
twice. -/
theorem retry_completes_aged :
    Along step (Retries [1]) (.start (.new 1 4 0)) (agedEvents ++ [.streams 1 0]) ∧
      (receive (run mapStep (run step (.start (.new 1 4 0)) agedEvents).map
        ([3, 1, 1, 0].map fun sequence => .insert (retryDelivery sequence))) (retryDelivery 2)).2 =
          .complete sampleParts := by
  have retries : Along step (Retries [1]) (.start (.new 1 4 0)) (agedEvents ++ [.streams 1 0]) :=
    retry_completes ⟨(fun _ there => nomatch there), fun _ there => nomatch there⟩ (by decide +kernel)
      (by decide +kernel)
  obtain ⟨-, last, -⟩ := along_append.mp retries
  exact ⟨retries, (last 1 0 rfl).2 [] _ _ sampleParts rfl (fun _ there => nomatch there) delivered_retry⟩

/-- **A restarted process reuses an id**: after the restart the block is streamed under the id of
the stream that aged out, and every message of it is dropped. -/
theorem restarted_process_reuses_id :
    let system := run step (.start (.new 1 4 0)) (agedEvents ++ [.restarts])
    Along step (Genuine [1]) (.start (.new 1 4 0)) (agedEvents ++ [.restarts, .streams 1 0]) ∧
      system.nextId 1 0 ∈ system.sent ∧ sampleKey = ⟨[1], system.nextId 1 0⟩ ∧
      sampleKey ∈ system.map.closedKeys ∧ system.map.currentHeight = sampleBlock.height ∧
      outputs mapStep system.map
          ([0, 1, 2, 3].map fun sequence => .insert { sampleDelivery sequence with now := 70100 }) =
        List.replicate 4 (some .pending) := by
  decide +kernel

end ArcNode.App.Restreaming
