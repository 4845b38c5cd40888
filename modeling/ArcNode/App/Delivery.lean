/-
**Streaming end to end.**

The receiver is a machine whose inputs are message deliveries. `Untouched key before after` is the
frame: a step leaves the stream of `key` alone. Every delivery for another key is such a step as
long as neither the age sweep nor the total cap evicts the stream (**`receive_untouched`**). Over a
run, the messages of one stream delivered in any order, repeated and mixed with other
streams, stay pending until the last missing one arrives (**`receive_pending`**), and that one
yields the parts the proposer made (**`deliver_complete`**), from which **`streamed_block_arrives`**
assembles the block.
-/

import ArcNode.App.Reassembly
import ArcNode.Lib.Machine

namespace ArcNode.App

open ArcNode.Lib ArcNode.Types

structure Delivery where
  peer : PeerId
  message : StreamMessage
  now : ℕ
  deriving DecidableEq

def Delivery.key (delivery : Delivery) : StreamKey := ⟨delivery.peer, delivery.message.streamId⟩

variable (map : PartStreamsMap)

def receive (delivery : Delivery) : PartStreamsMap × InsertResult :=
  map.insert delivery.peer delivery.message delivery.now

/-! ### Evictions -/

/-- The stream that is pushed out when `key` opens a stream in a full map. -/
def PartStreamsMap.displaced (key : StreamKey) : Option StreamKey :=
  if (map.streams.get key).isSome ∨ maxStreamsPerPeer ≤ map.peerStreamsCount key.peer ∨
      map.streams.len < map.maxTotalStreams then none
  else map.busiestPeer.bind map.oldestStreamOf

/-- **A delivery does not evict a stream**: neither because of its age nor for lack of room. -/
def Spares (key : StreamKey) (map : PartStreamsMap) (delivery : Delivery) : Prop :=
  (maxStreamAge ≤ delivery.now - map.lastEviction → key ∉ map.expiredKeys delivery.now) ∧
    (map.evictOldStreams delivery.now).displaced delivery.key ≠ some key
  deriving Decidable

/-- **A stream may open**: at the message that opens it the peer has fewer streams than its
limit. -/
def HasRoom (key : StreamKey) (map : PartStreamsMap) (delivery : Delivery) : Prop :=
  delivery.key = key → map.streams.get key = none →
    (map.evictOldStreams delivery.now).peerStreamsCount key.peer < maxStreamsPerPeer
  deriving Decidable

theorem makeRoom_cases {map admitted : PartStreamsMap} {key : StreamKey}
    (room : map.makeRoom key = some admitted) :
    ((map.streams.get key).isSome = true ∧ admitted = map) ∨
      (map.streams.get key = none ∧ map.peerStreamsCount key.peer < maxStreamsPerPeer ∧
        ((map.streams.len < map.maxTotalStreams ∧ admitted = map) ∨
          (map.maxTotalStreams ≤ map.streams.len ∧ admitted = map.evictOldestStream))) := by
  unfold PartStreamsMap.makeRoom at room
  by_cases live : (map.streams.get key).isSome = true
  · rw [if_pos live, Option.some.injEq] at room
    exact .inl ⟨live, room.symm⟩
  have absent : map.streams.get key = none := by simpa using live
  by_cases busy : maxStreamsPerPeer ≤ map.peerStreamsCount key.peer
  · rw [if_neg live, if_pos busy] at room
    cases room
  by_cases full : map.maxTotalStreams ≤ map.streams.len
  · rw [if_neg live, if_neg busy, if_pos full, Option.some.injEq] at room
    exact .inr ⟨absent, not_le.mp busy, .inr ⟨full, room.symm⟩⟩
  · rw [if_neg live, if_neg busy, if_neg full, Option.some.injEq] at room
    exact .inr ⟨absent, not_le.mp busy, .inl ⟨not_le.mp full, room.symm⟩⟩

/-! ### The frame -/

/-- **One stream is left alone.** -/
structure Untouched (key : StreamKey) (before after : PartStreamsMap) : Prop where
  stream : after.streams.get key = before.streams.get key
  closed : key ∈ after.closedKeys → key ∈ before.closedKeys
  height : after.currentHeight = before.currentHeight

namespace Untouched

variable {key other : StreamKey} {before middle after : PartStreamsMap}

theorem refl : Untouched key map map := ⟨rfl, id, rfl⟩

theorem trans (first : Untouched key before middle) (second : Untouched key middle after) :
    Untouched key before after :=
  ⟨second.stream.trans first.stream, first.closed ∘ second.closed, second.height.trans first.height⟩

theorem dropStream (ne : key ≠ other) : Untouched key map (map.dropStream other) := by
  refine ⟨?_, id, rfl⟩
  show (map.streams.remove other).get key = _
  rw [Table.get_remove, if_neg ne]

theorem markClosed (ne : key ≠ other) : Untouched key map (map.markClosed other) := by
  refine ⟨rfl, ?_, rfl⟩
  intro closed
  have listed : key ∈ map.closedKeys.erase other ++ [other] := by
    unfold PartStreamsMap.markClosed at closed
    by_cases full : maxClosedStreams < (map.closedKeys.erase other ++ [other]).length
    · simp only [full, if_true] at closed
      exact List.mem_of_mem_drop closed
    · simpa only [full, if_false] using closed
  rcases List.mem_append.mp listed with old | new
  · exact List.mem_of_mem_erase old
  · exact absurd (List.mem_singleton.mp new) ne

theorem evict (ne : key ≠ other) : Untouched key map (map.evict other) :=
  (dropStream map ne).trans (markClosed _ ne)

theorem evictAll {keys : List StreamKey} (spared : key ∉ keys) :
    Untouched key map (keys.foldl PartStreamsMap.evict map) := by
  induction keys generalizing map with
  | nil => exact refl map
  | cons other rest ih =>
    rw [List.mem_cons, not_or] at spared
    exact (evict map spared.1).trans (ih (map.evict other) spared.2)

theorem evictOldStreams {map : PartStreamsMap} {now : ℕ}
    (spared : maxStreamAge ≤ now - map.lastEviction → key ∉ map.expiredKeys now) :
    Untouched key map (map.evictOldStreams now) := by
  unfold PartStreamsMap.evictOldStreams
  by_cases early : now - map.lastEviction < maxStreamAge
  · rw [if_pos early]
    exact refl map
  · rw [if_neg early]
    have stamped : Untouched key map { map with lastEviction := now } := ⟨rfl, id, rfl⟩
    exact stamped.trans (evictAll _ (spared (not_lt.mp early)))

theorem makeRoom {map admitted : PartStreamsMap} (spared : map.displaced other ≠ some key)
    (room : map.makeRoom other = some admitted) : Untouched key map admitted := by
  rcases makeRoom_cases room with ⟨-, rfl⟩ | ⟨absent, free, ⟨-, rfl⟩ | ⟨full, rfl⟩⟩
  · exact refl _
  · exact refl _
  · unfold PartStreamsMap.displaced at spared
    rw [if_neg (by simp [absent, free, full])] at spared
    unfold PartStreamsMap.evictOldestStream
    cases oldest : map.busiestPeer.bind map.oldestStreamOf with
    | none => exact refl map
    | some evicted => exact evict map fun same => spared (same ▸ oldest)

theorem insertStream (state : StreamState) (ne : key ≠ other) :
    Untouched key map { map with streams := map.streams.insert other state } := by
  refine ⟨?_, id, rfl⟩
  show (map.streams.insert other state).get key = _
  rw [Table.get_insert_of_ne _ _ ne]

/-- A message reaches only its own stream. -/
theorem deliver (streamHeight : Height) (message : StreamMessage) (now : ℕ)
    (ne : key ≠ other) : Untouched key map (map.deliver other streamHeight message now).1 := by
  unfold PartStreamsMap.deliver
  cases (((map.streams.get other).getD (.new now)).effect streamHeight message).1 with
  | keep state => exact insertStream map state ne
  | close => exact evict map ne
  | finish => exact dropStream map ne

end Untouched

/-- Why a message is turned away at the door: its stream id is not one, or its height is past. -/
def refusal (current : Height) (id : StreamId) : Option InsertResult :=
  if id.length ≠ streamIdLen then some (.invalid (.invalidStreamIdLength id.length streamIdLen))
  else
    match streamIdHeight id with
    | none => some (.invalid (.invalidStreamIdLength id.length streamIdLen))
    | some height => if height < current then some .stale else none

/-- **A delivery by cases**: it is refused with its stream, it is dropped after the sweep, or it
reaches its stream. -/
theorem receive_cases (delivery : Delivery) :
    (∃ result, refusal map.currentHeight delivery.message.streamId = some result ∧
        receive map delivery = (map.dropStream delivery.key, result)) ∨
      (refusal map.currentHeight delivery.message.streamId = none ∧
        (delivery.key ∈ (map.evictOldStreams delivery.now).closedKeys ∨
          (map.evictOldStreams delivery.now).makeRoom delivery.key = none) ∧
        receive map delivery = (map.evictOldStreams delivery.now, .pending)) ∨
      ∃ admitted height, refusal map.currentHeight delivery.message.streamId = none ∧
        streamIdHeight delivery.message.streamId = some height ∧
        delivery.key ∉ (map.evictOldStreams delivery.now).closedKeys ∧
        (map.evictOldStreams delivery.now).makeRoom delivery.key = some admitted ∧
        receive map delivery =
          admitted.deliver delivery.key height delivery.message delivery.now := by
  unfold receive PartStreamsMap.insert refusal
  by_cases wrong : delivery.message.streamId.length ≠ streamIdLen
  · rw [if_pos wrong, if_pos wrong]
    exact .inl ⟨_, rfl, rfl⟩
  rw [if_neg wrong, if_neg wrong]
  cases encoded : streamIdHeight delivery.message.streamId with
  | none => exact .inl ⟨_, rfl, rfl⟩
  | some height =>
    by_cases stale : height < map.currentHeight
    · exact .inl ⟨_, if_pos stale, if_pos stale⟩
    have passes : (if height < map.currentHeight then some InsertResult.stale else none) = none :=
      if_neg stale
    by_cases closed : delivery.key ∈ (map.evictOldStreams delivery.now).closedKeys
    · exact .inr (.inl ⟨passes, .inl closed, (if_neg stale).trans (if_pos closed)⟩)
    cases admitted : (map.evictOldStreams delivery.now).makeRoom delivery.key with
    | none =>
      refine .inr (.inl ⟨passes, .inr rfl, ((if_neg stale).trans (if_neg closed)).trans ?_⟩)
      unfold Delivery.key at admitted
      rw [admitted]
    | some opened =>
      refine .inr (.inr ⟨opened, height, passes, rfl, closed, rfl,
        ((if_neg stale).trans (if_neg closed)).trans ?_⟩)
      unfold Delivery.key at admitted ⊢
      rw [admitted]

theorem receive_untouched {key : StreamKey} {map : PartStreamsMap} {delivery : Delivery}
    (spares : Spares key map delivery) (ne : key ≠ delivery.key) :
    Untouched key map (receive map delivery).1 := by
  have swept := Untouched.evictOldStreams spares.1
  rcases receive_cases map delivery with ⟨result, -, dropped⟩ | ⟨-, -, kept⟩ |
    ⟨admitted, height, -, -, -, opened, reached⟩
  · rw [dropped]
    exact Untouched.dropStream map ne
  · rw [kept]
    exact swept
  · rw [reached]
    exact (swept.trans (Untouched.makeRoom spares.2 opened)).trans
      (Untouched.deliver admitted height delivery.message delivery.now ne)

/-! ### Receiving one stream -/

/-- **The map has received some messages of a stream**: the stream is not closed and holds exactly
these messages; a stream that is not live is about to be opened and holds none. -/
structure Receiving (key : StreamKey) (parts : List ProposalPart) (height : Height)
    (map : PartStreamsMap) (received : List StreamMessage) : Prop where
  atHeight : map.currentHeight = height
  notClosed : key ∉ map.closedKeys
  collecting : ∀ now, Collecting (streamMessages key.streamId parts) height
    ((map.streams.get key).getD (.new now))
  buffered : ∀ now message, message ∈ ((map.streams.get key).getD (.new now)).buffer ↔
    message ∈ received

section Receiving

variable {key : StreamKey} {parts : List ProposalPart} {height : Height}
  {map after : PartStreamsMap} {received : List StreamMessage} {delivery : Delivery}

theorem receiving_nil (atHeight : map.currentHeight = height) (notClosed : key ∉ map.closedKeys)
    (notLive : map.streams.get key = none) : Receiving key parts height map [] where
  atHeight := atHeight
  notClosed := notClosed
  collecting now := by
    rw [notLive]
    exact collecting_new _ _ now
  buffered now message := by
    rw [notLive]
    rfl

theorem exists_makeRoom (room : (map.streams.get key).isSome = true ∨
    map.peerStreamsCount key.peer < maxStreamsPerPeer) :
    ∃ admitted, map.makeRoom key = some admitted := by
  unfold PartStreamsMap.makeRoom
  by_cases live : (map.streams.get key).isSome = true
  · exact ⟨map, if_pos live⟩
  have free := room.resolve_left live
  rw [if_neg live, if_neg (not_le.mpr free)]
  by_cases full : map.maxTotalStreams ≤ map.streams.len
  · exact ⟨map.evictOldestStream, if_pos full⟩
  · exact ⟨map, if_neg full⟩

variable (receiving : Receiving key parts height map received)

include receiving

theorem Receiving.of_untouched (untouched : Untouched key map after) :
    Receiving key parts height after received where
  atHeight := untouched.height.trans receiving.atHeight
  notClosed closed := receiving.notClosed (untouched.closed closed)
  collecting now := by
    rw [untouched.stream]
    exact receiving.collecting now
  buffered now message := by
    rw [untouched.stream]
    exact receiving.buffered now message

theorem receive_own (own : delivery.key = key) (length : key.streamId.length = streamIdLen)
    (encoded : streamIdHeight key.streamId = some height) (spares : Spares key map delivery)
    (room : HasRoom key map delivery) :
    ∃ admitted, Receiving key parts height admitted received ∧
      receive map delivery = admitted.deliver key height delivery.message delivery.now := by
  have untouched := Untouched.evictOldStreams spares.1
  have swept := receiving.of_untouched untouched
  have place : ((map.evictOldStreams delivery.now).streams.get key).isSome = true ∨
      (map.evictOldStreams delivery.now).peerStreamsCount key.peer < maxStreamsPerPeer := by
    -- a live stream has survived the sweep, so only the first message needs a slot
    rw [untouched.stream]
    cases live : map.streams.get key with
    | none => exact .inr (room own live)
    | some state => exact .inl rfl
  obtain ⟨admitted, opened⟩ := exists_makeRoom place
  have displaced := spares.2
  rw [own] at displaced
  refine ⟨admitted, swept.of_untouched (Untouched.makeRoom displaced opened), ?_⟩
  have current : ¬ height < map.currentHeight := by
    rw [receiving.atHeight]
    exact lt_irrefl height
  subst own
  have wanted : ¬ delivery.message.streamId.length ≠ streamIdLen := not_not.mpr length
  have announced : streamIdHeight delivery.message.streamId = some height := encoded
  unfold receive PartStreamsMap.insert
  rw [if_neg wanted, announced]
  show (if height < map.currentHeight then _ else _) = _
  rw [if_neg current]
  refine (if_neg swept.notClosed).trans ?_
  unfold Delivery.key at opened ⊢
  rw [opened]

theorem Receiving.insertStream {state : StreamState} {received' : List StreamMessage}
    (collecting : Collecting (streamMessages key.streamId parts) height state)
    (buffered : ∀ message, message ∈ state.buffer ↔ message ∈ received') :
    Receiving key parts height { map with streams := map.streams.insert key state }
      received' where
  atHeight := receiving.atHeight
  notClosed := receiving.notClosed
  collecting now := by
    rw [Table.get_insert_self]
    exact collecting
  buffered now message := by
    rw [Table.get_insert_self]
    exact buffered message

section Deliver

variable {message missing : StreamMessage} {now : ℕ}

theorem deliver_pending (streamable : Streamable height parts)
    (member : message ∈ streamMessages key.streamId parts)
    (wanted : missing ∈ streamMessages key.streamId parts) (absent : missing ∉ received)
    (other : missing ≠ message) :
    (map.deliver key height message now).2 = .pending ∧
      Receiving key parts height (map.deliver key height message now).1
        (received ++ [message]) := by
  have collecting := receiving.collecting now
  have buffered := receiving.buffered now
  unfold PartStreamsMap.deliver StreamState.effect
  generalize (map.streams.get key).getD (.new now) = state at collecting buffered
  by_cases present : message ∈ state.buffer
  · rw [collecting.insert_of_mem streamable member present]
    refine ⟨rfl, receiving.insertStream collecting fun candidate => ?_⟩
    rw [buffered, List.mem_append, List.mem_singleton]
    refine ⟨.inl, ?_⟩
    rintro (known | rfl)
    · exact known
    · exact (buffered _).mp present
  · have pushed := collecting.push streamable member present
    have partly : ¬ (state.push message).hasAll = true := by
      rw [pushed.hasAll_iff streamable]
      intro all
      rcases List.mem_append.mp (all missing wanted) with old | new
      · exact absent ((buffered missing).mp old)
      · exact other (List.mem_singleton.mp new)
    rw [collecting.insert_of_notMem streamable member present, if_neg partly]
    have waiting : Collecting (streamMessages key.streamId parts) height
        { state.push message with isComplete := false } :=
      ⟨pushed.distinct, pushed.known, pushed.seen, pushed.counted, pushed.agreed,
        pushed.announced, pushed.ended, pushed.expected⟩
    have listed : ∀ candidate, candidate ∈ state.buffer ++ [message] ↔
        candidate ∈ received ++ [message] := by
      intro candidate
      rw [List.mem_append, List.mem_append, buffered]
    have kept := receiving.insertStream waiting listed
    cases announced : (state.push message).height with
    | none => exact ⟨rfl, kept⟩
    | some initHeight =>
      have agrees : ¬ initHeight ≠ height := not_not.mpr (pushed.agreed _ announced)
      simp only [StreamInsertResult.effect, if_neg agrees]
      exact ⟨trivial, kept⟩

theorem deliver_complete (streamable : Streamable height parts)
    (member : message ∈ streamMessages key.streamId parts) (fresh : message ∉ received)
    (others : ∀ candidate ∈ streamMessages key.streamId parts,
      candidate ≠ message → candidate ∈ received)
    {proposal : ProposalParts} (assembled : ProposalParts.new parts = .ok proposal)
    (sameHeight : proposal.height = height) :
    (map.deliver key height message now).2 = .complete proposal := by
  have collecting := receiving.collecting now
  have buffered := receiving.buffered now
  unfold PartStreamsMap.deliver StreamState.effect
  generalize (map.streams.get key).getD (.new now) = state at collecting buffered
  have absent : message ∉ state.buffer := fun present => fresh ((buffered message).mp present)
  have pushed := collecting.push streamable member absent
  have all : (state.push message).hasAll = true := by
    rw [pushed.hasAll_iff streamable]
    intro candidate wanted
    by_cases same : candidate = message
    · exact List.mem_append.mpr (.inr (List.mem_singleton.mpr same))
    · exact List.mem_append.mpr (.inl ((buffered candidate).mpr (others candidate wanted same)))
  rw [collecting.insert_of_notMem streamable member absent, if_pos all]
  have agrees : ¬ proposal.height ≠ height := not_not.mpr sameHeight
  simp only [StreamInsertResult.effect, assembled, if_neg agrees]

end Deliver

/-! ### A whole run -/

def ownMessages (key : StreamKey) (deliveries : List Delivery) : List StreamMessage :=
  (deliveries.filter fun delivery => delivery.key = key).map Delivery.message

def AnsweredPending (key : StreamKey) (map : PartStreamsMap) (delivery : Delivery) : Prop :=
  delivery.key = key → (receive map delivery).2 = .pending

theorem receive_step (streamable : Streamable height parts)
    (length : key.streamId.length = streamIdLen) (encoded : streamIdHeight key.streamId = some height)
    (honest : delivery.key = key → delivery.message ∈ streamMessages key.streamId parts)
    {missing : StreamMessage} (wanted : missing ∈ streamMessages key.streamId parts)
    (absent : missing ∉ received ++ ownMessages key [delivery])
    (spares : Spares key map delivery) (room : HasRoom key map delivery) :
    AnsweredPending key map delivery ∧ Receiving key parts height (receive map delivery).1
        (received ++ ownMessages key [delivery]) := by
  by_cases own : delivery.key = key
  · have listed : ownMessages key [delivery] = [delivery.message] := by
      simp [ownMessages, own]
    rw [listed] at absent ⊢
    rw [List.mem_append, not_or, List.mem_singleton] at absent
    obtain ⟨admitted, opened, reached⟩ :=
      receive_own receiving own length encoded spares room
    obtain ⟨pending, kept⟩ :=
      deliver_pending opened streamable (honest own) wanted absent.1 absent.2
    refine ⟨fun _ => ?_, ?_⟩
    · rw [reached]
      exact pending
    · rw [reached]
      exact kept
  · have none : ownMessages key [delivery] = [] := by
      simp [ownMessages, own]
    rw [none, List.append_nil]
    exact ⟨fun same => absurd same own,
      receiving.of_untouched (receive_untouched spares (Ne.symm own))⟩

omit receiving in
theorem ownMessages_cons (delivery : Delivery) (rest : List Delivery) :
    ownMessages key (delivery :: rest) = ownMessages key [delivery] ++ ownMessages key rest := by
  unfold ownMessages
  rw [← List.map_append, ← List.filter_append]
  rfl

/-- **Until the last missing message, every message of the stream is answered as pending.** -/
theorem receive_pending {deliveries : List Delivery}
    (streamable : Streamable height parts) (length : key.streamId.length = streamIdLen)
    (encoded : streamIdHeight key.streamId = some height)
    (honest : ∀ delivery ∈ deliveries, delivery.key = key →
      delivery.message ∈ streamMessages key.streamId parts)
    {missing : StreamMessage} (wanted : missing ∈ streamMessages key.streamId parts)
    (absent : missing ∉ received ++ ownMessages key deliveries)
    (spared : Along receive (Spares key) map deliveries)
    (room : Along receive (HasRoom key) map deliveries) :
    Along receive (AnsweredPending key) map deliveries ∧
      Receiving key parts height (run receive map deliveries)
        (received ++ ownMessages key deliveries) := by
  -- the invariant carries the messages received so far, so the induction generalises over them
  induction deliveries generalizing map received with
  | nil =>
    refine ⟨trivial, ?_⟩
    show Receiving key parts height map (received ++ [])
    rw [List.append_nil]
    exact receiving
  | cons delivery rest ih =>
    rw [ownMessages_cons, ← List.append_assoc] at absent ⊢
    have early : missing ∉ received ++ ownMessages key [delivery] :=
      fun present => absent (List.mem_append.mpr (.inl present))
    obtain ⟨pending, kept⟩ := receive_step receiving streamable length encoded
      (honest delivery List.mem_cons_self) wanted early spared.1 room.1
    obtain ⟨later, final⟩ := ih kept
      (fun next there => honest next (List.mem_cons_of_mem _ there)) absent spared.2 room.2
    exact ⟨⟨pending, later⟩, final⟩

end Receiving

/-! ### A block end to end -/

@[simp] theorem length_newStreamId (height : Height) (round nonce : Fin (2 ^ 32)) :
    (newStreamId height round nonce).length = streamIdLen := by
  simp [newStreamId, streamIdLen]

theorem newStreamId_injective {height height' : Height} {round round' nonce nonce' : Fin (2 ^ 32)}
    (same : newStreamId height round nonce = newStreamId height' round' nonce') :
    height = height' ∧ round = round' ∧ nonce = nonce' := by
  obtain ⟨heights, rest⟩ := beBytes_append_inj height.isLt height'.isLt same
  obtain ⟨rounds, nonces⟩ := beBytes_append_inj round.isLt round'.isLt rest
  exact ⟨Height.ext heights, Fin.ext rounds, Fin.ext (beBytes_inj nonce.isLt nonce'.isLt nonces)⟩

theorem streamIdHeight_newStreamId (height : Height) (round nonce : Fin (2 ^ 32)) :
    streamIdHeight (newStreamId height round nonce) = some height := by
  have leading : (newStreamId height round nonce).take 8 = beBytes 8 height.val :=
    List.take_left' (length_beBytes 8 height.val)
  unfold streamIdHeight
  rw [length_newStreamId, if_pos (by decide), leading, beValue_beBytes height.isLt]
  exact congrArg some (Height.ext (Nat.mod_eq_of_lt height.isLt))

theorem streamable_partsOf {E : Externals} {block : ConsensusBlock} {signature : Signature}
    (fits : (E.asSszBytes block.executionPayload).length ≤ 125 * chunkSize) :
    Streamable block.height (partsOf E block signature).toList where
  short := by
    have few : (payloadChunks E block.executionPayload).length ≤ 125 := chunks_length_le fits
    simp only [ProposalParts.toList, partsOf, List.length_cons, List.length_append, List.length_map,
      List.length_nil, maxMessagesPerStream]
    omega
  fits := by
    intro part member
    simp only [ProposalParts.toList, List.mem_cons, List.mem_append, List.mem_map,
      List.not_mem_nil, or_false] at member
    rcases member with rfl | ⟨piece, there, rfl⟩ | rfl
    · rfl
    · exact if_neg (not_lt.mpr (length_of_mem_chunks there))
    · rfl
  sameHeight := by
    intro part member announced carried
    simp only [ProposalParts.toList, List.mem_cons, List.mem_append, List.mem_map,
      List.not_mem_nil, or_false] at member
    rcases member with rfl | ⟨piece, there, rfl⟩ | rfl
    · exact (Option.some.inj carried).symm
    · cases carried
    · cases carried
  announced := ⟨_, List.mem_cons_self, rfl⟩

/-- **A streamed block arrives.** Its messages, delivered in any order, repeated and mixed with
other streams, are pending until the last missing one. That one yields parts with the signed hash,
which the receiver accepts from the selected proposer and assembles into the block. -/
theorem streamed_block_arrives {E : Externals} {signBytes : BlockHash → Option Signature}
    {block : ConsensusBlock} {round nonce : Fin (2 ^ 32)} {peer : PeerId} {map : PartStreamsMap}
    {messages : List StreamMessage} {signature : Signature} {front : List Delivery}
    {final : Delivery} {key : StreamKey} {validatorSet : ValidatorSet} {proposer : Validator}
    (opened : key = ⟨peer, newStreamId block.height round nonce⟩)
    (prepared : prepareStream E signBytes key.streamId block = some (messages, signature))
    (fits : (E.asSszBytes block.executionPayload).length ≤ 125 * chunkSize)
    (atHeight : map.currentHeight = block.height) (notLive : map.streams.get key = none)
    (notClosed : key ∉ map.closedKeys)
    (honest : ∀ delivery ∈ front ++ [final], delivery.key = key → delivery.message ∈ messages)
    (own : final.key = key) (missing : final.message ∉ ownMessages key front)
    (others : ∀ message ∈ messages, message ≠ final.message → message ∈ ownMessages key front)
    (spared : Along receive (Spares key) map (front ++ [final]))
    (room : Along receive (HasRoom key) map (front ++ [final]))
    (selected : selectProposer validatorSet block.height block.round = some proposer)
    (signer : proposer.address = block.proposer)
    (signs : ∀ digest signature, signBytes digest = some signature →
      E.verifySignedBytes digest signature proposer.publicKey = some true)
    (restreamed : ∀ signature, block.signature = some signature →
      E.verifySignedBytes (signedHash E block) signature proposer.publicKey = some true)
    (roundTrip : E.fromSszBytes (E.asSszBytes block.executionPayload) =
      .ok block.executionPayload) :
    Along receive (AnsweredPending key) map front ∧
      ∃ parts, (receive (run receive map front) final).2 = .complete parts ∧
        parts.hash E.keccak = signedHash E block ∧
        resolveExpectedProposer validatorSet parts = some proposer ∧
        validateProposalParts E parts proposer = true ∧
        assembleBlockFromParts E parts =
          .ok { block with validity := .valid, signature := some signature } := by
  obtain ⟨rfl, signed⟩ := prepareStream_eq_some prepared
  have streamable : Streamable block.height (partsOf E block signature).toList :=
    streamable_partsOf fits
  have length : key.streamId.length = streamIdLen := by
    rw [opened]
    exact length_newStreamId block.height round nonce
  have encoded : streamIdHeight key.streamId = some block.height := by
    rw [opened]
    exact streamIdHeight_newStreamId block.height round nonce
  have wanted := honest final (by simp) own
  obtain ⟨sparedFront, sparedFinal, -⟩ := along_append.mp spared
  obtain ⟨roomFront, roomFinal, -⟩ := along_append.mp room
  obtain ⟨pending, receiving⟩ := receive_pending (receiving_nil atHeight notClosed notLive)
    streamable length encoded
    (fun delivery there => honest delivery (List.mem_append.mpr (.inl there))) wanted
    (by simpa using missing) sparedFront roomFront
  rw [List.nil_append] at receiving
  obtain ⟨admitted, ready, reached⟩ :=
    receive_own receiving own length encoded sparedFinal roomFinal
  refine ⟨pending, partsOf E block signature, ?_, hash_partsOf block signature, selected, ?_,
    assembleBlockFromParts_partsOf roundTrip⟩
  · rw [reached]
    exact deliver_complete ready streamable wanted missing others
      (ProposalParts.new_toList _) rfl
  · exact validateProposalParts_partsOf signer
      (signed.elim (restreamed signature) (signs _ signature))

section Sample

/-- A block of the first height with a bare payload. -/
def sampleBlock : ConsensusBlock where
  height := 1
  round := .some 0
  validRound := .nil
  proposer := 3
  validity := .valid
  executionPayload := ⟨5, 1, 1000, 9, []⟩
  signature := none

def sampleDigest : BlockHash :=
  42808921171755063027234018551052963643824801000467050242265650940140810341906

def sampleSignBytes (digest : BlockHash) : Option Signature := some (bareSignature 7 digest)

def sampleExternals : Externals :=
  bareExternals [(ProposalParts.preimage 1 (.some 0) (bareSszBytes ⟨5, 1, 1000, 9, []⟩),
    sampleDigest)] fun payload => some payload.blockHash

def sampleKey : StreamKey := ⟨[1], newStreamId 1 0 0⟩

/-- The sample stream and one message of it. -/
def sampleMessages : List StreamMessage :=
  streamMessages sampleKey.streamId
    (partsOf sampleExternals sampleBlock (bareSignature 7 sampleDigest)).toList

/-- The message with a sequence number, from the peer of the sample stream. -/
def sampleDelivery (sequence : ℕ) : Delivery :=
  ⟨[1], sampleMessages.getD sequence ⟨[], 0, .fin⟩, 100⟩

/-- The end of the stream first, the chunk twice, and another peer's message in between. -/
def sampleFront : List Delivery :=
  [sampleDelivery 3, sampleDelivery 1, ⟨[2], ⟨newStreamId 1 0 5, 0, .fin⟩, 100⟩, sampleDelivery 1,
    sampleDelivery 0]

theorem sampleSignBytes_verified (digest : BlockHash) (signature : Signature)
    (signed : sampleSignBytes digest = some signature) :
    sampleExternals.verifySignedBytes digest signature 7 = some true := by
  have same : bareSignature 7 digest = signature := Option.some.inj signed
  rw [← same]
  exact congrArg some (decide_eq_true rfl)

theorem streamed_block_arrives_sample :
    Along receive (AnsweredPending sampleKey) (.new 1 4 0) sampleFront ∧
      ∃ parts, (receive (run receive (.new 1 4 0) sampleFront) (sampleDelivery 2)).2 =
          .complete parts ∧
        parts.hash sampleExternals.keccak = signedHash sampleExternals sampleBlock ∧
        resolveExpectedProposer [⟨3, 7, 10⟩, ⟨4, 8, 10⟩] parts = some ⟨3, 7, 10⟩ ∧
        validateProposalParts sampleExternals parts ⟨3, 7, 10⟩ = true ∧
        assembleBlockFromParts sampleExternals parts = .ok
          { sampleBlock with validity := .valid, signature := some (bareSignature 7 sampleDigest) } :=
  streamed_block_arrives (rfl : sampleKey = ⟨[1], newStreamId sampleBlock.height 0 0⟩)
    (by decide +kernel : prepareStream sampleExternals sampleSignBytes sampleKey.streamId
      sampleBlock = some (sampleMessages, bareSignature 7 sampleDigest))
    (by decide +kernel) rfl rfl (by decide) (by decide +kernel) (by decide +kernel)
    (by decide +kernel) (by decide +kernel) (by decide +kernel) (by decide +kernel)
    rfl rfl sampleSignBytes_verified (fun _ existing => (Option.some_ne_none _ existing.symm).elim)
    (by decide +kernel)

/-- Four streams of one peer, each with one message. -/
def busyMap : PartStreamsMap :=
  run receive (.new 1 4 0) [⟨[1], ⟨newStreamId 1 0 1, 0, .fin⟩, 100⟩,
    ⟨[1], ⟨newStreamId 1 0 2, 1, .fin⟩, 100⟩, ⟨[1], ⟨newStreamId 1 0 3, 1, .fin⟩, 100⟩,
    ⟨[1], ⟨newStreamId 1 0 4, 1, .fin⟩, 100⟩]

/-- **The fifth stream of a peer is dropped without an eviction**: every message of the sample
stream is delivered once, in order, to a map with room in total, and none is answered by parts. -/
theorem fifth_stream_never_completes :
    prepareStream sampleExternals sampleSignBytes sampleKey.streamId sampleBlock =
        some (sampleMessages, bareSignature 7 sampleDigest) ∧
      busyMap.currentHeight = sampleBlock.height ∧ busyMap.streams.get sampleKey = none ∧
      sampleKey ∉ busyMap.closedKeys ∧ busyMap.streams.len < busyMap.maxTotalStreams ∧
      ownMessages sampleKey ([0, 1, 2, 3].map sampleDelivery) = sampleMessages ∧
      Along receive (Spares sampleKey) busyMap ([0, 1, 2, 3].map sampleDelivery) ∧
      outputs receive busyMap ([0, 1, 2, 3].map sampleDelivery) =
        [.pending, .pending, .pending, .pending] := by
  decide +kernel

end Sample

end ArcNode.App
