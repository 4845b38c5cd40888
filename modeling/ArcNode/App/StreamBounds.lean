/-
**The streams map stays within its limits.**

The map is driven by messages of arbitrary peers, by changes of the height and of the validator set,
and by the handler that closes keys. `Bounded` is the invariant: few streams in total and per peer,
keys of current heights, streams with few, distinct and small messages, few closed keys. Every exit
of `insert` keeps it (**`Bounded.receive`**, **`streams_stay_bounded`**). A stream within its limits
holds one message per sequence number, so a count that matches leaves a gap only below a message
past the end (**`gapless_iff_within_end`**).
-/

import ArcNode.App.Delivery

namespace ArcNode.App

open ArcNode.Lib ArcNode.Types

/-! ### The map as a machine -/

inductive MapInput where
  | insert (delivery : Delivery)
  | setCurrentHeight (height : Height)
  | setNumValidators (numValidators : ℕ)
  | markClosed (key : StreamKey)

variable (map : PartStreamsMap)

def mapStep : MapInput → PartStreamsMap × Option InsertResult
  | .insert delivery => ((receive map delivery).1, some (receive map delivery).2)
  | .setCurrentHeight height => (map.setCurrentHeight height, none)
  | .setNumValidators numValidators => (map.setNumValidators numValidators, none)
  | .markClosed key => (map.markClosed key, none)

/-! ### One stream -/

def StreamContent.dataSize : StreamContent → ℕ
  | .data (.data bytes) => bytes.length
  | _ => 0

/-- The sequence number of the end of the stream, as the newest end message has it. -/
def endSequence (buffer : List StreamMessage) : Option ℕ :=
  (buffer.filter StreamMessage.isFin).getLast?.map StreamMessage.sequence

/-- **A stream within its limits.** -/
structure StreamState.Sound (state : StreamState) : Prop where
  counted : state.messageCount = state.buffer.length
  short : state.buffer.length ≤ maxMessagesPerStream
  distinct : (state.buffer.map StreamMessage.sequence).Nodup
  seen : ∀ message ∈ state.buffer, message.sequence ∈ state.seenSequences
  small : ∀ message ∈ state.buffer, message.content.dataSize ≤ chunkSize
  ended : state.finReceived = true →
    ∃ last, endSequence state.buffer = some last ∧ state.expectedMessages = last + 1

/-- The message gets into the buffer of a stream. -/
structure StreamState.Accepts (state : StreamState) (message : StreamMessage) : Prop where
  small : message.content.oversized = none
  valid : (message.isFin && !isValidFinSequence message.sequence) = false
  unseen : message.sequence ∉ state.seenSequences
  room : state.messageCount < maxMessagesPerStream

section Stream

variable {state : StreamState} {message : StreamMessage}

theorem dataSize_le_of_oversized {content : StreamContent} (small : content.oversized = none) :
    content.dataSize ≤ chunkSize := by
  unfold StreamContent.oversized at small
  unfold StreamContent.dataSize
  split
  · next bytes =>
    by_contra large
    simp [not_le.mp large] at small
  · exact Nat.zero_le _

namespace StreamState

theorem sound_new (now : ℕ) : (new now).Sound := by
  constructor <;> simp [new]

theorem Sound.push (sound : state.Sound) (accepts : state.Accepts message) :
    (state.push message).Sound where
  counted := by
    show state.messageCount + 1 = (state.buffer ++ [message]).length
    rw [sound.counted, List.length_append, List.length_singleton]
  short := by
    show (state.buffer ++ [message]).length ≤ _
    have room := accepts.room
    rw [sound.counted] at room
    rw [List.length_append, List.length_singleton]
    exact room
  distinct := by
    show ((state.buffer ++ [message]).map StreamMessage.sequence).Nodup
    rw [List.map_append, List.nodup_append]
    refine ⟨sound.distinct, List.nodup_singleton _, ?_⟩
    rintro sequence there _ new rfl
    obtain ⟨other, member, rfl⟩ := List.mem_map.mp there
    rw [List.map_singleton, List.mem_singleton] at new
    exact accepts.unseen (new ▸ sound.seen other member)
  seen := by
    intro other there
    show other.sequence ∈ message.sequence :: state.seenSequences
    rcases List.mem_append.mp there with old | new
    · exact List.mem_cons_of_mem _ (sound.seen other old)
    · rw [List.mem_singleton.mp new]
      exact List.mem_cons_self
  small := by
    intro other there
    rcases List.mem_append.mp there with old | new
    · exact sound.small other old
    · rw [List.mem_singleton.mp new]
      exact dataSize_le_of_oversized accepts.small
  ended := by
    intro received
    by_cases last : message.isFin = true
    · refine ⟨message.sequence, ?_, ?_⟩
      · simp [endSequence, StreamState.push, List.filter_append, last]
      · simp [StreamState.push, last]
    · have before : state.finReceived = true := by
        simpa [StreamState.push, last] using received
      obtain ⟨sequence, found, expected⟩ := sound.ended before
      refine ⟨sequence, ?_, ?_⟩
      · simpa [endSequence, StreamState.push, List.filter_append, last] using found
      · simpa [StreamState.push, last] using expected

theorem insert_of_accepts (accepts : state.Accepts message) : state.insert message =
      if (state.push message).hasAll then
        ({ state.push message with buffer := [], isComplete := true },
          .complete (drain (state.push message).buffer))
      else ({ state.push message with isComplete := false },
        .incomplete (state.push message).height) := by
  unfold insert
  rw [accepts.small]
  dsimp only
  rw [accepts.valid, if_neg Bool.false_ne_true, if_neg accepts.unseen,
    if_neg (not_le.mpr accepts.room)]

/-- **A message that is not accepted** is a duplicate, or is answered by an eviction. -/
theorem insert_of_not_accepts (refused : ¬ state.Accepts message) :
    state.insert message = (state, .duplicate) ∨ (state.insert message).2 = .exceededMaxMessages ∨
      (∃ sequence, (state.insert message).2 = .invalidFinSequence sequence) ∨
      ∃ actual, (state.insert message).2 = .exceededMaxChunkSize actual := by
  unfold insert
  cases small : message.content.oversized with
  | some actual => exact .inr (.inr (.inr ⟨actual, rfl⟩))
  | none =>
    dsimp only
    cases valid : message.isFin && !isValidFinSequence message.sequence with
    | true => exact .inr (.inr (.inl ⟨message.sequence, rfl⟩))
    | false =>
      rw [if_neg Bool.false_ne_true]
      by_cases seen : message.sequence ∈ state.seenSequences
      · exact .inl (if_pos seen)
      by_cases full : maxMessagesPerStream ≤ state.messageCount
      · rw [if_neg seen, if_pos full]
        exact .inr (.inl rfl)
      · exact absurd ⟨small, valid, seen, not_le.mp full⟩ refused

end StreamState

end Stream

variable (state : StreamState)

/-- **The three effects**: the stream stays as it was or with the message in it, it is closed, or
all its messages are there and it is assembled. -/
theorem effect_cases (streamHeight : Height) (message : StreamMessage) :
    (∃ after, state.effect streamHeight message = (.keep after, .pending) ∧ (after = state ∨
        (state.Accepts message ∧ after = { state.push message with isComplete := false }))) ∨
      ((state.effect streamHeight message).1 = .close ∧
        ((state.effect streamHeight message).2 = .pending ∨
          ∃ initHeight, (state.effect streamHeight message).2 =
            .invalid (.streamIdHeightMismatch streamHeight initHeight))) ∨
      ((state.effect streamHeight message).1 = .finish ∧ state.Accepts message ∧
        (state.push message).hasAll = true) := by
  unfold StreamState.effect StreamInsertResult.effect
  by_cases accepts : state.Accepts message
  · rw [StreamState.insert_of_accepts accepts]
    cases all : (state.push message).hasAll with
    | false =>
      rw [if_neg Bool.false_ne_true]
      cases announced : (state.push message).height with
      | none => exact .inl ⟨_, rfl, .inr ⟨accepts, rfl⟩⟩
      | some initHeight =>
        by_cases differs : initHeight ≠ streamHeight
        · dsimp only
          rw [if_pos differs]
          exact .inr (.inl ⟨rfl, .inr ⟨initHeight, rfl⟩⟩)
        · dsimp only
          rw [if_neg differs]
          exact .inl ⟨_, rfl, .inr ⟨accepts, rfl⟩⟩
    | true =>
      rw [if_pos rfl]
      dsimp only
      cases ProposalParts.new (StreamState.drain (state.push message).buffer) with
      | error error => exact .inr (.inr ⟨rfl, accepts, rfl⟩)
      | ok proposal =>
        by_cases differs : proposal.height ≠ streamHeight
        · dsimp only
          rw [if_pos differs]
          exact .inr (.inl ⟨rfl, .inr ⟨proposal.height, rfl⟩⟩)
        · dsimp only
          rw [if_neg differs]
          exact .inr (.inr ⟨rfl, accepts, rfl⟩)
  · have refused := StreamState.insert_of_not_accepts accepts
    generalize state.insert message = inserted at refused ⊢
    obtain ⟨after, result⟩ := inserted
    rcases refused with same | rfl | ⟨sequence, rfl⟩ | ⟨actual, rfl⟩
    · obtain ⟨rfl, rfl⟩ := Prod.mk.inj same
      exact .inl ⟨after, rfl, .inl rfl⟩
    · exact .inr (.inl ⟨rfl, .inl rfl⟩)
    · exact .inr (.inl ⟨rfl, .inl rfl⟩)
    · exact .inr (.inl ⟨rfl, .inl rfl⟩)

/-! ### The limits of the map -/

/-- A key of a stream that is not stale: sixteen bytes, with a height from the current one on. -/
def StreamKey.Current (current : Height) (key : StreamKey) : Prop :=
  key.streamId.length = streamIdLen ∧
    ∃ height, streamIdHeight key.streamId = some height ∧ current ≤ height

/-- **The map within its limits.** -/
structure Bounded (map : PartStreamsMap) : Prop where
  total : map.streams.len ≤ map.maxTotalStreams
  perPeer : ∀ peer, map.peerStreamsCount peer ≤ maxStreamsPerPeer
  current : ∀ key ∈ map.streams.keys, key.Current map.currentHeight
  sound : ∀ key state, map.streams.get key = some state → state.Sound
  closed : map.closedKeys.length ≤ maxClosedStreams
  capped : maxStreamsPerPeer ≤ map.maxTotalStreams

theorem le_maxTotalStreams (numValidators : ℕ) :
    maxStreamsPerPeer ≤ maxTotalStreams numValidators := le_max_right _ _

variable (height : Height)

theorem bounded_new (numValidators now : ℕ) : Bounded (.new height numValidators now) where
  total := Nat.zero_le _
  perPeer _ := Nat.zero_le _
  current key member := by cases member
  sound key state found := by cases found
  closed := Nat.zero_le _
  capped := le_maxTotalStreams numValidators

section Evictions

variable {map : PartStreamsMap} {key : StreamKey}

theorem length_closedKeys_markClosed (few : map.closedKeys.length ≤ maxClosedStreams) :
    (map.markClosed key).closedKeys.length ≤ maxClosedStreams := by
  have grown : (map.closedKeys.erase key ++ [key]).length ≤ maxClosedStreams + 1 := by
    have shorter : (map.closedKeys.erase key).length ≤ map.closedKeys.length :=
      List.length_erase_le
    rw [List.length_append, List.length_singleton]
    omega
  unfold PartStreamsMap.markClosed
  dsimp only
  by_cases full : maxClosedStreams < (map.closedKeys.erase key ++ [key]).length
  · rw [if_pos full, List.length_drop]
    omega
  · rw [if_neg full]
    exact not_lt.mp full

namespace Bounded

theorem markClosed (bounded : Bounded map) (key : StreamKey) : Bounded (map.markClosed key) where
  total := bounded.total
  perPeer := bounded.perPeer
  current := bounded.current
  sound := bounded.sound
  closed := length_closedKeys_markClosed bounded.closed
  capped := bounded.capped

/-- Fewer streams are within the limits, at any height that they are current for. -/
theorem retain (bounded : Bounded map) {keep : StreamKey → StreamState → Bool} {height : Height}
    (kept : ∀ key ∈ map.streams.keys, ∀ state, keep key state = true →
      key.Current map.currentHeight → key.Current height) :
    Bounded { map with currentHeight := height, streams := map.streams.retain keep } where
  total := (Table.len_retain_le _ _).trans bounded.total
  perPeer peer := ((Table.keys_retain_sublist _ _).countP_le).trans (bounded.perPeer peer)
  current key member := by
    obtain ⟨⟨_, state⟩, there, rfl⟩ := List.mem_map.mp member
    obtain ⟨old, accepted⟩ := Table.mem_retain.mp there
    have live : _ ∈ map.streams.keys := List.mem_map_of_mem old
    exact kept _ live state accepted (bounded.current _ live)
  sound key state found := bounded.sound key state (Table.get_of_get_retain found)
  closed := bounded.closed
  capped := bounded.capped

theorem dropStream (bounded : Bounded map) (key : StreamKey) : Bounded (map.dropStream key) :=
  bounded.retain fun _ _ _ _ current => current

theorem evict (bounded : Bounded map) (key : StreamKey) : Bounded (map.evict key) :=
  (bounded.dropStream key).markClosed key

theorem setCurrentHeight (bounded : Bounded map) (height : Height) :
    Bounded (map.setCurrentHeight height) := by
  refine bounded.retain ?_
  intro key live state accepted current
  obtain ⟨found, encoded, above⟩ := of_decide_eq_true accepted
  exact ⟨current.1, found, encoded, above⟩

end Bounded

/-! ### The oldest stream of the busiest peer -/

/-- A fold that always settles on something good finds something good in a list with elements. -/
theorem foldl_pick {α β : Type} {pick : Option β → α → Option β} {Good : β → Prop} {list : List α}
    (picks : ∀ best element, element ∈ list → (∀ found, best = some found → Good found) →
      ∃ found, pick best element = some found ∧ Good found) (some_element : list ≠ []) :
    ∃ found, list.foldl pick none = some found ∧ Good found := by
  -- after the first element the accumulator is good; the induction keeps it so
  have later : ∀ rest ⊆ list, ∀ best, Good best →
      ∃ found, rest.foldl pick (some best) = some found ∧ Good found := by
    intro rest
    induction rest with
    | nil => exact fun _ best good => ⟨best, rfl, good⟩
    | cons element rest ih =>
      intro inside best good
      obtain ⟨found, picked, goodFound⟩ := picks (some best) element (inside List.mem_cons_self)
        fun _ same => Option.some.inj same ▸ good
      rw [List.foldl_cons, picked]
      exact ih (fun _ there => inside (List.mem_cons_of_mem _ there)) found goodFound
  cases list with
  | nil => exact absurd rfl some_element
  | cons element rest =>
    obtain ⟨found, picked, good⟩ := picks none element List.mem_cons_self fun _ same => by cases same
    rw [List.foldl_cons, picked]
    exact later rest (fun _ there => List.mem_cons_of_mem _ there) found good

theorem busiestPeer_live (live : map.streams.keys ≠ []) :
    ∃ peer, map.busiestPeer = some peer ∧ ∃ key ∈ map.streams.keys, key.peer = peer := by
  refine foldl_pick ?_ live
  intro best key member good
  cases best with
  | none => exact ⟨key.peer, rfl, key, member, rfl⟩
  | some peer =>
    by_cases more : map.peerStreamsCount peer ≤ map.peerStreamsCount key.peer
    · exact ⟨key.peer, if_pos more, key, member, rfl⟩
    · exact ⟨peer, if_neg more, good peer rfl⟩

theorem oldestStreamOf_live {peer : PeerId} (live : ∃ key ∈ map.streams.keys, key.peer = peer) :
    ∃ key, map.oldestStreamOf peer = some key ∧ key ∈ map.streams.keys ∧ key.peer = peer := by
  have some_entry : (map.streams.entries.filter fun entry => entry.1.peer = peer) ≠ [] := by
    obtain ⟨key, member, same⟩ := live
    obtain ⟨entry, there, rfl⟩ := List.mem_map.mp member
    exact List.ne_nil_of_mem (List.mem_filter.mpr ⟨there, decide_eq_true same⟩)
  have lift : ∀ {found : Option (StreamKey × StreamState)},
      (∃ entry, found = some entry ∧ entry.1 ∈ map.streams.keys ∧ entry.1.peer = peer) →
        ∃ key, found.map Prod.fst = some key ∧ key ∈ map.streams.keys ∧ key.peer = peer := by
    rintro _ ⟨entry, rfl, facts⟩
    exact ⟨entry.1, rfl, facts⟩
  refine lift (foldl_pick ?_ some_entry)
  intro best entry member good
  obtain ⟨there, same⟩ := List.mem_filter.mp member
  have fits : entry.1 ∈ map.streams.keys ∧ entry.1.peer = peer :=
    ⟨List.mem_map_of_mem there, of_decide_eq_true same⟩
  cases best with
  | none => exact ⟨entry, rfl, fits⟩
  | some oldest =>
    by_cases older : entry.2.createdAt < oldest.2.createdAt
    · exact ⟨entry, if_pos older, fits⟩
    · exact ⟨oldest, if_neg older, good oldest rfl⟩

theorem evictOldestStream_live (live : map.streams.keys ≠ []) :
    ∃ key ∈ map.streams.keys, map.busiestPeer = some key.peer ∧
      map.evictOldestStream = map.evict key := by
  obtain ⟨peer, busiest, streams⟩ := busiestPeer_live live
  obtain ⟨key, oldest, member, rfl⟩ := oldestStreamOf_live streams
  refine ⟨key, member, busiest, ?_⟩
  unfold PartStreamsMap.evictOldestStream
  rw [busiest, Option.bind_some, oldest]

theorem len_evictOldestStream (live : map.streams.len ≠ 0) :
    map.evictOldestStream.streams.len + 1 = map.streams.len := by
  have keys : map.streams.keys ≠ [] := by
    rw [Table.len_eq_length_keys] at live
    exact fun none => live (by rw [none]; rfl)
  obtain ⟨key, member, -, evicted⟩ := evictOldestStream_live keys
  rw [evicted]
  exact Table.len_remove_add_one member

/-- **What evictions keep**: a preorder that has every eviction of a live stream, and the note of a
sweep. -/
structure Evictions (R : PartStreamsMap → PartStreamsMap → Prop) : Prop where
  refl : ∀ map, R map map
  trans : ∀ {first second third}, R first second → R second third → R first third
  stamp : ∀ map last, R map { map with lastEviction := last }
  evict : ∀ map, ∀ key ∈ map.streams.keys, R map (map.evict key)

namespace Evictions

variable {R : PartStreamsMap → PartStreamsMap → Prop} (evictions : Evictions R)

include evictions

theorem evictAll (map : PartStreamsMap) {keys : List StreamKey} (distinct : keys.Nodup)
    (live : ∀ key ∈ keys, key ∈ map.streams.keys) : R map (keys.foldl PartStreamsMap.evict map) := by
  induction keys generalizing map with
  | nil => exact evictions.refl map
  | cons key rest ih =>
    obtain ⟨other, distinct⟩ := List.nodup_cons.mp distinct
    refine evictions.trans (evictions.evict map key (live key List.mem_cons_self)) (ih _ distinct ?_)
    intro next member
    exact Table.mem_keys_remove.mpr ⟨fun same => other (same ▸ member),
      live next (List.mem_cons_of_mem _ member)⟩

theorem evictOldStreams (map : PartStreamsMap) (now : ℕ) : R map (map.evictOldStreams now) := by
  unfold PartStreamsMap.evictOldStreams
  split_ifs
  · exact evictions.refl map
  · have expired : (map.expiredKeys now).Sublist map.streams.keys := List.filter_sublist.map Prod.fst
    exact evictions.trans (evictions.stamp map now) (evictions.evictAll _
      (map.streams.keys_nodup.sublist expired) fun key member => expired.subset member)

theorem evictOldestStream (map : PartStreamsMap) : R map map.evictOldestStream := by
  by_cases live : map.streams.keys = []
  · have none : map.evictOldestStream = map := by
      unfold PartStreamsMap.evictOldestStream PartStreamsMap.busiestPeer
      rw [live]
      rfl
    rw [none]
    exact evictions.refl map
  · obtain ⟨key, member, -, evicted⟩ := evictOldestStream_live live
    rw [evicted]
    exact evictions.evict map key member

theorem evictOldestStreams (map : PartStreamsMap) (count : ℕ) :
    R map (PartStreamsMap.evictOldestStream^[count] map) := by
  induction count generalizing map with
  | zero => exact evictions.refl map
  | succ count ih => exact evictions.trans (evictions.evictOldestStream map) (ih _)

end Evictions

theorem evictions_bounded : Evictions fun before after => Bounded before → Bounded after :=
  ⟨fun _ => id, fun first second => second ∘ first, fun _ _ bounded => { bounded with },
    fun _ key _ bounded => bounded.evict key⟩

theorem Bounded.evictOldStreams (bounded : Bounded map) (now : ℕ) : Bounded
    (map.evictOldStreams now) :=
  evictions_bounded.evictOldStreams map now bounded

/-- The cap has no part in the choice of the stream that goes. -/
theorem evictOldestStream_recapped (map : PartStreamsMap) (cap : ℕ) :
    ({ map with maxTotalStreams := cap } : PartStreamsMap).evictOldestStream =
      { map.evictOldestStream with maxTotalStreams := cap } := by
  have same : ({ map with maxTotalStreams := cap } : PartStreamsMap).busiestPeer.bind
      ({ map with maxTotalStreams := cap } : PartStreamsMap).oldestStreamOf =
      map.busiestPeer.bind map.oldestStreamOf := rfl
  unfold PartStreamsMap.evictOldestStream
  rw [same]
  cases map.busiestPeer.bind map.oldestStreamOf <;> rfl

theorem evictOldestStreams_recapped (map : PartStreamsMap) (cap count : ℕ) :
    PartStreamsMap.evictOldestStream^[count] { map with maxTotalStreams := cap } =
      { PartStreamsMap.evictOldestStream^[count] map with maxTotalStreams := cap } := by
  induction count generalizing map with
  | zero => rfl
  | succ count ih =>
    rw [Function.iterate_succ_apply, Function.iterate_succ_apply, evictOldestStream_recapped]
    exact ih map.evictOldestStream

theorem len_evictOldestStreams {count : ℕ} (enough : count ≤ map.streams.len) :
    (PartStreamsMap.evictOldestStream^[count] map).streams.len + count = map.streams.len := by
  induction count generalizing map with
  | zero => rfl
  | succ count ih =>
    have shorter : map.evictOldestStream.streams.len + 1 = map.streams.len :=
      len_evictOldestStream (by omega)
    have enoughLeft : count ≤ map.evictOldestStream.streams.len := by omega
    have rest := ih enoughLeft
    rw [Function.iterate_succ_apply]
    omega

theorem Bounded.setNumValidators (bounded : Bounded map) (numValidators : ℕ) :
    Bounded (map.setNumValidators numValidators) := by
  let cap := App.maxTotalStreams numValidators
  let count := map.streams.len - cap
  have evicted := evictions_bounded.evictOldestStreams map count bounded
  have recapped : map.setNumValidators numValidators =
      { PartStreamsMap.evictOldestStream^[count] map with maxTotalStreams := cap } :=
    evictOldestStreams_recapped map cap count
  rw [recapped]
  refine { evicted with total := ?_, capped := le_maxTotalStreams numValidators }
  show (PartStreamsMap.evictOldestStream^[count] map).streams.len ≤ cap
  have enough : count ≤ map.streams.len := Nat.sub_le _ _
  have length := len_evictOldestStreams enough
  omega

end Evictions

/-! ### A message -/

section Message

variable {map admitted : PartStreamsMap} {key : StreamKey}

/-- **A stream may be written**: it is live, or there is room for it. -/
def Admits (map : PartStreamsMap) (key : StreamKey) : Prop :=
  (map.streams.get key).isSome = true ∨
    (map.streams.get key = none ∧ map.peerStreamsCount key.peer < maxStreamsPerPeer ∧
      map.streams.len < map.maxTotalStreams)

theorem Evictions.makeRoom {R : PartStreamsMap → PartStreamsMap → Prop} (evictions : Evictions R)
    (room : map.makeRoom key = some admitted) : R map admitted := by
  rcases makeRoom_cases room with ⟨-, rfl⟩ | ⟨-, -, ⟨-, rfl⟩ | ⟨-, rfl⟩⟩
  · exact evictions.refl _
  · exact evictions.refl _
  · exact evictions.evictOldestStream map

theorem get_evict_of_none {other : StreamKey} (absent : map.streams.get key = none) :
    (map.evict other).streams.get key = none := by
  show (map.streams.remove other).get key = none
  rw [Table.get_remove, absent, ite_self]

theorem peerStreamsCount_evict_le (map : PartStreamsMap) (other : StreamKey) (peer : PeerId) :
    (map.evict other).peerStreamsCount peer ≤ map.peerStreamsCount peer :=
  (Table.keys_retain_sublist _ _).countP_le

theorem Bounded.admits (bounded : Bounded map) (room : map.makeRoom key = some admitted) :
    Bounded admitted ∧ Admits admitted key := by
  rcases makeRoom_cases room with ⟨live, rfl⟩ | ⟨absent, free, ⟨below, rfl⟩ | ⟨full, rfl⟩⟩
  · exact ⟨bounded, .inl live⟩
  · exact ⟨bounded, .inr ⟨absent, free, below⟩⟩
  · refine ⟨evictions_bounded.evictOldestStream map bounded, .inr ?_⟩
    have positive : 0 < maxStreamsPerPeer := by decide
    have capped := bounded.capped
    have some_stream : map.streams.len ≠ 0 := by omega
    have shorter := len_evictOldestStream some_stream
    have total := bounded.total
    have keys : map.streams.keys ≠ [] := by
      rw [Table.len_eq_length_keys] at some_stream
      exact fun none => some_stream (by rw [none]; rfl)
    obtain ⟨other, -, -, evicted⟩ := evictOldestStream_live keys
    have cap : map.evictOldestStream.maxTotalStreams = map.maxTotalStreams := by rw [evicted]; rfl
    refine ⟨?_, ?_, by omega⟩
    · rw [evicted]
      exact get_evict_of_none absent
    · rw [evicted]
      exact (peerStreamsCount_evict_le map other key.peer).trans_lt free

theorem peerStreamsCount_insert (map : PartStreamsMap) (state : StreamState)
    (absent : map.streams.get key = none) (peer : PeerId) :
    ({ map with streams := map.streams.insert key state } : PartStreamsMap).peerStreamsCount peer =
      map.peerStreamsCount peer + if key.peer = peer then 1 else 0 := by
  show (map.streams.insert key state).keys.countP _ = _
  rw [(Table.keys_insert_perm state absent).countP_eq, List.countP_cons]
  simp [PartStreamsMap.peerStreamsCount]

theorem Bounded.insertStream (bounded : Bounded map) (admits : Admits map key)
    (current : key.Current map.currentHeight) {state : StreamState} (sound : state.Sound) :
    Bounded { map with streams := map.streams.insert key state } where
  total := by
    show (map.streams.insert key state).len ≤ map.maxTotalStreams
    rw [Table.len_eq_length_keys]
    rcases admits with live | ⟨absent, -, below⟩
    · rw [(Table.keys_insert_perm_of_isSome state live).length_eq, ← Table.len_eq_length_keys]
      exact bounded.total
    · rw [(Table.keys_insert_perm state absent).length_eq, List.length_cons,
        ← Table.len_eq_length_keys]
      exact below
  perPeer peer := by
    rcases admits with live | ⟨absent, free, -⟩
    · show (map.streams.insert key state).keys.countP _ ≤ _
      rw [(Table.keys_insert_perm_of_isSome state live).countP_eq]
      exact bounded.perPeer peer
    · rw [peerStreamsCount_insert map state absent]
      by_cases same : key.peer = peer
      · rw [if_pos same, ← same]
        exact free
      · rw [if_neg same]
        exact bounded.perPeer peer
  current other member := by
    rcases Table.mem_keys_insert.mp member with rfl | old
    · exact current
    · exact bounded.current other old
  sound other found stored := by
    have stored : (map.streams.insert key state).get other = some found := stored
    by_cases same : other = key
    · rw [same, Table.get_insert_self, Option.some.injEq] at stored
      exact stored ▸ sound
    · rw [Table.get_insert_of_ne _ _ same] at stored
      exact bounded.sound other found stored
  closed := bounded.closed
  capped := bounded.capped

theorem Bounded.sound_getD (bounded : Bounded map) (key : StreamKey) (now : ℕ) :
    ((map.streams.get key).getD (.new now)).Sound := by
  cases found : map.streams.get key with
  | none => exact StreamState.sound_new now
  | some state => exact bounded.sound key state found

theorem Bounded.deliver (bounded : Bounded map) (admits : Admits map key)
    (current : key.Current map.currentHeight) (height : Height) (message : StreamMessage)
    (now : ℕ) : Bounded (map.deliver key height message now).1 := by
  have sound := bounded.sound_getD key now
  unfold PartStreamsMap.deliver
  rcases effect_cases ((map.streams.get key).getD (.new now)) height message with
    ⟨after, kept, rfl | ⟨accepts, rfl⟩⟩ | ⟨closed, -⟩ | ⟨finished, -⟩
  · rw [kept]
    exact bounded.insertStream admits current sound
  · rw [kept]
    have pushed := sound.push accepts
    exact bounded.insertStream admits current { pushed with }
  · rw [closed]
    exact bounded.evict key
  · rw [finished]
    exact bounded.dropStream key

theorem refusal_eq_none {current : Height} :
    refusal current key.streamId = none ↔ key.Current current := by
  unfold refusal StreamKey.Current
  by_cases wrong : key.streamId.length ≠ streamIdLen
  · simp [wrong]
  · rw [if_neg wrong]
    cases streamIdHeight key.streamId with
    | none => simp
    | some height => simp [not_not.mp wrong]

structure SameSettings (before after : PartStreamsMap) : Prop where
  height : after.currentHeight = before.currentHeight
  cap : after.maxTotalStreams = before.maxTotalStreams

namespace SameSettings

variable {before middle after : PartStreamsMap}

theorem refl (map : PartStreamsMap) : SameSettings map map := ⟨rfl, rfl⟩

theorem trans (first : SameSettings before middle) (second : SameSettings middle after) :
    SameSettings before after :=
  ⟨second.height.trans first.height, second.cap.trans first.cap⟩

theorem evictions : Evictions SameSettings :=
  ⟨refl, trans, fun _ _ => ⟨rfl, rfl⟩, fun _ _ _ => ⟨rfl, rfl⟩⟩

theorem apply (map : PartStreamsMap) (key : StreamKey) (effect : StreamEffect) :
    SameSettings map (effect.apply map key) := by
  cases effect <;> exact ⟨rfl, rfl⟩

theorem receive (map : PartStreamsMap) (delivery : Delivery) :
    SameSettings map (receive map delivery).1 := by
  have swept := evictions.evictOldStreams map delivery.now
  rcases receive_cases map delivery with ⟨result, -, dropped⟩ | ⟨-, -, kept⟩ |
    ⟨admitted, height, -, -, -, opened, reached⟩
  · rw [dropped]
    exact ⟨rfl, rfl⟩
  · rw [kept]
    exact swept
  · rw [reached, PartStreamsMap.deliver]
    exact (swept.trans (evictions.makeRoom opened)).trans (apply admitted delivery.key _)

end SameSettings

theorem Bounded.receive (bounded : Bounded map) (delivery : Delivery) :
    Bounded (receive map delivery).1 := by
  have swept := bounded.evictOldStreams delivery.now
  rcases receive_cases map delivery with ⟨result, -, dropped⟩ | ⟨-, -, kept⟩ |
    ⟨admitted, height, passes, -, -, opened, reached⟩
  · rw [dropped]
    exact bounded.dropStream delivery.key
  · rw [kept]
    exact swept
  · obtain ⟨within, admits⟩ := swept.admits opened
    have settings := (SameSettings.evictions.evictOldStreams map delivery.now).trans
      (SameSettings.evictions.makeRoom opened)
    have current : delivery.key.Current admitted.currentHeight := by
      rw [settings.height]
      exact refusal_eq_none.mp passes
    rw [reached]
    exact within.deliver admits current height delivery.message delivery.now

theorem Bounded.mapStep (bounded : Bounded map) (input : MapInput) :
    Bounded (mapStep map input).1 := by
  cases input with
  | insert delivery => exact bounded.receive delivery
  | setCurrentHeight height => exact bounded.setCurrentHeight height
  | setNumValidators numValidators => exact bounded.setNumValidators numValidators
  | markClosed key => exact bounded.markClosed key

end Message

/-! ### Every run -/

def StreamState.bufferedData : ℕ :=
  (state.buffer.map fun message => message.content.dataSize).sum

def PartStreamsMap.bufferedData (map : PartStreamsMap) : ℕ :=
  (map.streams.entries.map fun entry => entry.2.bufferedData).sum

theorem StreamState.Sound.bufferedData_le {state : StreamState} (sound : state.Sound) :
    state.bufferedData ≤ maxMessagesPerStream * chunkSize := by
  have each : ∀ size ∈ state.buffer.map fun message => message.content.dataSize,
      size ≤ chunkSize := by
    intro size member
    obtain ⟨message, there, rfl⟩ := List.mem_map.mp member
    exact sound.small message there
  have total := List.sum_le_card_nsmul _ _ each
  rw [List.length_map, smul_eq_mul] at total
  exact total.trans (Nat.mul_le_mul_right _ sound.short)

theorem Bounded.bufferedData_le {map : PartStreamsMap} (bounded : Bounded map) :
    map.bufferedData ≤ map.maxTotalStreams * (maxMessagesPerStream * chunkSize) := by
  have each : ∀ size ∈ map.streams.entries.map fun entry => entry.2.bufferedData,
      size ≤ maxMessagesPerStream * chunkSize := by
    intro size member
    obtain ⟨entry, there, rfl⟩ := List.mem_map.mp member
    exact (bounded.sound entry.1 entry.2 (Table.get_eq_some.mpr there)).bufferedData_le
  have total := List.sum_le_card_nsmul _ _ each
  rw [List.length_map, smul_eq_mul] at total
  exact total.trans (Nat.mul_le_mul_right _ bounded.total)

theorem bounded_run (numValidators now : ℕ) (inputs : List MapInput) :
    Bounded (run mapStep (.new height numValidators now) inputs) :=
  run_kept (fun _ input bounded => bounded.mapStep input) inputs (bounded_new height numValidators now)

/-- **The map stays within its limits** after every run, and so does the data it buffers. -/
theorem streams_stay_bounded (numValidators now : ℕ) (inputs : List MapInput) :
    Bounded (run mapStep (.new height numValidators now) inputs) ∧
      (run mapStep (.new height numValidators now) inputs).bufferedData ≤
        (run mapStep (.new height numValidators now) inputs).maxTotalStreams *
          (128 * (128 * 1024)) :=
  ⟨bounded_run height numValidators now inputs,
    (bounded_run height numValidators now inputs).bufferedData_le⟩

/-! ### Completion -/

/-- The messages of the stream of a delivery, with the one delivered. -/
def PartStreamsMap.bufferWith (delivery : Delivery) : List StreamMessage :=
  (((map.evictOldStreams delivery.now).streams.get delivery.key).elim [] StreamState.buffer) ++
    [delivery.message]

/-- The map has put the parts of a stream together, or failed to. -/
def InsertResult.ReportsComplete : InsertResult → Prop
  | complete _ => True
  | invalid (.assemblyFailed _) => True
  | _ => False

instance (result : InsertResult) : Decidable result.ReportsComplete := by
  unfold InsertResult.ReportsComplete
  split <;> infer_instance

def assembled (buffer : List StreamMessage) : InsertResult :=
  match ProposalParts.new (StreamState.drain buffer) with
  | .error error => .invalid (.assemblyFailed error)
  | .ok proposal => .complete proposal

/-- **Every sequence number up to the end is there, and none past it.** -/
def Gapless (buffer : List StreamMessage) (last : ℕ) : Prop :=
  ∀ sequence, sequence ∈ buffer.map StreamMessage.sequence ↔ sequence ≤ last

section Completion

variable {map : PartStreamsMap} {delivery : Delivery}

theorem effect_complete {state : StreamState} {height : Height} {message : StreamMessage}
    (complete : (state.effect height message).2.ReportsComplete) :
    state.Accepts message ∧ (state.push message).hasAll = true ∧
      (state.effect height message).2 = assembled (state.push message).buffer := by
  rcases effect_cases state height message with ⟨after, kept, -⟩ | ⟨-, pending | ⟨other, mismatch⟩⟩ |
    ⟨finished, accepts, all⟩
  · rw [kept] at complete
    exact complete.elim
  · rw [pending] at complete
    exact complete.elim
  · rw [mismatch] at complete
    exact complete.elim
  · refine ⟨accepts, all, ?_⟩
    unfold StreamState.effect StreamInsertResult.effect at finished ⊢
    rw [StreamState.insert_of_accepts accepts, if_pos all] at finished ⊢
    unfold assembled
    dsimp only at finished ⊢
    cases parts : ProposalParts.new (StreamState.drain (state.push message).buffer) with
    | error error => rfl
    | ok proposal =>
      rw [parts] at finished
      dsimp only at finished ⊢
      by_cases differs : proposal.height ≠ height
      · rw [if_pos differs] at finished
        cases finished
      · rw [if_neg differs]

theorem get_makeRoom {key : StreamKey} {admitted : PartStreamsMap}
    (room : map.makeRoom key = some admitted) :
    admitted.streams.get key = map.streams.get key := by
  rcases makeRoom_cases room with ⟨-, rfl⟩ | ⟨absent, -, ⟨-, rfl⟩ | ⟨-, rfl⟩⟩
  · rfl
  · rfl
  · unfold PartStreamsMap.evictOldestStream
    cases map.busiestPeer.bind map.oldestStreamOf with
    | none => rfl
    | some other =>
      show (map.evict other).streams.get key = _
      rw [get_evict_of_none absent, absent]

theorem refusal_not_complete {current : Height} {id : StreamId} {result : InsertResult}
    (refused : refusal current id = some result) : ¬ result.ReportsComplete := by
  unfold refusal at refused
  split_ifs at refused with wrong
  · cases refused
    exact False.elim
  · split at refused
    · cases refused
      exact False.elim
    · split_ifs at refused
      cases refused
      exact False.elim

/-- **A message that completes a stream** is the last one of a stream that is assembled with it. -/
theorem receive_reportsComplete (complete : (receive map delivery).2.ReportsComplete) :
    ∃ admitted, (map.evictOldStreams delivery.now).makeRoom delivery.key = some admitted ∧
      ((admitted.streams.get delivery.key).getD (.new delivery.now)).Accepts delivery.message ∧
      (((admitted.streams.get delivery.key).getD (.new delivery.now)).push
        delivery.message).hasAll = true ∧
      (receive map delivery).2 = assembled (((admitted.streams.get delivery.key).getD
        (.new delivery.now)).push delivery.message).buffer := by
  rcases receive_cases map delivery with ⟨result, refused, dropped⟩ | ⟨-, -, kept⟩ |
    ⟨admitted, height, -, -, -, opened, reached⟩
  · rw [dropped] at complete
    exact (refusal_not_complete refused complete).elim
  · rw [kept] at complete
    exact complete.elim
  · rw [reached, PartStreamsMap.deliver] at complete ⊢
    exact ⟨admitted, opened, effect_complete complete⟩

/-- **A completed stream** holds as many distinct messages as its end announces. -/
theorem receive_complete (bounded : Bounded map)
    (complete : (receive map delivery).2.ReportsComplete) :
    ∃ last, endSequence (map.bufferWith delivery) = some last ∧
      (map.bufferWith delivery).length = last + 1 ∧
      ((map.bufferWith delivery).map StreamMessage.sequence).Nodup ∧
      (receive map delivery).2 = assembled (map.bufferWith delivery) := by
  obtain ⟨admitted, opened, accepts, all, answer⟩ := receive_reportsComplete complete
  have sound := ((bounded.evictOldStreams delivery.now).admits opened).1.sound_getD delivery.key
    delivery.now
  have pushed := sound.push accepts
  have buffer : (((admitted.streams.get delivery.key).getD (.new delivery.now)).push
      delivery.message).buffer = map.bufferWith delivery := by
    unfold PartStreamsMap.bufferWith
    rw [get_makeRoom opened]
    cases (map.evictOldStreams delivery.now).streams.get delivery.key <;> rfl
  unfold StreamState.hasAll at all
  rw [Bool.and_eq_true, Bool.and_eq_true, decide_eq_true_eq] at all
  obtain ⟨⟨-, received⟩, full⟩ := all
  obtain ⟨last, found, expected⟩ := pushed.ended received
  have distinct := pushed.distinct
  rw [buffer] at found full distinct answer
  exact ⟨last, found, full.trans expected, distinct, answer⟩

/-- As many distinct numbers as there are up to `last` are those numbers, once none is larger. -/
theorem gapless_of_le {buffer : List StreamMessage} {last : ℕ} (full : buffer.length = last + 1)
    (distinct : (buffer.map StreamMessage.sequence).Nodup)
    (within : ∀ message ∈ buffer, message.sequence ≤ last) : Gapless buffer last := by
  have inside : buffer.map StreamMessage.sequence ⊆ List.range (last + 1) := by
    intro sequence member
    obtain ⟨message, there, rfl⟩ := List.mem_map.mp member
    exact List.mem_range.mpr (Nat.lt_succ_of_le (within message there))
  have long : (List.range (last + 1)).length ≤ (buffer.map StreamMessage.sequence).length := by
    rw [List.length_range, List.length_map, full]
  have perm := (distinct.subperm inside).perm_of_length_le long
  intro sequence
  rw [perm.mem_iff, List.mem_range, Nat.lt_succ_iff]

/-- **A completed stream has no gap exactly when no message lies past its end.** In every run of the
map, the stream that a message completes is put together from its buffered messages, as many as the
end announces; they are those numbered up to the end as long as none has a larger number. -/
theorem gapless_iff_within_end {height : Height} {numValidators now : ℕ} {inputs : List MapInput}
    (complete : (receive (run mapStep (.new height numValidators now) inputs)
      delivery).2.ReportsComplete) :
    ∃ last, endSequence ((run mapStep (.new height numValidators now) inputs).bufferWith
        delivery) = some last ∧
      (receive (run mapStep (.new height numValidators now) inputs) delivery).2 =
        assembled ((run mapStep (.new height numValidators now) inputs).bufferWith delivery) ∧
      (Gapless ((run mapStep (.new height numValidators now) inputs).bufferWith delivery) last ↔
        ∀ message ∈ (run mapStep (.new height numValidators now) inputs).bufferWith delivery,
          message.sequence ≤ last) := by
  obtain ⟨last, found, full, distinct, answer⟩ :=
    receive_complete (bounded_run height numValidators now inputs) complete
  refine ⟨last, found, answer, ?_, gapless_of_le full distinct⟩
  intro gapless message member
  exact (gapless message.sequence).mp (List.mem_map_of_mem member)

theorem gapless_iff_within_end_sample :
    ∃ last, endSequence ((run mapStep (.new 1 4 0) (sampleFront.map .insert)).bufferWith
        (sampleDelivery 2)) = some last ∧
      (receive (run mapStep (.new 1 4 0) (sampleFront.map .insert)) (sampleDelivery 2)).2 =
        assembled ((run mapStep (.new 1 4 0) (sampleFront.map .insert)).bufferWith
          (sampleDelivery 2)) ∧
      (Gapless ((run mapStep (.new 1 4 0) (sampleFront.map .insert)).bufferWith
          (sampleDelivery 2)) last ↔
        ∀ message ∈ (run mapStep (.new 1 4 0) (sampleFront.map .insert)).bufferWith
          (sampleDelivery 2), message.sequence ≤ last) :=
  gapless_iff_within_end (by decide +kernel)

/-- A stream whose signature part has a number past the end, which the end completes. -/
def gappedFront : List Delivery :=
  [⟨[1], ⟨newStreamId 1 0 0, 0, .data (.init ⟨1, .some 0, .nil, 3⟩)⟩, 100⟩,
    ⟨[1], ⟨newStreamId 1 0 0, 5, .data (.fin (bareSignature 7 sampleDigest))⟩, 100⟩]

def gappedEnd : Delivery := ⟨[1], ⟨newStreamId 1 0 0, 2, .fin⟩, 100⟩

/-- **A proposal is put together with a gap**: the numbers 0, 5 and 2 complete the stream that ends
at 2, and number 1 is missing. -/
theorem gapped_stream_completes :
    (∃ parts, (receive (run mapStep (.new 1 4 0) (gappedFront.map .insert)) gappedEnd).2 =
        .complete parts) ∧
      endSequence ((run mapStep (.new 1 4 0) (gappedFront.map .insert)).bufferWith gappedEnd) =
        some 2 ∧
      ¬ Gapless ((run mapStep (.new 1 4 0) (gappedFront.map .insert)).bufferWith gappedEnd) 2 := by
  refine ⟨⟨⟨⟨1, .some 0, .nil, 3⟩, [], bareSignature 7 sampleDigest⟩, by decide +kernel⟩,
    by decide +kernel, ?_⟩
  intro gapless
  have missing : 1 ∉ ((run mapStep (.new 1 4 0) (gappedFront.map .insert)).bufferWith
    gappedEnd).map StreamMessage.sequence := by decide +kernel
  exact missing ((gapless 1).mpr (by decide))

end Completion

end ArcNode.App
