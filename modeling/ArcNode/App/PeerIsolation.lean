/-
**Peers do not disturb each other's streams.**

An observer looks at the streams and the closed keys of one peer (`SameView`, up to the clock). With
at most as many live peers as the cap was set for, a full map would need a peer more than there are,
so the cap never evicts (**`not_evictsForCap`**). Without evictions a message acts on its own stream
alone (`calmReceive`), so two runs with the same messages of the peer are equal in its eyes
(**`peers_are_isolated`**), as long as the closed keys of the peer are not forgotten: the cache of
closed keys is shared, and other peers can fill it (**`flooded_cache_reopens_stream`**).
-/

import ArcNode.App.StreamBounds

namespace ArcNode.App

open ArcNode.Lib ArcNode.Types

/-! ### One peer's inputs -/

variable (peer : PeerId)

def MapInput.ofPeer : MapInput → Bool
  | insert delivery => delivery.peer = peer
  | markClosed key => key.peer = peer
  | setCurrentHeight _ => false
  | setNumValidators _ => false

def MapInput.retimed (clock : ℕ → ℕ) : MapInput → MapInput
  | insert delivery => .insert { delivery with now := clock delivery.now }
  | markClosed key => .markClosed key
  | setCurrentHeight height => .setCurrentHeight height
  | setNumValidators numValidators => .setNumValidators numValidators

def StreamState.retimed (clock : ℕ → ℕ) (state : StreamState) : StreamState :=
  { state with createdAt := clock state.createdAt }

/-- **Two maps look the same to a peer**: its streams and its closed keys, at the same height. -/
structure SameView (peer : PeerId) (clock : ℕ → ℕ) (first second : PartStreamsMap) : Prop where
  height : first.currentHeight = second.currentHeight
  streams : ∀ key, key.peer = peer → (first.streams.get key).map (StreamState.retimed clock) =
    (second.streams.get key).map (StreamState.retimed clock)
  closed : ∀ key, key.peer = peer → (key ∈ first.closedKeys ↔ key ∈ second.closedKeys)

variable (map : PartStreamsMap)

namespace SameView

variable {peer : PeerId} {clock : ℕ → ℕ} {first second third : PartStreamsMap}

theorem refl : SameView peer clock map map :=
  ⟨rfl, fun _ _ => rfl, fun _ _ => Iff.rfl⟩

theorem symm (view : SameView peer clock first second) : SameView peer clock second first :=
  ⟨view.height.symm, fun key own => (view.streams key own).symm,
    fun key own => (view.closed key own).symm⟩

theorem trans (one : SameView peer clock first second) (two : SameView peer clock second third) :
    SameView peer clock first third :=
  ⟨one.height.trans two.height, fun key own => (one.streams key own).trans (two.streams key own),
    fun key own => (one.closed key own).trans (two.closed key own)⟩

theorem isSome_iff (view : SameView peer clock first second) {key : StreamKey}
    (own : key.peer = peer) :
    (first.streams.get key).isSome = (second.streams.get key).isSome := by
  have same := congrArg Option.isSome (view.streams key own)
  rwa [Option.isSome_map, Option.isSome_map] at same

theorem peerStreamsCount_eq (view : SameView peer clock first second) :
    first.peerStreamsCount peer = second.peerStreamsCount peer := by
  unfold PartStreamsMap.peerStreamsCount
  rw [List.countP_eq_length_filter, List.countP_eq_length_filter]
  refine List.Perm.length_eq ((List.perm_ext_iff_of_nodup (first.streams.keys_nodup.filter _)
    (second.streams.keys_nodup.filter _)).mpr fun key => ?_)
  rw [List.mem_filter, List.mem_filter, Table.mem_keys, Table.mem_keys]
  refine and_congr_left fun own => ?_
  rw [view.isSome_iff (of_decide_eq_true own)]

end SameView

/-! ### Conditions on a run -/

/-- The map while a message is handled: the stream it reaches is open. -/
def PartStreamsMap.during (delivery : Delivery) : PartStreamsMap :=
  match refusal map.currentHeight delivery.message.streamId with
  | some _ => map
  | none =>
    if delivery.key ∈ (map.evictOldStreams delivery.now).closedKeys then map
    else
      match (map.evictOldStreams delivery.now).makeRoom delivery.key with
      | none => map
      | some admitted =>
        { admitted with
          streams := admitted.streams.insert delivery.key
            ((admitted.streams.get delivery.key).getD (.new delivery.now)) }

def PartStreamsMap.livePeers (peer : PeerId) : Finset PeerId :=
  (peer :: map.streams.keys.map StreamKey.peer).toFinset

/-- **A quiet step**: few peers have live streams at any time, no stream is evicted for its age, and
neither the height nor the cap changes. -/
def Quiet (numValidators : ℕ) (map : PartStreamsMap) : MapInput → Prop
  | .insert delivery => (map.livePeers peer).card ≤ numValidators ∧
      ((map.during delivery).livePeers peer).card ≤ numValidators ∧
      (maxStreamAge ≤ delivery.now - map.lastEviction → map.expiredKeys delivery.now = [])
  | .markClosed _ => (map.livePeers peer).card ≤ numValidators
  | .setCurrentHeight _ => False
  | .setNumValidators _ => False

/-- No closed key of the peer is pushed out of the cache. -/
def KeepsClosed (input : MapInput) : Prop :=
  ∀ key ∈ map.closedKeys, key.peer = peer → key ∈ (mapStep map input).1.closedKeys
  deriving Decidable

/-- A message opens a stream in a full map, which evicts the oldest stream of the busiest peer. -/
def EvictsForCap : MapInput → Prop
  | .insert delivery => refusal map.currentHeight delivery.message.streamId = none ∧
      delivery.key ∉ (map.evictOldStreams delivery.now).closedKeys ∧
      (map.evictOldStreams delivery.now).streams.get delivery.key = none ∧
      (map.evictOldStreams delivery.now).peerStreamsCount delivery.peer < maxStreamsPerPeer ∧
      (map.evictOldStreams delivery.now).maxTotalStreams ≤
        (map.evictOldStreams delivery.now).streams.len
  | _ => False

instance (peer : PeerId) (numValidators : ℕ) (map : PartStreamsMap) (input : MapInput) :
    Decidable (Quiet peer numValidators map input) := by
  cases input <;> dsimp only [Quiet] <;> infer_instance

/-! ### A full map needs another peer -/

section Cap

variable {peer : PeerId} {numValidators : ℕ} {map : PartStreamsMap} {delivery : Delivery}

theorem evictOldStreams_of_young {now : ℕ}
    (young : maxStreamAge ≤ now - map.lastEviction → map.expiredKeys now = []) :
    ∃ last, map.evictOldStreams now = { map with lastEviction := last } := by
  unfold PartStreamsMap.evictOldStreams
  by_cases early : now - map.lastEviction < maxStreamAge
  · exact ⟨map.lastEviction, if_pos early⟩
  · refine ⟨now, (if_neg early).trans ?_⟩
    rw [young (not_lt.mp early)]
    rfl

theorem sum_peerStreamsCount (map : PartStreamsMap) :
    ∑ other ∈ (map.streams.keys.map StreamKey.peer).toFinset, map.peerStreamsCount other =
      map.streams.len := by
  rw [Table.len_eq_length_keys, ← List.length_map StreamKey.peer,
    ← List.sum_toFinset_count_eq_length]
  refine Finset.sum_congr rfl fun other _ => ?_
  unfold PartStreamsMap.peerStreamsCount List.count
  rw [List.countP_map]
  refine List.countP_congr fun key _ => ?_
  simp

theorem mem_livePeers {other : PeerId} : other ∈ map.livePeers peer ↔
    other = peer ∨ ∃ key ∈ map.streams.keys, key.peer = other := by
  unfold PartStreamsMap.livePeers
  rw [List.mem_toFinset, List.mem_cons, List.mem_map]

theorem peerStreamsCount_pos {other : PeerId} :
    0 < map.peerStreamsCount other ↔ ∃ key ∈ map.streams.keys, key.peer = other := by
  unfold PartStreamsMap.peerStreamsCount
  rw [List.countP_pos_iff]
  simp

/-- A full map with few live peers gives every one of them all the streams it may have, and nobody
else has any. -/
theorem peerStreamsCount_of_full (bounded : Bounded map)
    (few : (map.livePeers peer).card ≤ numValidators)
    (full : maxStreamsPerPeer * numValidators ≤ map.streams.len) :
    (map.livePeers peer).card = numValidators ∧
      ∀ other ∈ map.livePeers peer, map.peerStreamsCount other = maxStreamsPerPeer := by
  have inside : (map.streams.keys.map StreamKey.peer).toFinset ⊆ map.livePeers peer := by
    intro other member
    exact List.mem_toFinset.mpr (List.mem_cons_of_mem _ (List.mem_toFinset.mp member))
  have idle : ∀ other ∈ map.livePeers peer,
      other ∉ (map.streams.keys.map StreamKey.peer).toFinset → map.peerStreamsCount other = 0 := by
    intro other _ absent
    by_contra some_stream
    obtain ⟨key, member, rfl⟩ := peerStreamsCount_pos.mp (Nat.pos_of_ne_zero some_stream)
    exact absent (List.mem_toFinset.mpr (List.mem_map_of_mem member))
  have total : ∑ other ∈ map.livePeers peer, map.peerStreamsCount other = map.streams.len :=
    (Finset.sum_subset inside idle).symm.trans (sum_peerStreamsCount map)
  have each : ∀ other ∈ map.livePeers peer, map.peerStreamsCount other ≤ maxStreamsPerPeer :=
    fun other _ => bounded.perPeer other
  have most : ∑ other ∈ map.livePeers peer, map.peerStreamsCount other ≤
      ∑ _other ∈ map.livePeers peer, maxStreamsPerPeer := Finset.sum_le_sum each
  have constant : ∑ _other ∈ map.livePeers peer, maxStreamsPerPeer =
      (map.livePeers peer).card * maxStreamsPerPeer := by
    rw [Finset.sum_const, smul_eq_mul]
  have positive : 0 < maxStreamsPerPeer := by decide
  have bound : maxStreamsPerPeer * numValidators ≤
      (map.livePeers peer).card * maxStreamsPerPeer := by omega
  have enough : numValidators ≤ (map.livePeers peer).card := by
    rw [Nat.mul_comm] at bound
    exact Nat.le_of_mul_le_mul_right bound positive
  have exact_card : (map.livePeers peer).card = numValidators := le_antisymm few enough
  refine ⟨exact_card, ?_⟩
  have equal : ∑ other ∈ map.livePeers peer, map.peerStreamsCount other =
      ∑ _other ∈ map.livePeers peer, maxStreamsPerPeer := by
    refine le_antisymm most ?_
    rw [constant, exact_card, Nat.mul_comm, total]
    exact full
  exact (Finset.sum_eq_sum_iff_of_le each).mp equal

theorem during_of_evictsForCap (evicts : EvictsForCap map (.insert delivery)) :
    map.during delivery =
      { (map.evictOldStreams delivery.now).evictOldestStream with
        streams := (map.evictOldStreams delivery.now).evictOldestStream.streams.insert delivery.key
          (((map.evictOldStreams delivery.now).evictOldestStream.streams.get delivery.key).getD
            (.new delivery.now)) } := by
  obtain ⟨passes, unclosed, absent, free, full⟩ := evicts
  unfold PartStreamsMap.during
  rw [passes]
  dsimp only
  have room : (map.evictOldStreams delivery.now).makeRoom delivery.key =
      some (map.evictOldStreams delivery.now).evictOldestStream := by
    unfold PartStreamsMap.makeRoom
    rw [absent, if_neg (by simp)]
    exact (if_neg (not_le.mpr free)).trans (if_pos full)
  rw [if_neg unclosed, room]

theorem peerStreamsCount_le_evict (map : PartStreamsMap) (key : StreamKey) (other : PeerId) :
    map.peerStreamsCount other ≤ (map.evict key).peerStreamsCount other + 1 := by
  unfold PartStreamsMap.peerStreamsCount
  show _ ≤ (map.streams.remove key).keys.countP _ + 1
  by_cases live : key ∈ map.streams.keys
  · rw [(Table.keys_remove_perm live).countP_eq, List.countP_cons]
    split_ifs <;> omega
  · have untouched : map.streams.remove key = map.streams := by
      refine Table.retain_eq_self_iff.mpr fun entry member => decide_eq_true ?_
      rintro rfl
      exact live (List.mem_map_of_mem member)
    rw [untouched]
    omega

theorem peerStreamsCount_le_evictOldestStream (map : PartStreamsMap) (other : PeerId) :
    map.peerStreamsCount other ≤ map.evictOldestStream.peerStreamsCount other + 1 := by
  unfold PartStreamsMap.evictOldestStream
  cases map.busiestPeer.bind map.oldestStreamOf with
  | none => exact Nat.le_succ _
  | some key => exact peerStreamsCount_le_evict map key other

/-- **The cap never evicts** while there are no more live peers than it was set for. -/
theorem not_evictsForCap (bounded : Bounded map)
    (cap : map.maxTotalStreams = maxTotalStreams numValidators)
    (fits : maxStreamsPerPeer * numValidators < 2 ^ 64) {input : MapInput}
    (quiet : Quiet peer numValidators map input) : ¬ EvictsForCap map input := by
  intro evicts
  cases input with
  | insert delivery =>
    obtain ⟨few, fewDuring, young⟩ := quiet
    obtain ⟨last, swept⟩ := evictOldStreams_of_young young
    have opened := during_of_evictsForCap evicts
    obtain ⟨-, -, absent, free, full⟩ := evicts
    rw [swept] at absent free full opened
    have wide : maxStreamsPerPeer * numValidators ≤ map.streams.len := by
      have most : maxStreamsPerPeer * numValidators ≤ maxTotalStreams numValidators := by
        refine le_trans ?_ (le_max_left _ _)
        exact le_min le_rfl (by omega)
      exact most.trans (cap ▸ full)
    obtain ⟨card, all⟩ := peerStreamsCount_of_full bounded few wide
    have newcomer : delivery.key.peer ∉ map.livePeers peer := fun member =>
      absurd (all _ member) (ne_of_lt free)
    -- every live peer had all its streams, so the one that loses a stream is still live
    have remain : insert delivery.key.peer (map.livePeers peer) ⊆
        (map.during delivery).livePeers peer := by
      intro other member
      rw [opened, mem_livePeers]
      refine (or_iff_not_imp_left).mpr fun different => ?_
      rcases Finset.mem_insert.mp member with rfl | live
      · exact ⟨delivery.key, Table.mem_keys_insert.mpr (.inl rfl), rfl⟩
      · have before : ({ map with lastEviction := last } : PartStreamsMap).peerStreamsCount other =
            maxStreamsPerPeer := all other live
        have lost := peerStreamsCount_le_evictOldestStream { map with lastEviction := last } other
        have several : 1 < maxStreamsPerPeer := by decide
        have remaining : 0 < ({ map with lastEviction := last } :
            PartStreamsMap).evictOldestStream.peerStreamsCount other := by omega
        obtain ⟨key, there, same⟩ := peerStreamsCount_pos.mp remaining
        exact ⟨key, Table.mem_keys_insert.mpr (.inr there), same⟩
    have larger := Finset.card_le_card remain
    rw [Finset.card_insert_of_notMem newcomer, card] at larger
    omega
  | markClosed key | setCurrentHeight height | setNumValidators numValidators => exact evicts

end Cap

/-! ### A step without evictions -/

def StreamEffect.retimed (clock : ℕ → ℕ) : StreamEffect → StreamEffect
  | keep state => .keep (state.retimed clock)
  | close => .close
  | finish => .finish

theorem insert_retimed (clock : ℕ → ℕ) (state : StreamState) (message : StreamMessage) :
    (state.retimed clock).insert message =
      ((state.insert message).1.retimed clock, (state.insert message).2) := by
  unfold StreamState.insert
  cases message.content.oversized with
  | some actual => rfl
  | none =>
    dsimp only
    by_cases invalid : (message.isFin && !isValidFinSequence message.sequence) = true
    · rw [if_pos invalid, if_pos invalid]
    rw [if_neg invalid, if_neg invalid]
    by_cases seen : message.sequence ∈ state.seenSequences
    · rw [if_pos seen]
      exact if_pos seen
    rw [if_neg seen]
    refine (if_neg seen).trans ?_
    by_cases full : maxMessagesPerStream ≤ state.messageCount
    · rw [if_pos full]
      exact if_pos full
    rw [if_neg full]
    refine (if_neg full).trans ?_
    by_cases all : (state.push message).hasAll = true
    · rw [if_pos all]
      exact if_pos all
    · rw [if_neg all]
      exact if_neg all

theorem effect_retimed (clock : ℕ → ℕ) (state : StreamState) (height : Height)
    (message : StreamMessage) :
    (state.retimed clock).effect height message =
      ((state.effect height message).1.retimed clock, (state.effect height message).2) := by
  unfold StreamState.effect StreamInsertResult.effect
  rw [insert_retimed]
  generalize state.insert message = inserted
  obtain ⟨after, result⟩ := inserted
  cases result with
  | duplicate => rfl
  | incomplete announced =>
    cases announced with
    | none => rfl
    | some initHeight =>
      dsimp only
      split_ifs <;> rfl
  | exceededMaxMessages | invalidFinSequence sequence | exceededMaxChunkSize actual => rfl
  | complete parts =>
    dsimp only
    cases ProposalParts.new parts with
    | error error => rfl
    | ok proposal =>
      dsimp only
      split_ifs <;> rfl

/-- A message in a map where nothing is evicted for its age or for the cap. -/
def calmReceive (delivery : Delivery) : PartStreamsMap × InsertResult :=
  match refusal map.currentHeight delivery.message.streamId with
  | some result => (map.dropStream delivery.key, result)
  | none =>
    if delivery.key ∈ map.closedKeys ∨ ((map.streams.get delivery.key).isSome = false ∧
        maxStreamsPerPeer ≤ map.peerStreamsCount delivery.peer) then (map, .pending)
    else
      let effect := ((map.streams.get delivery.key).getD (.new delivery.now)).effect
        ((streamIdHeight delivery.message.streamId).getD 0) delivery.message
      (effect.1.apply map delivery.key, effect.2)

/-- **Without evictions a message acts on its own stream alone.** -/
theorem receive_eq_calmReceive {map : PartStreamsMap} {delivery : Delivery}
    (young : maxStreamAge ≤ delivery.now - map.lastEviction → map.expiredKeys delivery.now = [])
    (spares : ¬ EvictsForCap map (.insert delivery)) :
    ∃ last, receive map delivery = calmReceive { map with lastEviction := last } delivery := by
  obtain ⟨last, swept⟩ := evictOldStreams_of_young young
  rcases receive_cases map delivery with ⟨result, refused, dropped⟩ | ⟨passes, blocked, kept⟩ |
    ⟨admitted, height, passes, encoded, unclosed, opened, reached⟩
  · refine ⟨map.lastEviction, dropped.trans ?_⟩
    unfold calmReceive
    rw [refused]
  · refine ⟨last, kept.trans ?_⟩
    unfold calmReceive
    rw [passes]
    dsimp only
    rw [swept] at blocked ⊢
    refine (if_pos ?_).symm
    refine blocked.imp_right fun noRoom => ?_
    unfold PartStreamsMap.makeRoom at noRoom
    split_ifs at noRoom with live busy full
    exact ⟨by simpa using live, busy⟩
  · refine ⟨last, reached.trans ?_⟩
    have same : admitted = { map with lastEviction := last } := by
      rcases makeRoom_cases opened with ⟨-, same⟩ | ⟨absent, free, ⟨-, same⟩ | ⟨full, same⟩⟩
      · rw [same, swept]
      · rw [same, swept]
      · exact absurd ⟨passes, unclosed, absent, free, full⟩ spares
    have room : ¬ ((map.streams.get delivery.key).isSome = false ∧
        maxStreamsPerPeer ≤ map.peerStreamsCount delivery.peer) := by
      rintro ⟨dead, busy⟩
      rw [swept] at opened
      rcases makeRoom_cases opened with ⟨live, -⟩ | ⟨-, free, -⟩
      · exact absurd live (by simp [dead])
      · exact absurd busy (not_le.mpr free)
    rw [swept] at unclosed
    subst same
    unfold calmReceive
    rw [passes, encoded]
    dsimp only
    refine Eq.trans ?_ (if_neg (not_or.mpr ⟨unclosed, room⟩)).symm
    rw [PartStreamsMap.deliver]
    rfl

/-! ### The view of a peer -/

section View

variable {peer : PeerId} {clock : ℕ → ℕ} {first second map : PartStreamsMap} {key : StreamKey}

theorem mem_closedKeys_markClosed {other : StreamKey}
    (closed : other ∈ (map.markClosed key).closedKeys) : other = key ∨ other ∈ map.closedKeys := by
  by_cases same : other = key
  · exact .inl same
  · exact .inr ((Untouched.markClosed map same).closed closed)

theorem self_mem_closedKeys_markClosed (map : PartStreamsMap) (key : StreamKey) :
    key ∈ (map.markClosed key).closedKeys := by
  unfold PartStreamsMap.markClosed
  dsimp only
  by_cases full : maxClosedStreams < (map.closedKeys.erase key ++ [key]).length
  · rw [if_pos full]
    -- a cache that overflows holds more than the key itself, so the key is not the one to go
    have several : 1 ≤ (map.closedKeys.erase key).length := by
      rw [List.length_append, List.length_singleton] at full
      have positive : 0 < maxClosedStreams := by decide
      omega
    rw [List.drop_append_of_le_length several]
    exact List.mem_append_right _ (List.mem_singleton.mpr rfl)
  · rw [if_neg full]
    exact List.mem_append_right _ (List.mem_singleton.mpr rfl)

theorem SameView.stamped (map : PartStreamsMap) (last : ℕ) :
    SameView peer clock map { map with lastEviction := last } :=
  ⟨rfl, fun _ _ => rfl, fun _ _ => Iff.rfl⟩

theorem SameView.dropOther (map : PartStreamsMap) (other : key.peer ≠ peer) :
    SameView peer clock map (map.dropStream key) := by
  refine ⟨rfl, fun own same => ?_, fun _ _ => Iff.rfl⟩
  have different : own ≠ key := fun equal => other (equal ▸ same)
  rw [(Untouched.dropStream map different).stream]

theorem SameView.applyOther (map : PartStreamsMap) (other : key.peer ≠ peer)
    (effect : StreamEffect) (keeps : ∀ own ∈ map.closedKeys, own.peer = peer →
      own ∈ (effect.apply map key).closedKeys) :
    SameView peer clock map (effect.apply map key) := by
  have different : ∀ own : StreamKey, own.peer = peer → own ≠ key :=
    fun own same equal => other (equal ▸ same)
  cases effect with
  | keep state =>
    refine ⟨rfl, fun own same => ?_, fun _ _ => Iff.rfl⟩
    have kept := (Untouched.insertStream map state (different own same)).stream
    exact congrArg _ kept.symm
  | close =>
    refine ⟨rfl, fun own same => ?_, fun own same => ⟨fun old => keeps own old same, fun new => ?_⟩⟩
    · have kept := (Untouched.evict map (different own same)).stream
      exact congrArg _ kept.symm
    · exact (Untouched.evict map (different own same)).closed new
  | finish => exact SameView.dropOther map other

theorem SameView.calmReceive_other {delivery : Delivery} (other : delivery.peer ≠ peer)
    (keeps : ∀ own ∈ map.closedKeys, own.peer = peer →
      own ∈ (calmReceive map delivery).1.closedKeys) :
    SameView peer clock map (calmReceive map delivery).1 := by
  unfold calmReceive at keeps ⊢
  cases refused : refusal map.currentHeight delivery.message.streamId with
  | some result => exact SameView.dropOther map other
  | none =>
    rw [refused] at keeps
    dsimp only at keeps ⊢
    split_ifs at keeps ⊢ with blocked
    · exact SameView.refl map
    · exact SameView.applyOther map other _ keeps

theorem retimed_getD {now now' : ℕ} (view : SameView peer clock first second)
    (own : key.peer = peer) (times : clock now = clock now') :
    ((first.streams.get key).getD (.new now)).retimed clock =
      ((second.streams.get key).getD (.new now')).retimed clock := by
  have same := view.streams key own
  cases here : first.streams.get key with
  | none =>
    rw [here] at same
    have there : second.streams.get key = none := by simpa using same.symm
    rw [there]
    show ({ StreamState.new now with createdAt := clock now } : StreamState) =
      { StreamState.new now' with createdAt := clock now' }
    rw [times]
    rfl
  | some state =>
    rw [here] at same
    obtain ⟨state', there, equal⟩ := Option.map_eq_some_iff.mp same.symm
    rw [there]
    exact equal.symm

theorem SameView.markClosed (view : SameView peer clock first second)
    (keeps : ∀ other ∈ first.closedKeys, other.peer = peer →
      other ∈ (first.markClosed key).closedKeys)
    (keeps' : ∀ other ∈ second.closedKeys, other.peer = peer →
      other ∈ (second.markClosed key).closedKeys) (other : StreamKey) (mine : other.peer = peer) :
    other ∈ (first.markClosed key).closedKeys ↔ other ∈ (second.markClosed key).closedKeys := by
  constructor
  · intro closed
    rcases mem_closedKeys_markClosed closed with rfl | old
    · exact self_mem_closedKeys_markClosed _ _
    · exact keeps' other ((view.closed other mine).mp old) mine
  · intro closed
    rcases mem_closedKeys_markClosed closed with rfl | old
    · exact self_mem_closedKeys_markClosed _ _
    · exact keeps other ((view.closed other mine).mpr old) mine

theorem SameView.apply (view : SameView peer clock first second)
    {effect effect' : StreamEffect} (same : effect.retimed clock = effect'.retimed clock)
    (keeps : ∀ other ∈ first.closedKeys, other.peer = peer →
      other ∈ (effect.apply first key).closedKeys)
    (keeps' : ∀ other ∈ second.closedKeys, other.peer = peer →
      other ∈ (effect'.apply second key).closedKeys) :
    SameView peer clock (effect.apply first key) (effect'.apply second key) := by
  have dropped : ∀ other, other.peer = peer →
      ((first.streams.remove key).get other).map (StreamState.retimed clock) =
        ((second.streams.remove key).get other).map (StreamState.retimed clock) := by
    intro other mine
    rw [Table.get_remove, Table.get_remove]
    by_cases equal : other = key
    · rw [if_pos equal, if_pos equal]
    · rw [if_neg equal, if_neg equal]
      exact view.streams other mine
  cases effect with
  | keep state =>
    cases effect' with
    | keep state' =>
      have retimed : state.retimed clock = state'.retimed clock := StreamEffect.keep.inj same
      refine ⟨view.height, fun other mine => ?_, view.closed⟩
      show ((first.streams.insert key state).get other).map _ =
        ((second.streams.insert key state').get other).map _
      rw [Table.get_insert, Table.get_insert]
      by_cases equal : other = key
      · rw [if_pos equal, if_pos equal, Option.map_some, Option.map_some, retimed]
      · rw [if_neg equal, if_neg equal]
        exact view.streams other mine
    | close | finish => cases same
  | close =>
    cases effect' with
    | keep state' => cases same
    | close =>
      exact ⟨view.height, dropped, view.markClosed keeps keeps'⟩
    | finish => cases same
  | finish =>
    cases effect' with
    | keep state' | close => cases same
    | finish => exact ⟨view.height, dropped, view.closed⟩

theorem SameView.calmReceive_own {delivery delivery' : Delivery}
    (view : SameView peer clock first second) (own : delivery.peer = peer)
    (own' : delivery'.peer = peer) (messages : delivery.message = delivery'.message)
    (times : clock delivery.now = clock delivery'.now)
    (keeps : ∀ other ∈ first.closedKeys, other.peer = peer →
      other ∈ (calmReceive first delivery).1.closedKeys)
    (keeps' : ∀ other ∈ second.closedKeys, other.peer = peer →
      other ∈ (calmReceive second delivery').1.closedKeys) :
    (calmReceive first delivery).2 = (calmReceive second delivery').2 ∧
      SameView peer clock (calmReceive first delivery).1 (calmReceive second delivery').1 := by
  have keys : delivery'.key = delivery.key := by
    unfold Delivery.key
    rw [own, own', messages]
  have mine : delivery.key.peer = peer := own
  unfold calmReceive at keeps keeps' ⊢
  rw [keys, ← messages, ← view.height] at keeps' ⊢
  cases refused : refusal first.currentHeight delivery.message.streamId with
  | some result =>
    have finished : StreamEffect.finish.retimed clock = StreamEffect.finish.retimed clock := rfl
    exact ⟨rfl, view.apply finished (fun _ old _ => old) fun _ old _ => old⟩
  | none =>
    rw [refused] at keeps keeps'
    dsimp only at keeps keeps' ⊢
    rw [own] at keeps ⊢
    rw [own'] at keeps' ⊢
    have alike : (delivery.key ∈ first.closedKeys ∨
          ((first.streams.get delivery.key).isSome = false ∧
            maxStreamsPerPeer ≤ first.peerStreamsCount peer)) ↔
        (delivery.key ∈ second.closedKeys ∨ ((second.streams.get delivery.key).isSome = false ∧
            maxStreamsPerPeer ≤ second.peerStreamsCount peer)) := by
      rw [view.closed delivery.key mine, view.isSome_iff mine, view.peerStreamsCount_eq]
    by_cases blocked : delivery.key ∈ first.closedKeys ∨
        ((first.streams.get delivery.key).isSome = false ∧
          maxStreamsPerPeer ≤ first.peerStreamsCount peer)
    · rw [if_pos blocked, if_pos (alike.mp blocked)]
      exact ⟨rfl, view⟩
    · rw [if_neg blocked] at keeps ⊢
      rw [if_neg (mt alike.mpr blocked)] at keeps' ⊢
      have states := retimed_getD view mine times
      have here := effect_retimed clock ((first.streams.get delivery.key).getD (.new delivery.now))
        ((streamIdHeight delivery.message.streamId).getD 0) delivery.message
      have there := effect_retimed clock
        ((second.streams.get delivery.key).getD (.new delivery'.now))
        ((streamIdHeight delivery.message.streamId).getD 0) delivery.message
      rw [states] at here
      obtain ⟨effects, answers⟩ := Prod.mk.inj (here.symm.trans there)
      exact ⟨answers, view.apply effects keeps keeps'⟩

end View

/-! ### Every run -/

/-- **A calm step**: quiet, and the closed keys of the peer are remembered. -/
def Calm (peer : PeerId) (numValidators : ℕ) (map : PartStreamsMap) (input : MapInput) : Prop :=
  Quiet peer numValidators map input ∧ KeepsClosed peer map input
  deriving Decidable

/-- The limits hold and the cap is the one set for the validators. -/
structure CapFor (numValidators : ℕ) (map : PartStreamsMap) : Prop where
  bounded : Bounded map
  cap : map.maxTotalStreams = maxTotalStreams numValidators

section Runs

variable {peer : PeerId} {clock : ℕ → ℕ} {numValidators : ℕ} {map first second : PartStreamsMap}
  {input input' : MapInput}

theorem capFor_new (height : Height) (numValidators now : ℕ) :
    CapFor numValidators (.new height numValidators now) :=
  ⟨bounded_new height numValidators now, rfl⟩

theorem CapFor.mapStep (capFor : CapFor numValidators map)
    (quiet : Quiet peer numValidators map input) :
    CapFor numValidators (mapStep map input).1 := by
  refine ⟨capFor.bounded.mapStep input, ?_⟩
  cases input with
  | insert delivery => exact (SameSettings.receive map delivery).cap.trans capFor.cap
  | markClosed key => exact capFor.cap
  | setCurrentHeight height | setNumValidators numValidators => exact quiet.elim

theorem CapFor.receive_eq (capFor : CapFor numValidators map)
    (fits : maxStreamsPerPeer * numValidators < 2 ^ 64) {delivery : Delivery}
    (quiet : Quiet peer numValidators map (.insert delivery)) :
    ∃ last, receive map delivery = calmReceive { map with lastEviction := last } delivery :=
  receive_eq_calmReceive quiet.2.2 (not_evictsForCap capFor.bounded capFor.cap fits quiet)

theorem SameView.mapStep_other (capFor : CapFor numValidators map)
    (fits : maxStreamsPerPeer * numValidators < 2 ^ 64) (calm : Calm peer numValidators map input)
    (other : input.ofPeer peer = false) : SameView peer clock map (mapStep map input).1 := by
  obtain ⟨quiet, keeps⟩ := calm
  cases input with
  | insert delivery =>
    obtain ⟨last, same⟩ := capFor.receive_eq fits quiet
    unfold KeepsClosed at keeps
    unfold mapStep at keeps ⊢
    dsimp only at keeps ⊢
    rw [same] at keeps ⊢
    exact (SameView.stamped map last).trans
      (SameView.calmReceive_other (of_decide_eq_false other) keeps)
  | markClosed key =>
    have different : key.peer ≠ peer := of_decide_eq_false other
    refine ⟨rfl, fun _ _ => rfl, fun own same => ⟨fun old => keeps own old same, fun new => ?_⟩⟩
    rcases mem_closedKeys_markClosed new with rfl | old
    · exact absurd same different
    · exact old
  | setCurrentHeight height | setNumValidators numValidators => exact quiet.elim

theorem SameView.mapStep_own (capFor : CapFor numValidators first)
    (capFor' : CapFor numValidators second) (fits : maxStreamsPerPeer * numValidators < 2 ^ 64)
    (view : SameView peer clock first second) (calm : Calm peer numValidators first input)
    (calm' : Calm peer numValidators second input') (own : input.ofPeer peer = true)
    (own' : input'.ofPeer peer = true) (same : input.retimed clock = input'.retimed clock) :
    (mapStep first input).2 = (mapStep second input').2 ∧
      SameView peer clock (mapStep first input).1 (mapStep second input').1 := by
  obtain ⟨quiet, keeps⟩ := calm
  obtain ⟨quiet', keeps'⟩ := calm'
  cases input with
  | insert delivery =>
    cases input' with
    | insert delivery' =>
      obtain ⟨-, messages, times⟩ := Delivery.mk.inj (MapInput.insert.inj same)
      obtain ⟨last, here⟩ := capFor.receive_eq fits quiet
      obtain ⟨last', there⟩ := capFor'.receive_eq fits quiet'
      unfold KeepsClosed at keeps keeps'
      unfold mapStep at keeps keeps' ⊢
      dsimp only at keeps keeps' ⊢
      rw [here] at keeps ⊢
      rw [there] at keeps' ⊢
      have stamped := ((SameView.stamped first last).symm.trans view).trans
        (SameView.stamped second last')
      obtain ⟨answers, after⟩ := stamped.calmReceive_own (of_decide_eq_true own)
        (of_decide_eq_true own') messages times keeps keeps'
      exact ⟨congrArg some answers, after⟩
    | markClosed key | setCurrentHeight height | setNumValidators numValidators => cases same
  | markClosed key =>
    cases input' with
    | insert delivery' => cases same
    | markClosed key' =>
      obtain rfl : key = key' := MapInput.markClosed.inj same
      exact ⟨rfl, view.height, view.streams, view.markClosed keeps keeps'⟩
    | setCurrentHeight height | setNumValidators numValidators => cases same
  | setCurrentHeight height | setNumValidators numValidators => exact quiet.elim

/-- **Peers are isolated.** Two calm runs with the same operations of a peer, up to the clock and
mixed with any operations of other peers, answer the peer alike and leave it the same streams, and
the cap never evicts. -/
theorem peers_are_isolated {height : Height} {start start' : ℕ} {inputs inputs' : List MapInput}
    (fits : maxStreamsPerPeer * numValidators < 2 ^ 64)
    (calm : Along mapStep (Calm peer numValidators) (.new height numValidators start) inputs)
    (calm' : Along mapStep (Calm peer numValidators) (.new height numValidators start') inputs')
    (same : (inputs.filter (MapInput.ofPeer peer)).map (MapInput.retimed clock) =
      (inputs'.filter (MapInput.ofPeer peer)).map (MapInput.retimed clock)) :
    outputsOf mapStep (MapInput.ofPeer peer) (.new height numValidators start) inputs =
        outputsOf mapStep (MapInput.ofPeer peer) (.new height numValidators start') inputs' ∧
      SameView peer clock (run mapStep (.new height numValidators start) inputs)
        (run mapStep (.new height numValidators start') inputs') ∧
      Along mapStep (fun map input => ¬ EvictsForCap map input)
        (.new height numValidators start) inputs ∧
      Along mapStep (fun map input => ¬ EvictsForCap map input)
        (.new height numValidators start') inputs' := by
  have keeps : ∀ map input, CapFor numValidators map → Calm peer numValidators map input →
      CapFor numValidators (mapStep map input).1 := fun _ _ capFor calm => capFor.mapStep calm.1
  have spares : ∀ map input, CapFor numValidators map → Calm peer numValidators map input →
      ¬ EvictsForCap map input :=
    fun _ _ capFor calm => not_evictsForCap capFor.bounded capFor.cap fits calm.1
  have begins : SameView peer clock (.new height numValidators start)
      (.new height numValidators start') := ⟨rfl, fun _ _ => rfl, fun _ _ => Iff.rfl⟩
  have equal := @unwinding _ _ _ _ mapStep (MapInput.ofPeer peer) (MapInput.retimed clock)
    (SameView peer clock) (CapFor numValidators) (Calm peer numValidators)
    (fun _ _ => SameView.symm) (fun _ _ _ => SameView.trans) keeps
    (fun _ _ capFor calm other => SameView.mapStep_other capFor fits calm other)
    (fun _ _ _ _ capFor capFor' view calm calm' own own' same =>
      SameView.mapStep_own capFor capFor' fits view calm calm' own own' same)
    _ _ _ _ begins (capFor_new height numValidators start)
    (capFor_new height numValidators start') calm calm' same
  exact ⟨equal.1, equal.2, along_of_invariant keeps spares (capFor_new _ _ _) calm,
    along_of_invariant keeps spares (capFor_new _ _ _) calm'⟩

end Runs

section Isolated

/-- The first message of the sample stream, from a peer that also closes one of its keys. -/
def ownInputs : List MapInput := [.insert (sampleDelivery 0), .markClosed ⟨[1], newStreamId 1 0 9⟩]

/-- The same operations, later, among messages of another peer. -/
def mixedInputs : List MapInput :=
  [.insert ⟨[2], ⟨newStreamId 1 0 5, 0, .fin⟩, 200⟩, .insert { sampleDelivery 0 with now := 300 },
    .insert ⟨[2], ⟨newStreamId 1 0 6, 128, .fin⟩, 400⟩, .markClosed ⟨[1], newStreamId 1 0 9⟩]

theorem peers_are_isolated_mixedInputs :
    outputsOf mapStep (MapInput.ofPeer [1]) (.new 1 2 0) ownInputs =
        outputsOf mapStep (MapInput.ofPeer [1]) (.new 1 2 50) mixedInputs ∧
      SameView [1] (fun _ => 0) (run mapStep (.new 1 2 0) ownInputs)
        (run mapStep (.new 1 2 50) mixedInputs) ∧
      Along mapStep (fun map input => ¬ EvictsForCap map input) (.new 1 2 0) ownInputs ∧
      Along mapStep (fun map input => ¬ EvictsForCap map input) (.new 1 2 50) mixedInputs :=
  peers_are_isolated (by decide) (by decide +kernel) (by decide +kernel) rfl

end Isolated

/-! ### A flooded cache -/

section Flood

variable {peer : PeerId} {map : PartStreamsMap} {delivery : Delivery}

/-- A map without streams, shortly after a sweep. -/
structure Idle (map : PartStreamsMap) (now : ℕ) : Prop where
  empty : map.streams = ∅
  cap : 0 < map.maxTotalStreams
  early : now - map.lastEviction < maxStreamAge

theorem Idle.evictOldStreams_eq {now : ℕ} (idle : Idle map now) : map.evictOldStreams now = map :=
  if_pos idle.early

theorem Idle.makeRoom_eq {now : ℕ} (idle : Idle map now) (key : StreamKey) :
    map.makeRoom key = some map := by
  have absent : map.streams.get key = none := by rw [idle.empty]; rfl
  have none_of_peer : map.peerStreamsCount key.peer = 0 := by
    unfold PartStreamsMap.peerStreamsCount
    rw [idle.empty]
    rfl
  have length : map.streams.len = 0 := by rw [idle.empty]; rfl
  have cap := idle.cap
  unfold PartStreamsMap.makeRoom
  rw [absent, none_of_peer, length, if_neg (by simp), if_neg (by decide), if_neg (by omega)]

theorem Idle.receive_eq (idle : Idle map delivery.now) {height : Height}
    (passes : refusal map.currentHeight delivery.message.streamId = none)
    (encoded : streamIdHeight delivery.message.streamId = some height)
    (unclosed : delivery.key ∉ map.closedKeys) :
    receive map delivery =
      (((StreamState.new delivery.now).effect height delivery.message).1.apply map delivery.key,
        ((StreamState.new delivery.now).effect height delivery.message).2) := by
  have absent : map.streams.get delivery.key = none := by rw [idle.empty]; rfl
  rcases receive_cases map delivery with ⟨result, refused, -⟩ | ⟨-, closed | full, -⟩ |
    ⟨admitted, found, -, same, -, opened, reached⟩
  · rw [passes] at refused
    cases refused
  · rw [idle.evictOldStreams_eq] at closed
    exact absurd closed unclosed
  · rw [idle.evictOldStreams_eq, idle.makeRoom_eq] at full
    cases full
  · rw [idle.evictOldStreams_eq, idle.makeRoom_eq, Option.some.injEq] at opened
    rw [encoded, Option.some.injEq] at same
    rw [reached, ← opened, ← same, PartStreamsMap.deliver, absent]
    rfl

theorem card_livePeers_le (map : PartStreamsMap) (peer : PeerId) :
    (map.livePeers peer).card ≤ map.streams.len + 1 := by
  refine (List.toFinset_card_le _).trans ?_
  rw [List.length_cons, List.length_map, Table.len_eq_length_keys]

theorem Idle.quiet (idle : Idle map delivery.now) (peer : PeerId) :
    Quiet peer 2 map (.insert delivery) := by
  have length : map.streams.len = 0 := by rw [idle.empty]; rfl
  have alone : (map.livePeers peer).card ≤ 2 := (card_livePeers_le map peer).trans (by omega)
  refine ⟨alone, ?_, fun late => absurd late (not_le.mpr idle.early)⟩
  unfold PartStreamsMap.during
  cases refusal map.currentHeight delivery.message.streamId with
  | some result => exact alone
  | none =>
    dsimp only
    split_ifs with closed
    · exact alone
    · rw [idle.evictOldStreams_eq, idle.makeRoom_eq]
      refine (card_livePeers_le _ peer).trans ?_
      have absent : map.streams.get delivery.key = none := by rw [idle.empty]; rfl
      rw [Table.len_eq_length_keys, (Table.keys_insert_perm _ absent).length_eq, List.length_cons,
        ← Table.len_eq_length_keys]
      omega

/-- An end of a stream with a number that no stream has. -/
def badFin (peer : PeerId) (id : StreamId) : Delivery := ⟨peer, ⟨id, 128, .fin⟩, 100⟩

theorem Idle.receive_badFin {id : StreamId} (idle : Idle map 100)
    (passes : refusal map.currentHeight id = none) (unclosed : ⟨peer, id⟩ ∉ map.closedKeys) :
    receive map (badFin peer id) = (map.markClosed ⟨peer, id⟩, .pending) := by
  have current : StreamKey.Current map.currentHeight ⟨peer, id⟩ := refusal_eq_none.mp passes
  obtain ⟨-, height, encoded, -⟩ := current
  have idle : Idle map (badFin peer id).now := idle
  have opened : receive map (badFin peer id) = (map.evict ⟨peer, id⟩, .pending) :=
    idle.receive_eq passes encoded unclosed
  have dropped : map.dropStream ⟨peer, id⟩ = map := by
    obtain ⟨currentHeight, maxTotalStreams, streams, closedKeys, lastEviction⟩ := map
    obtain rfl : streams = ∅ := idle.empty
    rfl
  rw [opened]
  unfold PartStreamsMap.evict
  rw [dropped]

/-- As many keys as the cache holds, the last ones. -/
def newestKeys (keys : List StreamKey) : List StreamKey := keys.drop (keys.length - maxClosedStreams)

theorem newestKeys_append (first second : List StreamKey) :
    newestKeys (newestKeys first ++ second) = newestKeys (first ++ second) := by
  unfold newestKeys
  rw [← List.drop_append_of_le_length (Nat.sub_le _ _), List.drop_drop, List.length_drop,
    List.length_append]
  exact congrArg (List.drop · (first ++ second)) (by omega)

theorem markClosed_of_fresh {key : StreamKey} (unclosed : key ∉ map.closedKeys)
    (most : map.closedKeys.length ≤ maxClosedStreams) :
    map.markClosed key = { map with closedKeys := newestKeys (map.closedKeys ++ [key]) } := by
  have length : (map.closedKeys ++ [key]).length = map.closedKeys.length + 1 := List.length_append
  unfold PartStreamsMap.markClosed newestKeys
  rw [List.erase_of_not_mem unclosed]
  dsimp only
  split_ifs with full
  · rw [show (map.closedKeys ++ [key]).length - maxClosedStreams = 1 by omega]
  · rw [Nat.sub_eq_zero_of_le (not_lt.mp full), List.drop_zero]

/-- **A flood of bad ends leaves the newest keys in the cache**, and is quiet all along. -/
theorem Idle.run_flood {keys : List StreamKey} (idle : Idle map 100)
    (valid : ∀ key ∈ keys, refusal map.currentHeight key.streamId = none)
    (distinct : (map.closedKeys ++ keys).Nodup)
    (most : map.closedKeys.length ≤ maxClosedStreams) (other : PeerId) :
    run mapStep map (keys.map fun key => .insert (badFin key.peer key.streamId)) =
        { map with closedKeys := newestKeys (map.closedKeys ++ keys) } ∧
      Along mapStep (Quiet other 2) map
        (keys.map fun key => .insert (badFin key.peer key.streamId)) := by
  induction keys generalizing map with
  | nil =>
    rw [List.append_nil, newestKeys, Nat.sub_eq_zero_of_le most]
    exact ⟨rfl, trivial⟩
  | cons key rest ih =>
    have fresh : key ∉ map.closedKeys := fun old =>
      (List.nodup_append.mp distinct).2.2 key old key List.mem_cons_self rfl
    have stepped : (mapStep map (.insert (badFin key.peer key.streamId))).1 =
        { map with closedKeys := newestKeys (map.closedKeys ++ [key]) } := by
      rw [← markClosed_of_fresh fresh most]
      exact congrArg Prod.fst (idle.receive_badFin (valid key List.mem_cons_self) fresh)
    rw [List.append_cons] at distinct
    have later : (newestKeys (map.closedKeys ++ [key]) ++ rest).Nodup :=
      distinct.sublist ((List.drop_sublist _ _).append_right rest)
    have full : (newestKeys (map.closedKeys ++ [key])).length ≤ maxClosedStreams := by
      rw [newestKeys, List.length_drop]
      omega
    have newest := newestKeys_append (map.closedKeys ++ [key]) rest
    generalize newestKeys (map.closedKeys ++ [key]) = closed at stepped later full newest
    have next : Idle { map with closedKeys := closed } 100 := ⟨idle.empty, idle.cap, idle.early⟩
    obtain ⟨final, quiet⟩ :=
      ih next (fun other member => valid other (List.mem_cons_of_mem _ member)) later full
    rw [List.map_cons, run, Along, stepped, final, newest, List.append_assoc]
    exact ⟨rfl, Idle.quiet idle other, quiet⟩

theorem refusal_newStreamId (height : Height) (round nonce : Fin (2 ^ 32)) :
    refusal height (newStreamId height round nonce) = none := by
  have current : StreamKey.Current height ⟨[], newStreamId height round nonce⟩ :=
    ⟨length_newStreamId height round nonce, height, streamIdHeight_newStreamId height round nonce,
      le_rfl⟩
  exact refusal_eq_none.mpr current

variable (count : ℕ)

/-- Stream ids of the first height, one for each nonce below a bound. -/
def floodIds : List StreamId :=
  (List.range count).map fun nonce => newStreamId 1 0 (Fin.ofNat (2 ^ 32) nonce)

theorem length_floodIds : (floodIds count).length = count := by
  unfold floodIds
  rw [List.length_map, List.length_range]

theorem floodIds_nodup {count : ℕ} (small : count ≤ 2 ^ 32) : (floodIds count).Nodup := by
  refine List.Nodup.map_on ?_ List.nodup_range
  intro first here second there same
  have values := congrArg Fin.val (newStreamId_injective same).2.2
  rw [Fin.val_ofNat, Fin.val_ofNat] at values
  rw [List.mem_range] at here there
  rwa [Nat.mod_eq_of_lt (by omega), Nat.mod_eq_of_lt (by omega)] at values

theorem refusal_of_mem_floodIds {count : ℕ} : ∀ id ∈ floodIds count, refusal 1 id = none := by
  intro id member
  obtain ⟨nonce, -, rfl⟩ := List.mem_map.mp member
  exact refusal_newStreamId 1 0 _

/-- A stream is closed by a bad end, and its first part arrives again with another height. -/
def closedStreamInputs (between : List MapInput) : List MapInput :=
  .insert (badFin [1] (newStreamId 1 0 0)) :: (between ++
    [.insert ⟨[1], ⟨newStreamId 1 0 0, 0, .data (.init ⟨2, .some 0, .nil, 3⟩)⟩, 100⟩])

/-- Another peer closes as many keys as the cache holds. -/
def floodInputs : List MapInput :=
  (floodIds maxClosedStreams).map fun id => .insert (badFin [2] id)

/-- The map after the flood: the key of the first peer is no longer closed. -/
def floodedMap : PartStreamsMap :=
  { PartStreamsMap.new 1 2 0 with
    closedKeys := (floodIds maxClosedStreams).map (StreamKey.mk [2]) }

/-- The keys that are closed, one more than the cache holds: the flood pushes the first one out. -/
def closedInTurn : List StreamKey :=
  ⟨[1], newStreamId 1 0 0⟩ :: (floodIds maxClosedStreams).map (StreamKey.mk [2])

theorem closedInTurn_nodup : closedInTurn.Nodup := by
  refine List.nodup_cons.mpr ⟨fun listed => ?_,
    (floodIds_nodup (by decide)).map fun _ _ same => (StreamKey.mk.inj same).2⟩
  obtain ⟨id, -, same⟩ := List.mem_map.mp listed
  exact absurd (StreamKey.mk.inj same).1 (by decide)

theorem newestKeys_closedInTurn :
    newestKeys closedInTurn = (floodIds maxClosedStreams).map (StreamKey.mk [2]) := by
  rw [newestKeys, closedInTurn, List.length_cons, List.length_map, length_floodIds,
    Nat.add_sub_cancel_left]
  rfl

theorem run_floodInputs :
    run mapStep (.new 1 2 0) (.insert (badFin [1] (newStreamId 1 0 0)) :: floodInputs) =
        floodedMap ∧
      Along mapStep (Quiet [1] 2) (.new 1 2 0)
        (.insert (badFin [1] (newStreamId 1 0 0)) :: floodInputs) := by
  have idle : Idle (.new 1 2 0) 100 := ⟨rfl, by decide, by decide⟩
  have valid : ∀ key ∈ closedInTurn, refusal 1 key.streamId = none := by
    rw [closedInTurn, List.forall_mem_cons, List.forall_mem_map]
    exact ⟨refusal_newStreamId 1 0 0, refusal_of_mem_floodIds⟩
  have flood := idle.run_flood valid closedInTurn_nodup (Nat.zero_le _) [1]
  rw [show (PartStreamsMap.new 1 2 0).closedKeys ++ closedInTurn = closedInTurn from rfl,
    newestKeys_closedInTurn, closedInTurn, List.map_cons, List.map_map] at flood
  exact flood

/-- **A flooded cache reopens a stream.** Another peer closes as many keys as the cache holds, all
steps are quiet for two validators, and the peer's second message is answered where it would have
been dropped. -/
theorem flooded_cache_reopens_stream :
    Along mapStep (Quiet [1] 2) (.new 1 2 0) (closedStreamInputs []) ∧
      Along mapStep (Quiet [1] 2) (.new 1 2 0) (closedStreamInputs floodInputs) ∧
      (closedStreamInputs floodInputs).filter (MapInput.ofPeer [1]) =
        (closedStreamInputs []).filter (MapInput.ofPeer [1]) ∧
      outputsOf mapStep (MapInput.ofPeer [1]) (.new 1 2 0) (closedStreamInputs []) =
        [some .pending, some .pending] ∧
      outputsOf mapStep (MapInput.ofPeer [1]) (.new 1 2 0) (closedStreamInputs floodInputs) =
        [some .pending, some (.invalid (.streamIdHeightMismatch 1 2))] := by
  obtain ⟨reached, quiet⟩ := run_floodInputs
  let again : Delivery := ⟨[1], ⟨newStreamId 1 0 0, 0, .data (.init ⟨2, .some 0, .nil, 3⟩)⟩, 100⟩
  have idleFirst : Idle (.new 1 2 0) 100 := ⟨rfl, by decide, by decide⟩
  have idle : Idle floodedMap again.now := ⟨idleFirst.empty, idleFirst.cap, idleFirst.early⟩
  have unclosed : again.key ∉ floodedMap.closedKeys := by
    unfold floodedMap
    dsimp only
    intro listed
    obtain ⟨id, -, same⟩ := List.mem_map.mp listed
    obtain ⟨peers, -⟩ := StreamKey.mk.inj same
    exact absurd peers (by decide)
  have answer : (receive floodedMap again).2 = .invalid (.streamIdHeightMismatch 1 2) := by
    rw [idle.receive_eq (refusal_newStreamId 1 0 0) (streamIdHeight_newStreamId 1 0 0) unclosed]
    rfl
  have others : ∀ input ∈ floodInputs, MapInput.ofPeer [1] input = false := by
    unfold floodInputs
    intro input member
    obtain ⟨id, -, rfl⟩ := List.mem_map.mp member
    rfl
  have front : closedStreamInputs floodInputs =
      (.insert (badFin [1] (newStreamId 1 0 0)) :: floodInputs) ++ [.insert again] := by
    unfold closedStreamInputs
    rw [List.cons_append]
  refine ⟨by decide +kernel, ?_, ?_, by decide +kernel, ?_⟩
  · rw [front, along_append, reached]
    exact ⟨quiet, Idle.quiet idle [1], trivial⟩
  · have none : floodInputs.filter (MapInput.ofPeer [1]) = [] :=
      List.filter_eq_nil_iff.mpr fun input member => by simp [others input member]
    rw [front, List.filter_append, List.filter_cons, none]
    rfl
  · have opened := idleFirst.receive_badFin (refusal_newStreamId 1 0 0)
      (List.not_mem_nil (a := (⟨[1], newStreamId 1 0 0⟩ : StreamKey)))
    rw [front, outputsOf_append, reached, outputsOf, if_pos (by rfl), outputsOf_eq_nil others]
    show [some (receive _ _).2] ++ [some (receive floodedMap again).2] = _
    rw [answer, opened]
    rfl

end Flood

end ArcNode.App
