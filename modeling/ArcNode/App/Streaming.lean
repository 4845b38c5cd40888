/-
**Streams of proposal parts.**

A proposal travels as numbered stream messages. `StreamState` collects the messages of one stream:
sequences it has seen are ignored, the end-of-stream message fixes how many there are, and the
stream is complete when that many are buffered. `PartStreamsMap` keeps one such state per peer and
stream id, bounds streams per peer and in total, ages them out and remembers closed keys. Times are
instants of the monotonic clock in milliseconds, passed in by the caller.
-/

import ArcNode.Lib.OrderedTable
import ArcNode.Types.Block

namespace ArcNode.App

open ArcNode.Lib ArcNode.Types

/-! ### Limits -/

def maxMessagesPerStream : ℕ := 128

def maxStreamsPerPeer : ℕ := 4

def chunkSize : ℕ := 128 * 1024

/-- `MAX_STREAM_AGE`, in milliseconds. -/
def maxStreamAge : ℕ := 60000

def maxClosedStreams : ℕ := 10000

/-- `STREAM_ID_LEN`: height, round and nonce. -/
def streamIdLen : ℕ := 16

/-- The cap on all live streams. -/
def maxTotalStreams (numValidators : ℕ) : ℕ :=
  max (min (maxStreamsPerPeer * numValidators) (2 ^ 64 - 1)) maxStreamsPerPeer

def isValidFinSequence (sequence : ℕ) : Bool := sequence < maxMessagesPerStream

/-! ### Messages -/

/-- The identity of a peer. -/
abbrev PeerId := List Byte

/-- The identity a sender gives a stream. -/
abbrev StreamId := List Byte

/-- `new_stream_id`, for a round that is not nil. -/
def newStreamId (height : Height) (round : Fin (2 ^ 32)) (nonce : Fin (2 ^ 32)) : StreamId :=
  beBytes 8 height.val ++ (beBytes 4 round.val ++ beBytes 4 nonce.val)

/-- The height in the leading eight bytes of a stream id. -/
def streamIdHeight (id : StreamId) : Option Height :=
  if 8 ≤ id.length then some (Height.new (beValue (id.take 8))) else none

/-- A part, or the end of the stream. -/
inductive StreamContent where
  | data (part : ProposalPart)
  | fin
  deriving DecidableEq

/-- One message of a stream; sequence numbers are `u64`. -/
structure StreamMessage where
  streamId : StreamId
  sequence : ℕ
  content : StreamContent
  deriving DecidableEq

def StreamMessage.isFin (message : StreamMessage) : Bool := message.content = .fin

def StreamContent.intoData : StreamContent → Option ProposalPart
  | .data part => some part
  | .fin => none

/-- The height a message announces: an `Init` part carries it. -/
def StreamContent.initHeight : StreamContent → Option Height
  | .data (.init part) => some part.height
  | _ => none

/-- The size of a data part that is larger than a chunk. -/
def StreamContent.oversized : StreamContent → Option ℕ
  | .data (.data bytes) => if chunkSize < bytes.length then some bytes.length else none
  | _ => none

/-! ### One stream -/

/-- The messages of a stream that is being assembled. -/
structure StreamState where
  buffer : List StreamMessage
  seenSequences : List ℕ
  expectedMessages : ℕ
  messageCount : ℕ
  height : Option Height
  finReceived : Bool
  isComplete : Bool
  createdAt : ℕ
  deriving DecidableEq

/-- What one message does to its stream. -/
inductive StreamInsertResult where
  | duplicate
  | incomplete (height : Option Height)
  | exceededMaxMessages
  | invalidFinSequence (sequence : ℕ)
  | exceededMaxChunkSize (actual : ℕ)
  | complete (parts : List ProposalPart)
  deriving DecidableEq

namespace StreamState

def new (now : ℕ) : StreamState where
  buffer := []
  seenSequences := []
  expectedMessages := 0
  messageCount := 0
  height := none
  finReceived := false
  isComplete := false
  createdAt := now

/-- The parts of a buffer in the order the heap gives them: by sequence. -/
def drain (buffer : List StreamMessage) : List ProposalPart :=
  (buffer.insertionSort fun first second => first.sequence ≤ second.sequence).filterMap
    fun message => message.content.intoData

variable (state : StreamState)

/-- A new message enters the buffer: it is counted, an `Init` fixes the height and the end of the
stream fixes the number of messages. -/
def push (message : StreamMessage) : StreamState :=
  { state with
    buffer := state.buffer ++ [message]
    seenSequences := message.sequence :: state.seenSequences
    messageCount := state.messageCount + 1
    height := message.content.initHeight <|> state.height
    finReceived := state.finReceived || message.isFin
    expectedMessages :=
      if message.isFin then message.sequence + 1 else state.expectedMessages }

/-- `Init` and the end are there, and as many messages as the end announces. -/
def hasAll : Bool :=
  state.height.isSome && state.finReceived && state.buffer.length = state.expectedMessages

/-- `StreamState::insert`; the limits are checked in this order. -/
def insert (message : StreamMessage) : StreamState × StreamInsertResult :=
  match message.content.oversized with
  | some actual => (state, .exceededMaxChunkSize actual)
  | none =>
    if message.isFin && !isValidFinSequence message.sequence then
      (state, .invalidFinSequence message.sequence)
    else if message.sequence ∈ state.seenSequences then (state, .duplicate)
    else if maxMessagesPerStream ≤ state.messageCount then
      ({ state with seenSequences := message.sequence :: state.seenSequences },
        .exceededMaxMessages)
    else
      let pushed := state.push message
      if pushed.hasAll then
        ({ pushed with buffer := [], isComplete := true }, .complete (drain pushed.buffer))
      else ({ pushed with isComplete := false }, .incomplete pushed.height)

end StreamState

/-! ### All streams -/

/-- The key of a stream. -/
@[ext] structure StreamKey where
  peer : PeerId
  streamId : StreamId

def StreamKey.toTuple (key : StreamKey) : PeerId ×ₗ StreamId := toLex (key.peer, key.streamId)

theorem StreamKey.toTuple_injective : Function.Injective StreamKey.toTuple := by
  intro first second same
  obtain ⟨peers, ids⟩ := Prod.mk.inj (toLex.injective same)
  exact StreamKey.ext peers ids

instance : LinearOrder StreamKey := LinearOrder.lift' StreamKey.toTuple StreamKey.toTuple_injective

instance StreamKey.lawfulBEq : LawfulBEq StreamKey := inferInstance

/-- Why a message of a stream is rejected. -/
inductive InsertError where
  | invalidStreamIdLength (actual expected : ℕ)
  | streamIdHeightMismatch (streamHeight initHeight : Height)
  | assemblyFailed (error : ProposalPartsError)
  deriving DecidableEq

/-- The answer to a message. -/
inductive InsertResult where
  | complete (parts : ProposalParts)
  | pending
  | stale
  | invalid (error : InsertError)
  deriving DecidableEq

/-- The live streams of all peers and the keys that are closed, oldest first. -/
structure PartStreamsMap where
  currentHeight : Height
  maxTotalStreams : ℕ
  streams : Table StreamKey StreamState
  closedKeys : List StreamKey
  lastEviction : ℕ

namespace PartStreamsMap

def new (currentHeight : Height) (numValidators now : ℕ) : PartStreamsMap where
  currentHeight := currentHeight
  maxTotalStreams := App.maxTotalStreams numValidators
  streams := ∅
  closedKeys := []
  lastEviction := now

variable (map : PartStreamsMap)

/-- `mark_closed`: the key becomes the newest closed one; the oldest one makes room. -/
def markClosed (key : StreamKey) : PartStreamsMap :=
  let closed := map.closedKeys.erase key ++ [key]
  { map with
    closedKeys := if maxClosedStreams < closed.length then closed.drop 1 else closed }

/-- Stop tracking a stream without closing its key. -/
def dropStream (key : StreamKey) : PartStreamsMap :=
  { map with streams := map.streams.remove key }

/-- Drop a stream and close its key. -/
def evict (key : StreamKey) : PartStreamsMap :=
  (map.dropStream key).markClosed key

/-- The streams older than the age limit. -/
def expiredKeys (now : ℕ) : List StreamKey :=
  (map.streams.entries.filter fun entry => maxStreamAge < now - entry.2.createdAt).map Prod.fst

/-- `evict_old_streams`, which looks at the ages once per age limit. -/
def evictOldStreams (now : ℕ) : PartStreamsMap :=
  if now - map.lastEviction < maxStreamAge then map
  else (map.expiredKeys now).foldl evict { map with lastEviction := now }

variable (peer : PeerId)

def peerStreamsCount : ℕ :=
  map.streams.keys.countP fun key => key.peer = peer

/-- `busiest_peer`: the last peer, in key order, among those with the most streams. -/
def busiestPeer : Option PeerId :=
  map.streams.keys.foldl
    (fun best key =>
      match best with
      | none => some key.peer
      | some peer =>
        if map.peerStreamsCount peer ≤ map.peerStreamsCount key.peer then some key.peer
        else some peer)
    none

/-- `oldest_stream_of`: the first stream, in key order, among the oldest of a peer. -/
def oldestStreamOf : Option StreamKey :=
  ((map.streams.entries.filter fun entry => entry.1.peer = peer).foldl (fun best entry =>
      match best with
      | none => some entry
      | some oldest => if entry.2.createdAt < oldest.2.createdAt then some entry else some oldest)
    (none : Option (StreamKey × StreamState))).map Prod.fst

/-- `evict_oldest_stream`, of the busiest peer. -/
def evictOldestStream : PartStreamsMap :=
  match map.busiestPeer.bind map.oldestStreamOf with
  | none => map
  | some key => map.evict key

/-- `set_current_height`: streams of lower heights go. -/
def setCurrentHeight (height : Height) : PartStreamsMap :=
  { map with
    currentHeight := height
    streams := map.streams.retain fun key _ => ∃ found ∈ streamIdHeight key.streamId, height ≤ found }

/-- `set_num_validators`: evicts until the cap holds, one stream at a time. -/
def setNumValidators (numValidators : ℕ) : PartStreamsMap :=
  let capped := { map with maxTotalStreams := App.maxTotalStreams numValidators }
  evictOldestStream^[capped.streams.len - capped.maxTotalStreams] capped

end PartStreamsMap

/-! ### One message -/

/-- What a message leaves of its stream: a new state, a closed key or nothing. -/
inductive StreamEffect where
  | keep (state : StreamState)
  | close
  | finish

def StreamEffect.apply (map : PartStreamsMap) (key : StreamKey) : StreamEffect → PartStreamsMap
  | keep state => { map with streams := map.streams.insert key state }
  | close => map.evict key
  | finish => map.dropStream key

/-- The arms of `insert`: what follows from the result of the stream, whose state is `after`. -/
def StreamInsertResult.effect (streamHeight : Height) (after : StreamState) :
    StreamInsertResult → StreamEffect × InsertResult
  | .duplicate => (.keep after, .pending)
  | .incomplete none => (.keep after, .pending)
  | .incomplete (some initHeight) =>
    if initHeight ≠ streamHeight then
      (.close, .invalid (.streamIdHeightMismatch streamHeight initHeight))
    else (.keep after, .pending)
  | .exceededMaxMessages => (.close, .pending)
  | .invalidFinSequence _ => (.close, .pending)
  | .exceededMaxChunkSize _ => (.close, .pending)
  | .complete parts =>
    match ProposalParts.new parts with
    | .error error => (.finish, .invalid (.assemblyFailed error))
    | .ok proposal =>
      if proposal.height ≠ streamHeight then
        (.close, .invalid (.streamIdHeightMismatch streamHeight proposal.height))
      else (.finish, .complete proposal)

/-- The effect of a message, and its answer, from the state of the stream alone. -/
def StreamState.effect (state : StreamState) (streamHeight : Height) (message : StreamMessage) :
    StreamEffect × InsertResult :=
  let (after, result) := state.insert message
  result.effect streamHeight after

namespace PartStreamsMap

variable (map : PartStreamsMap) (peer : PeerId)

/-- Room for a stream: a live one has it, a new one needs a free slot of its peer and may push out
the oldest stream of the busiest peer. -/
def makeRoom (key : StreamKey) : Option PartStreamsMap :=
  if (map.streams.get key).isSome then some map
  else if maxStreamsPerPeer ≤ map.peerStreamsCount key.peer then none
  else if map.maxTotalStreams ≤ map.streams.len then some map.evictOldestStream
  else some map

/-- The end of `insert`: what the message leaves of its stream, and the answer. -/
def deliver (key : StreamKey) (streamHeight : Height)
    (message : StreamMessage) (now : ℕ) : PartStreamsMap × InsertResult :=
  ((((map.streams.get key).getD (.new now)).effect streamHeight message).1.apply map key,
    (((map.streams.get key).getD (.new now)).effect streamHeight message).2)

/-- `PartStreamsMap::insert`. -/
def insert (message : StreamMessage) (now : ℕ) : PartStreamsMap × InsertResult :=
  let key : StreamKey := ⟨peer, message.streamId⟩
  let actual := message.streamId.length
  if actual ≠ streamIdLen then
    (map.dropStream key, .invalid (.invalidStreamIdLength actual streamIdLen))
  else
    match streamIdHeight message.streamId with
    | none => (map.dropStream key, .invalid (.invalidStreamIdLength actual streamIdLen))
    | some streamHeight =>
      if streamHeight < map.currentHeight then (map.dropStream key, .stale)
      else
        let swept := map.evictOldStreams now
        if key ∈ swept.closedKeys then (swept, .pending)
        else
          match swept.makeRoom key with
          | none => (swept, .pending)
          | some admitted => admitted.deliver key streamHeight message now

end PartStreamsMap

end ArcNode.App
