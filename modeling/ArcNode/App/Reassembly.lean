/-
**A stream is put together again.**

`Collecting sent height state` says that `state` holds some of the messages `sent` of one stream.
A message of the stream that is already there is a duplicate (`insert_of_mem`); one that is not is
added, and the stream completes exactly when every message of `sent` is there
(**`insert_of_notMem`**, `hasAll_iff`). It then yields the parts in the order they were sent,
whatever the order of arrival (`drain_of_perm`).
-/

import ArcNode.App.ProposalParts

namespace ArcNode.App

open ArcNode.Lib ArcNode.Types

/-! ### The messages of one stream -/

section Messages

variable {streamId : StreamId} {parts : List ProposalPart} {message other : StreamMessage}

theorem mem_streamMessages : message ∈ streamMessages streamId parts ↔ message.streamId = streamId ∧
      (parts.map StreamContent.data ++ [StreamContent.fin])[message.sequence]? =
        some message.content := by
  unfold streamMessages
  rw [List.mem_map]
  refine ⟨?_, ?_⟩
  · rintro ⟨⟨content, sequence⟩, member, rfl⟩
    exact ⟨rfl, List.mem_zipIdx_iff_getElem?.mp member⟩
  · rintro ⟨same, found⟩
    refine ⟨(message.content, message.sequence), List.mem_zipIdx_iff_getElem?.mpr found, ?_⟩
    rw [← same]

theorem eq_of_sequence (here : message ∈ streamMessages streamId parts)
    (there : other ∈ streamMessages streamId parts) (same : message.sequence = other.sequence) :
    message = other := by
  obtain ⟨id, content⟩ := mem_streamMessages.mp here
  obtain ⟨id', content'⟩ := mem_streamMessages.mp there
  rw [same, content'] at content
  cases message
  cases other
  simp_all

@[simp] theorem length_streamMessages :
    (streamMessages streamId parts).length = parts.length + 1 := by
  simp [streamMessages]

theorem sequence_streamMessages (index : ℕ) (bound : index < (streamMessages streamId parts).length) :
    (streamMessages streamId parts)[index].sequence = index := by
  simp [streamMessages]

theorem streamMessages_pairwise : (streamMessages streamId parts).Pairwise fun first second =>
      first.sequence < second.sequence := by
  rw [List.pairwise_iff_getElem]
  intro first second small bound less
  rw [sequence_streamMessages, sequence_streamMessages]
  exact less

theorem nodup_streamMessages : (streamMessages streamId parts).Nodup :=
  streamMessages_pairwise.imp fun less same => by simp [same] at less

/-- A message of the stream carries one of the parts, or it is the end and has the last number. -/
theorem content_of_mem (member : message ∈ streamMessages streamId parts) :
    (∃ part ∈ parts, message.content = .data part ∧ message.sequence < parts.length) ∨
      (message.content = .fin ∧ message.sequence = parts.length) := by
  obtain ⟨-, found⟩ := mem_streamMessages.mp member
  by_cases small : message.sequence < parts.length
  · rw [List.getElem?_append_left (by simpa using small), List.getElem?_map,
      Option.map_eq_some_iff] at found
    obtain ⟨part, there, same⟩ := found
    exact .inl ⟨part, List.mem_of_getElem? there, same.symm, small⟩
  · rw [List.getElem?_append_right (by simpa using small), List.length_map,
      List.getElem?_singleton] at found
    by_cases last : message.sequence - parts.length = 0
    · rw [if_pos last, Option.some.injEq] at found
      exact .inr ⟨found.symm, by omega⟩
    · rw [if_neg last] at found
      cases found

theorem fin_mem :
    (⟨streamId, parts.length, .fin⟩ : StreamMessage) ∈ streamMessages streamId parts := by
  rw [mem_streamMessages]
  refine ⟨rfl, ?_⟩
  rw [List.getElem?_append_right (by simp)]
  simp

theorem filterMap_streamMessages :
    (streamMessages streamId parts).filterMap (fun message => message.content.intoData) =
      parts := by
  unfold streamMessages
  rw [List.filterMap_map]
  show (parts.map StreamContent.data ++ [StreamContent.fin]).zipIdx.filterMap
    (StreamContent.intoData ∘ Prod.fst) = parts
  rw [← List.filterMap_map, List.zipIdx_map_fst, List.filterMap_append, List.filterMap_map]
  show parts.filterMap some ++ [] = parts
  rw [List.filterMap_some, List.append_nil]

theorem drain_of_perm {buffer : List StreamMessage}
    (perm : buffer.Perm (streamMessages streamId parts)) : StreamState.drain buffer = parts := by
  have sorted : buffer.insertionSort (fun first second => first.sequence ≤ second.sequence) =
      streamMessages streamId parts := by
    have permuted := (List.perm_insertionSort
      (fun first second : StreamMessage => first.sequence ≤ second.sequence) buffer).trans perm
    refine permuted.eq_of_pairwise (fun first second here there low high => ?_)
      (List.pairwise_insertionSort _ _) (streamMessages_pairwise.imp le_of_lt)
    exact eq_of_sequence (permuted.mem_iff.mp here) there (le_antisymm low high)
  unfold StreamState.drain
  rw [sorted, filterMap_streamMessages]

end Messages

/-! ### Collecting -/

/-- **Parts the receiver's limits let through**: few and small enough, all of one height, with an
`Init` among them. -/
structure Streamable (height : Height) (parts : List ProposalPart) : Prop where
  short : parts.length < maxMessagesPerStream
  fits : ∀ part ∈ parts, (StreamContent.data part).oversized = none
  sameHeight : ∀ part ∈ parts, ∀ announced,
    (StreamContent.data part).initHeight = some announced → announced = height
  announced : ∃ part ∈ parts, (StreamContent.data part).initHeight = some height

/-- **A state that holds some of the messages of a stream**, each at most once. -/
structure Collecting (sent : List StreamMessage) (height : Height) (state : StreamState) : Prop where
  distinct : state.buffer.Nodup
  known : ∀ message ∈ state.buffer, message ∈ sent
  seen : ∀ sequence, sequence ∈ state.seenSequences ↔
    ∃ message ∈ state.buffer, message.sequence = sequence
  counted : state.messageCount = state.buffer.length
  agreed : ∀ announced, state.height = some announced → announced = height
  announced : ∀ message ∈ state.buffer, message.content.initHeight.isSome → state.height.isSome
  ended : state.finReceived = true ↔ ∃ message ∈ state.buffer, message.isFin = true
  expected : state.finReceived = true → state.expectedMessages = sent.length

theorem collecting_new (sent : List StreamMessage) (height : Height) (now : ℕ) :
    Collecting sent height (.new now) := by
  constructor <;> simp [StreamState.new]

section Collecting

variable {streamId : StreamId} {parts : List ProposalPart} {height : Height}
  {message : StreamMessage} {state : StreamState}

section Streamed

variable (streamable : Streamable height parts) (member : message ∈ streamMessages streamId parts)

include streamable member

theorem Streamable.not_oversized : message.content.oversized = none := by
  rcases content_of_mem member with ⟨part, there, same, -⟩ | ⟨same, -⟩
  · rw [same]
    exact streamable.fits part there
  · rw [same]
    rfl

theorem Streamable.sequence_lt : message.sequence < maxMessagesPerStream := by
  have short := streamable.short
  rcases content_of_mem member with ⟨-, -, -, small⟩ | ⟨-, same⟩
  · omega
  · omega

theorem Streamable.initHeight_eq {announced : Height}
    (found : message.content.initHeight = some announced) : announced = height := by
  rcases content_of_mem member with ⟨part, there, same, -⟩ | ⟨same, -⟩
  · rw [same] at found
    exact streamable.sameHeight part there announced found
  · rw [same] at found
    cases found

theorem Streamable.isFin_guard :
    (message.isFin && !isValidFinSequence message.sequence) = false := by
  have small : isValidFinSequence message.sequence = true :=
    decide_eq_true (streamable.sequence_lt member)
  rw [small, Bool.not_true, Bool.and_false]

end Streamed

theorem sequence_of_isFin (member : message ∈ streamMessages streamId parts)
    (last : message.isFin = true) : message.sequence = parts.length := by
  rcases content_of_mem member with ⟨part, -, same, -⟩ | ⟨-, same⟩
  · simp [StreamMessage.isFin, same] at last
  · exact same

namespace Collecting

variable (collecting : Collecting (streamMessages streamId parts) height state)
  (streamable : Streamable height parts) (member : message ∈ streamMessages streamId parts)

include collecting

theorem perm (all : ∀ message ∈ streamMessages streamId parts, message ∈ state.buffer) :
    state.buffer.Perm (streamMessages streamId parts) :=
  (collecting.distinct.subperm collecting.known).antisymm (nodup_streamMessages.subperm all)

include streamable

/-- **The stream has all its messages exactly when every message sent is there.** -/
theorem hasAll_iff :
    state.hasAll = true ↔ ∀ message ∈ streamMessages streamId parts, message ∈ state.buffer := by
  unfold StreamState.hasAll
  rw [Bool.and_eq_true, Bool.and_eq_true, decide_eq_true_eq]
  refine ⟨?_, ?_⟩
  · rintro ⟨⟨-, received⟩, full⟩ message member
    have subperm := collecting.distinct.subperm collecting.known
    rw [collecting.expected received] at full
    exact (subperm.perm_of_length_le full.ge).mem_iff.mpr member
  · intro all
    have received : state.finReceived = true := collecting.ended.mpr ⟨_, all _ fin_mem, by rfl⟩
    refine ⟨⟨?_, received⟩, ?_⟩
    · obtain ⟨part, there, carried⟩ := streamable.announced
      obtain ⟨index, bound, same⟩ := List.getElem_of_mem there
      have member : (⟨streamId, index, .data part⟩ : StreamMessage) ∈
          streamMessages streamId parts := by
        rw [mem_streamMessages]
        refine ⟨rfl, ?_⟩
        show (parts.map StreamContent.data ++ [StreamContent.fin])[index]? = _
        rw [List.getElem?_append_left (by simpa using bound)]
        simp [bound, same]
      exact collecting.announced _ (all _ member) (by simp [carried])
    · rw [collecting.expected received]
      exact (collecting.perm all).length_eq

include member

theorem push (fresh : message ∉ state.buffer) :
    Collecting (streamMessages streamId parts) height (state.push message) where
  distinct := by
    show (state.buffer ++ [message]).Nodup
    rw [List.nodup_append]
    refine ⟨collecting.distinct, List.nodup_singleton _, ?_⟩
    rintro first here second there rfl
    rw [List.mem_singleton] at there
    exact fresh (there ▸ here)
  known := by
    intro other there
    rcases List.mem_append.mp there with old | new
    · exact collecting.known other old
    · rwa [List.mem_singleton.mp new]
  seen := by
    intro sequence
    simp only [StreamState.push, List.mem_cons, collecting.seen, List.mem_append,
      List.not_mem_nil, or_false]
    refine ⟨?_, ?_⟩
    · rintro (rfl | ⟨other, there, same⟩)
      · exact ⟨message, .inr rfl, rfl⟩
      · exact ⟨other, .inl there, same⟩
    · rintro ⟨other, there | rfl, same⟩
      · exact .inr ⟨other, there, same⟩
      · exact .inl same.symm
  counted := by
    show state.messageCount + 1 = (state.buffer ++ [message]).length
    rw [collecting.counted, List.length_append, List.length_singleton]
  agreed := by
    intro announced found
    cases carried : message.content.initHeight with
    | none =>
      simp only [StreamState.push, carried] at found
      exact collecting.agreed announced (by simpa using found)
    | some carriedHeight =>
      simp only [StreamState.push, carried] at found
      exact streamable.initHeight_eq member (carried.trans (by simpa using found))
  announced := by
    intro other there carries
    cases carried : message.content.initHeight with
    | some carriedHeight => simp [StreamState.push, carried]
    | none =>
      rcases List.mem_append.mp there with old | new
      · simpa [StreamState.push, carried] using collecting.announced other old carries
      · rw [List.mem_singleton.mp new, carried] at carries
        cases carries
  ended := by
    simp only [StreamState.push, Bool.or_eq_true, collecting.ended, List.mem_append,
      List.mem_singleton]
    refine ⟨?_, ?_⟩
    · rintro (⟨other, there, last⟩ | last)
      · exact ⟨other, .inl there, last⟩
      · exact ⟨message, .inr rfl, last⟩
    · rintro ⟨other, there | rfl, last⟩
      · exact .inl ⟨other, there, last⟩
      · exact .inr last
  expected := by
    intro received
    by_cases last : message.isFin = true
    · simp [StreamState.push, last, sequence_of_isFin member last]
    · simp only [StreamState.push, last, Bool.or_false] at received
      simpa [StreamState.push, last] using collecting.expected received

theorem messageCount_lt (fresh : message ∉ state.buffer) :
    state.messageCount < maxMessagesPerStream := by
  have pushed := collecting.push streamable member fresh
  have bound : (state.push message).buffer.length ≤ (streamMessages streamId parts).length :=
    (pushed.distinct.subperm pushed.known).length_le
  rw [← pushed.counted, length_streamMessages] at bound
  have short := streamable.short
  show state.messageCount + 1 ≤ maxMessagesPerStream
  exact le_trans bound short

theorem insert_of_mem (present : message ∈ state.buffer) : state.insert message =
    (state, .duplicate) := by
  have seen : message.sequence ∈ state.seenSequences :=
    (collecting.seen _).mpr ⟨message, present, rfl⟩
  unfold StreamState.insert
  rw [streamable.not_oversized member]
  show (if message.isFin && !isValidFinSequence message.sequence then _ else _) = _
  rw [streamable.isFin_guard member, if_neg Bool.false_ne_true, if_pos seen]

theorem insert_of_notMem (fresh : message ∉ state.buffer) : state.insert message =
      if (state.push message).hasAll then
        ({ state.push message with buffer := [], isComplete := true }, .complete parts)
      else ({ state.push message with isComplete := false },
        .incomplete (state.push message).height) := by
  have unseen : message.sequence ∉ state.seenSequences := by
    rw [collecting.seen]
    rintro ⟨other, there, same⟩
    exact fresh (eq_of_sequence (collecting.known other there) member same ▸ there)
  have room := collecting.messageCount_lt streamable member fresh
  have pushed := collecting.push streamable member fresh
  unfold StreamState.insert
  rw [streamable.not_oversized member]
  show (if message.isFin && !isValidFinSequence message.sequence then _ else _) = _
  rw [streamable.isFin_guard member, if_neg Bool.false_ne_true, if_neg unseen,
    if_neg (not_le.mpr room)]
  by_cases all : (state.push message).hasAll = true
  · have drained := drain_of_perm (pushed.perm ((pushed.hasAll_iff streamable).mp all))
    simp only [all, if_true, drained]
  · simp only [all, Bool.false_eq_true, if_false]

end Collecting

end Collecting

end ArcNode.App
