/-
**What a validator signs.**

Votes, proposals, vote extensions and the hash of proposal parts are signed with one key and without
a common tag. What separates them is their length: a vote takes 43 or 75 bytes, a proposal 74 or 78,
a parts hash 32, and an extension, which repeats a precommit behind a domain string, at least 122
(`length_signBytes`). Inside one kind the bytes are containers of one shape, which are read back
(`voteSignBytes_inj`, `proposalSignBytes_inj`). So equal preimages are of one kind and content
(**`signBytes_determines`**).
-/

import ArcNode.Lib.Ssz
import ArcNode.Types.Message

namespace ArcNode.Codec

open ArcNode.Lib ArcNode.Lib.Ssz ArcNode.Types

/-! ### Encodings -/

def sszVoteType : VoteType → List Byte
  | .prevote => [0]
  | .precommit => [1]

def sszHeight (height : Height) : List Byte := leBytes 8 height.val

def sszRound (round : Round) : List Byte :=
  optionBytes (round.asU32.map fun number => leBytes 4 number.val)

def sszHash (hash : BlockHash) : List Byte := beBytes 32 hash.val

def sszNilOrVal : NilOrVal BlockHash → List Byte
  | .nil => optionBytes none
  | .val value => optionBytes (some (sszHash value))

def sszAddress (address : Address) : List Byte := beBytes 20 address.val

/-- The fields of a vote that are serialized; its extension is not. -/
def voteParts (vote : Vote) : List Part :=
  [.fixed (sszVoteType vote.typ), .fixed (sszHeight vote.height), .dynamic (sszRound vote.round),
    .dynamic (sszNilOrVal vote.value), .fixed (sszAddress vote.validatorAddress)]

/-- `Vote::to_sign_bytes`; `none` is the panic on a nil round. -/
def voteSignBytes (vote : Vote) : Option (List Byte) :=
  if vote.round = .nil then none else some (container (voteParts { vote with extension := none }))

def proposalParts (proposal : Proposal) : List Part :=
  [.fixed (sszHeight proposal.height), .dynamic (sszRound proposal.round),
    .fixed (sszHash proposal.value), .dynamic (sszRound proposal.polRound),
    .fixed (sszAddress proposal.validatorAddress)]

/-- `Proposal::to_sign_bytes`; `none` is the panic on a nil round. -/
def proposalSignBytes (proposal : Proposal) : Option (List Byte) :=
  if proposal.round = .nil then none else some (container (proposalParts proposal))

/-- What a vote extension is signed for. -/
structure VoteExtensionScope where
  height : Height
  round : Round
  valueId : BlockHash
  validatorAddress : Address
  deriving DecidableEq

/-- The precommit that an extension belongs to. -/
def VoteExtensionScope.precommit (scope : VoteExtensionScope) : Vote :=
  ⟨.precommit, scope.height, scope.round, .val scope.valueId, scope.validatorAddress, none⟩

/-- The bytes of `malachitebft/vote-extension/v1` and a zero byte. -/
def voteExtensionDomain : List Byte :=
  [109, 97, 108, 97, 99, 104, 105, 116, 101, 98, 102, 116, 47, 118, 111, 116, 101, 45, 101, 120, 116,
    101, 110, 115, 105, 111, 110, 47, 118, 49, 0]

/-- `vote_extension_sign_bytes`; `none` is the panic on a nil round. -/
def voteExtensionSignBytes (scope : VoteExtensionScope) (extension : List Byte) :
    Option (List Byte) :=
  (voteSignBytes scope.precommit).map fun precommitBytes =>
    voteExtensionDomain ++ (beBytes 8 precommitBytes.length ++
      (precommitBytes ++ (beBytes 8 extension.length ++ extension)))

/-- Everything a validator signs. -/
inductive Signed where
  | vote (message : Vote)
  | proposal (message : Proposal)
  | voteExtension (scope : VoteExtensionScope) (extension : List Byte)
  /-- The Keccak hash of proposal parts. -/
  | proposalParts (hash : BlockHash)
  deriving DecidableEq

/-- The bytes that are signed; `none` is a panic. -/
def Signed.signBytes : Signed → Option (List Byte)
  | vote message => voteSignBytes message
  | proposal message => proposalSignBytes message
  | voteExtension scope extension => voteExtensionSignBytes scope extension
  | proposalParts hash => some (sszHash hash)

/-- What the bytes are meant to determine: everything but the extension of a vote. -/
def Signed.content : Signed → Signed
  | vote message => .vote { message with extension := none }
  | other => other

/-! ### Fields are read back -/

theorem sszHash_injective : Function.Injective sszHash := fun first second same =>
  Fin.ext (beBytes_inj (first.isLt.trans_eq (by norm_num)) (second.isLt.trans_eq (by norm_num)) same)

theorem sszAddress_injective : Function.Injective sszAddress := fun first second same =>
  Fin.ext (beBytes_inj (first.isLt.trans_eq (by norm_num)) (second.isLt.trans_eq (by norm_num)) same)

theorem sszHeight_injective : Function.Injective sszHeight := fun first second same =>
  Height.ext (leBytes_inj (first.isLt.trans_eq (by norm_num)) (second.isLt.trans_eq (by norm_num))
    same)

theorem sszVoteType_injective : Function.Injective sszVoteType := by
  intro first second same
  cases first <;> cases second
  · rfl
  · exact absurd same (by decide)
  · exact absurd same (by decide)
  · rfl

theorem sszRound_injective : Function.Injective sszRound := by
  intro first second same
  have numbers := optionBytes_injective same
  cases first <;> cases second
  · rfl
  · cases numbers
  · cases numbers
  · rename_i number other
    have bytes : leBytes 4 number.val = leBytes 4 other.val := Option.some.inj numbers
    have equal := leBytes_inj (number.isLt.trans_eq (by norm_num)) (other.isLt.trans_eq (by norm_num))
      bytes
    exact congrArg Round.some (Fin.ext equal)

theorem sszNilOrVal_injective : Function.Injective sszNilOrVal := by
  intro first second same
  cases first <;> cases second
  · rfl
  · cases @optionBytes_injective none (some _) same
  · cases @optionBytes_injective (some _) none same
  · rename_i value other
    have hashes : some (sszHash value) = some (sszHash other) := optionBytes_injective same
    exact congrArg NilOrVal.val (sszHash_injective (Option.some.inj hashes))

/-! ### Lengths -/

theorem length_sszRound {round : Round} (defined : round ≠ .nil) : (sszRound round).length = 5 := by
  cases round with
  | nil => exact absurd rfl defined
  | some number =>
    show (1 :: leBytes 4 number.val).length = 5
    rw [List.length_cons, length_leBytes]

theorem length_sszRound_cases (round : Round) :
    (sszRound round).length = 1 ∨ (sszRound round).length = 5 := by
  by_cases nil : round = .nil
  · rw [nil]
    exact .inl rfl
  · exact .inr (length_sszRound nil)

theorem length_sszNilOrVal (value : NilOrVal BlockHash) :
    (sszNilOrVal value).length = if value = .nil then 1 else 33 := by
  cases value with
  | nil => rfl
  | val value =>
    show (1 :: beBytes 32 value.val).length = _
    rw [List.length_cons, length_beBytes, if_neg (by simp)]

theorem length_voteParts {vote : Vote} (defined : vote.round ≠ .nil) :
    (container (voteParts vote)).length = if vote.value = .nil then 43 else 75 := by
  have typ : (sszVoteType vote.typ).length = 1 := by
    cases vote.typ <;> rfl
  rw [length_container]
  simp only [voteParts, fixedLength, List.map_cons, List.map_nil, List.sum_cons, List.sum_nil,
    Part.headLength, tails, List.length_append, List.length_nil, typ, sszHeight, sszAddress,
    length_leBytes, length_beBytes, length_sszRound defined, length_sszNilOrVal]
  split_ifs <;> rfl

theorem length_proposalParts {proposal : Proposal} (defined : proposal.round ≠ .nil) :
    (container (proposalParts proposal)).length = 74 ∨
      (container (proposalParts proposal)).length = 78 := by
  rw [length_container]
  simp only [proposalParts, fixedLength, List.map_cons, List.map_nil, List.sum_cons, List.sum_nil,
    Part.headLength, tails, List.length_append, List.length_nil, sszHeight, sszAddress, sszHash,
    length_leBytes, length_beBytes, length_sszRound defined]
  rcases length_sszRound_cases proposal.polRound with one | five <;> omega

/-! ### One kind -/

variable {bytes : List Byte}

theorem voteSignBytes_eq_some {vote : Vote}
    (signed : voteSignBytes vote = some bytes) :
    vote.round ≠ .nil ∧ bytes = container (voteParts { vote with extension := none }) := by
  unfold voteSignBytes at signed
  split_ifs at signed with nil
  exact ⟨nil, (Option.some.inj signed).symm⟩

theorem length_voteSignBytes {vote : Vote}
    (signed : voteSignBytes vote = some bytes) :
    bytes.length = if vote.value = .nil then 43 else 75 := by
  obtain ⟨defined, rfl⟩ := voteSignBytes_eq_some signed
  exact length_voteParts defined

theorem voteSignBytes_inj {first second : Vote}
    (signed : voteSignBytes first = some bytes) (signed' : voteSignBytes second = some bytes) :
    { first with extension := none } = { second with extension := none } := by
  have short := length_voteSignBytes signed
  obtain ⟨-, rfl⟩ := voteSignBytes_eq_some signed
  obtain ⟨-, same⟩ := voteSignBytes_eq_some signed'
  have typ : ∀ vote : Vote, (sszVoteType vote.typ).length = 1 := by
    intro vote
    cases vote.typ <;> rfl
  have shape : List.Forall₂ SameShape (voteParts { first with extension := none })
      (voteParts { second with extension := none }) := by
    refine .cons ((typ first).trans (typ second).symm) (.cons ?_ (.cons trivial (.cons trivial
      (.cons ?_ .nil))))
    · exact (length_leBytes 8 _).trans (length_leBytes 8 _).symm
    · exact (length_beBytes 20 _).trans (length_beBytes 20 _).symm
  have fields := container_inj shape (by rw [short]; split_ifs <;> decide) same
  simp only [voteParts, List.cons.injEq, Part.fixed.injEq, Part.dynamic.injEq, and_true] at fields
  obtain ⟨types, heights, rounds, values, addresses⟩ := fields
  rw [sszVoteType_injective types, sszHeight_injective heights, sszRound_injective rounds,
    sszNilOrVal_injective values, sszAddress_injective addresses]

theorem proposalSignBytes_eq_some {proposal : Proposal}
    (signed : proposalSignBytes proposal = some bytes) :
    proposal.round ≠ .nil ∧ bytes = container (proposalParts proposal) := by
  unfold proposalSignBytes at signed
  split_ifs at signed with nil
  exact ⟨nil, (Option.some.inj signed).symm⟩

theorem proposalSignBytes_inj {first second : Proposal}
    (signed : proposalSignBytes first = some bytes)
    (signed' : proposalSignBytes second = some bytes) : first = second := by
  obtain ⟨defined, rfl⟩ := proposalSignBytes_eq_some signed
  obtain ⟨-, same⟩ := proposalSignBytes_eq_some signed'
  have shape : List.Forall₂ SameShape (proposalParts first) (proposalParts second) := by
    refine .cons ?_ (.cons trivial (.cons ?_ (.cons trivial (.cons ?_ .nil))))
    · exact (length_leBytes 8 _).trans (length_leBytes 8 _).symm
    · exact (length_beBytes 32 _).trans (length_beBytes 32 _).symm
    · exact (length_beBytes 20 _).trans (length_beBytes 20 _).symm
  have short : (container (proposalParts first)).length < 2 ^ 32 := by
    rcases length_proposalParts defined with short | short <;> omega
  have fields := container_inj shape short same
  simp only [proposalParts, List.cons.injEq, Part.fixed.injEq, Part.dynamic.injEq, and_true] at fields
  obtain ⟨heights, rounds, values, polRounds, addresses⟩ := fields
  obtain ⟨height, round, value, polRound, address⟩ := first
  rw [Proposal.mk.injEq]
  exact ⟨sszHeight_injective heights, sszRound_injective rounds, sszHash_injective values,
    sszRound_injective polRounds, sszAddress_injective addresses⟩

theorem voteExtensionSignBytes_eq_some {scope : VoteExtensionScope} {extension bytes : List Byte}
    (signed : voteExtensionSignBytes scope extension = some bytes) :
    ∃ precommitBytes, voteSignBytes scope.precommit = some precommitBytes ∧
      precommitBytes.length = 75 ∧ bytes = voteExtensionDomain ++
        (beBytes 8 precommitBytes.length ++
          (precommitBytes ++ (beBytes 8 extension.length ++ extension))) := by
  obtain ⟨precommitBytes, precommit, rfl⟩ := Option.map_eq_some_iff.mp signed
  refine ⟨precommitBytes, precommit, ?_, rfl⟩
  rw [length_voteSignBytes precommit]
  rfl

theorem voteExtensionSignBytes_inj {first second : VoteExtensionScope}
    {extension other bytes : List Byte}
    (signed : voteExtensionSignBytes first extension = some bytes)
    (signed' : voteExtensionSignBytes second other = some bytes) :
    first = second ∧ extension = other := by
  obtain ⟨precommit, vote, long, rfl⟩ := voteExtensionSignBytes_eq_some signed
  obtain ⟨precommit', vote', long', same⟩ := voteExtensionSignBytes_eq_some signed'
  obtain ⟨-, framed⟩ := List.append_inj same rfl
  obtain ⟨-, rest⟩ := List.append_inj framed (by simp)
  obtain ⟨votes, counted⟩ := List.append_inj rest (long.trans long'.symm)
  obtain ⟨-, extensions⟩ := List.append_inj counted (by simp)
  have scopes := voteSignBytes_inj vote (votes ▸ vote')
  obtain ⟨height, round, valueId, address⟩ := first
  obtain ⟨height', round', valueId', address'⟩ := second
  simp only [VoteExtensionScope.precommit, Vote.mk.injEq, NilOrVal.val.injEq, true_and,
    and_true] at scopes
  obtain ⟨rfl, rfl, rfl, rfl⟩ := scopes
  exact ⟨rfl, extensions⟩

/-! ### All kinds -/

def Signed.HasLength (length : ℕ) : Signed → Prop
  | vote _ => length = 43 ∨ length = 75
  | proposal _ => length = 74 ∨ length = 78
  | voteExtension _ _ => 122 ≤ length
  | proposalParts _ => length = 32

theorem length_signBytes {signed : Signed}
    (here : signed.signBytes = some bytes) : signed.HasLength bytes.length := by
  cases signed with
  | vote vote =>
    rw [length_voteSignBytes here]
    split_ifs
    · exact .inl rfl
    · exact .inr rfl
  | proposal proposal =>
    obtain ⟨defined, rfl⟩ := proposalSignBytes_eq_some here
    exact length_proposalParts defined
  | voteExtension scope extension =>
    obtain ⟨precommit, -, long, rfl⟩ := voteExtensionSignBytes_eq_some here
    simp only [Signed.HasLength, List.length_append, length_beBytes, long, voteExtensionDomain,
      List.length_cons, List.length_nil]
    omega
  | proposalParts hash =>
    rw [← Option.some.inj here]
    exact length_beBytes 32 _

/-- **Signed bytes determine their kind and content.** -/
theorem signBytes_determines {first second : Signed} {bytes : List Byte}
    (signed : first.signBytes = some bytes) (signed' : second.signBytes = some bytes) :
    first.content = second.content := by
  have length := length_signBytes signed
  have length' := length_signBytes signed'
  cases first <;> cases second <;> simp only [Signed.HasLength] at length length' <;> try omega
  · exact congrArg Signed.vote (voteSignBytes_inj signed signed')
  · exact congrArg Signed.proposal (proposalSignBytes_inj signed signed')
  · obtain ⟨rfl, rfl⟩ := voteExtensionSignBytes_inj signed signed'
    rfl
  · have hashes := Option.some.inj (signed.trans signed'.symm)
    exact congrArg Signed.proposalParts (sszHash_injective hashes)

/-- A precommit without an extension, and with one. -/
def bareVote : Vote := ⟨.precommit, 1, .some 0, .val 9, 3, none⟩

def extendedVote : Vote :=
  ⟨.precommit, 1, .some 0, .val 9, 3, some ⟨[7], List.Vector.replicate 64 0⟩⟩

theorem signBytes_determines_bareVote :
    Signed.signBytes (.vote extendedVote) = Signed.signBytes (.vote bareVote) ∧
      Signed.content (.vote extendedVote) = Signed.content (.vote bareVote) :=
  ⟨rfl, @signBytes_determines (.vote extendedVote) (.vote bareVote)
    (container (voteParts bareVote)) rfl rfl⟩

end ArcNode.Codec
