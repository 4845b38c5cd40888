/-
**Protocol buffers: the wire format and derived messages.**

A message is a sequence of fields, each a key (field number and wire type) and a value. `parse`
reads the fields of a byte string, skipping groups, and reads back what the encoder writes
(**`parse_encodeFields`**). A message type is given by what is derived for it (`Message`): its empty
value, the fields it writes and how a field is merged into it. `merge` folds the parsed fields, with
the limit on nesting. A value whose fields fit and fold back to it survives its encoding
(**`RoundTrips.merge_encode`**), also nested in another message (`RoundTrips.mergeMessage`,
`foldlM_repeatedField`). `wireFormat` makes a `WireFormat` of a message type.
-/

import Mathlib
import ArcNode.Lib.Inverse

namespace ArcNode.Lib.Protobuf

/-! ### Varints -/

/-- The bytes of a varint, in at most `turns` turns of seven bits. -/
def varintBytes : ℕ → ℕ → List Byte
  | 0, _ => []
  | turns + 1, n =>
    if n < 128 then [Fin.ofNat 256 n]
    else Fin.ofNat 256 (n % 128 + 128) :: varintBytes turns (n / 128)

/-- A varint of 64 bits takes at most ten bytes. -/
def encodeVarint (n : ℕ) : List Byte := varintBytes 10 n

/-- Reads a varint of at most `turns` bytes; the last of them has only one bit left. -/
def readVarintBytes : ℕ → List Byte → Option (ℕ × List Byte)
  | 0, _ => none
  | _, [] => none
  | turns + 1, byte :: rest =>
    if byte.val < 128 then
      if turns = 0 ∧ 2 ≤ byte.val then none else some (byte.val, rest)
    else (readVarintBytes turns rest).map fun (high, rest) => (byte.val - 128 + 128 * high, rest)

def readVarint (bytes : List Byte) : Option (ℕ × List Byte) := readVarintBytes 10 bytes

theorem readVarintBytes_varintBytes {turns n : ℕ} (fits : n < 2 * 128 ^ turns) (rest : List Byte) :
    readVarintBytes (turns + 1) (varintBytes (turns + 1) n ++ rest) = some (n, rest) := by
  induction turns generalizing n with
  | zero =>
    have small : n < 128 := by omega
    rw [varintBytes, if_pos small, List.singleton_append, readVarintBytes]
    simp only [Fin.ofNat]
    rw [if_pos (by omega), if_neg (by omega), Nat.mod_eq_of_lt (by omega)]
  | succ turns ih =>
    rw [varintBytes]
    split_ifs with small
    · rw [List.singleton_append, readVarintBytes]
      simp only [Fin.ofNat]
      rw [if_pos (by omega), if_neg (by omega), Nat.mod_eq_of_lt (by omega)]
    · have high : n / 128 < 2 * 128 ^ turns := by
        rw [Nat.div_lt_iff_lt_mul (by decide), mul_assoc, ← pow_succ]
        exact fits
      rw [List.cons_append, readVarintBytes]
      simp only [Fin.ofNat]
      rw [if_neg (by omega), ih high, Option.map_some]
      congr 2
      omega

theorem readVarint_encodeVarint {n : ℕ} (fits : n < 2 ^ 64) (rest : List Byte) :
    readVarint (encodeVarint n ++ rest) = some (n, rest) :=
  readVarintBytes_varintBytes (fits.trans_eq (by norm_num)) rest

theorem length_varintBytes_le (turns n : ℕ) : (varintBytes turns n).length ≤ turns := by
  induction turns generalizing n with
  | zero => exact le_rfl
  | succ turns ih =>
    rw [varintBytes]
    split_ifs
    · exact Nat.succ_le_succ (Nat.zero_le _)
    · exact Nat.succ_le_succ (ih _)

theorem length_encodeVarint_le (n : ℕ) : (encodeVarint n).length ≤ 10 := length_varintBytes_le 10 n

theorem length_encodeVarint_pos (n : ℕ) : 0 < (encodeVarint n).length := by
  unfold encodeVarint
  rw [varintBytes]
  split_ifs
  · exact Nat.zero_lt_one
  · exact Nat.succ_pos _

/-! ### Keys and fields -/

/-- The value of a field as it stands on the wire; a skipped group keeps nothing. -/
inductive Wire where
  | varint (value : ℕ)
  | fixed64 (bytes : List Byte)
  | lengthDelimited (bytes : List Byte)
  | group
  | fixed32 (bytes : List Byte)

structure Field where
  number : ℕ
  wire : Wire

/-- The wire type in a key. -/
def Wire.code : Wire → ℕ
  | varint _ => 0
  | fixed64 _ => 1
  | lengthDelimited _ => 2
  | group => 3
  | fixed32 _ => 5

def encodeKey (number code : ℕ) : List Byte := encodeVarint (number * 8 + code)

def Wire.bytes (number : ℕ) : Wire → List Byte
  | varint value => encodeVarint value
  | fixed64 bytes => bytes
  | lengthDelimited bytes => encodeVarint bytes.length ++ bytes
  | group => encodeKey number 4
  | fixed32 bytes => bytes

def encodeField (field : Field) : List Byte :=
  encodeKey field.number field.wire.code ++ field.wire.bytes field.number

def encodeFields (fields : List Field) : List Byte := fields.flatMap encodeField

/-- A key is a varint of 32 bits with a known wire type and a field number other than 0. -/
def readKey (bytes : List Byte) : Option ((ℕ × ℕ) × List Byte) :=
  (readVarint bytes).bind fun (key, rest) =>
    if key < 2 ^ 32 ∧ key % 8 < 6 ∧ key / 8 ≠ 0 then some ((key / 8, key % 8), rest) else none

def takeBytes (count : ℕ) (bytes : List Byte) : Option (List Byte × List Byte) :=
  if count ≤ bytes.length then some (bytes.take count, bytes.drop count) else none

/-- A value other than a group. -/
def readScalar (code : ℕ) (bytes : List Byte) : Option (Wire × List Byte) :=
  match code with
  | 0 => (readVarint bytes).map fun (value, rest) => (.varint value, rest)
  | 1 => (takeBytes 8 bytes).map fun (value, rest) => (.fixed64 value, rest)
  | 2 => (readVarint bytes).bind fun (count, rest) =>
    (takeBytes count rest).map fun (value, rest) => (.lengthDelimited value, rest)
  | 5 => (takeBytes 4 bytes).map fun (value, rest) => (.fixed32 value, rest)
  | _ => none

/-- Skips to the end of the open groups, which are nested within the limit. -/
def skipGroups (limit : ℕ) : ℕ → List ℕ → List Byte → Option (List Byte)
  | _, [], bytes => some bytes
  | 0, _ :: _, _ => none
  | turns + 1, number :: outer, bytes => (readKey bytes).bind fun ((inner, code), rest) =>
    if code = 4 then
      if inner = number then skipGroups limit turns outer rest else none
    else if outer.length + 1 < limit then
      if code = 3 then skipGroups limit turns (inner :: number :: outer) rest
      else (readScalar code rest).bind fun (_, rest) =>
        skipGroups limit turns (number :: outer) rest
    else none

variable (limit : ℕ)

def readField (bytes : List Byte) : Option (Field × List Byte) :=
  (readKey bytes).bind fun ((number, code), rest) =>
    if code = 3 then
      (skipGroups limit rest.length [number] rest).map fun rest => (⟨number, .group⟩, rest)
    else (readScalar code rest).map fun (wire, rest) => (⟨number, wire⟩, rest)

/-- The loop over the fields; every turn takes at least one byte. -/
def parseFields (limit : ℕ) : ℕ → List Byte → Option (List Field)
  | _, [] => some []
  | 0, _ :: _ => none
  | turns + 1, bytes => (readField limit bytes).bind fun (field, rest) =>
    (parseFields limit turns rest).map (field :: ·)

def parse (bytes : List Byte) : Option (List Field) :=
  parseFields limit bytes.length bytes

/-- The fields that the encoder writes in full. -/
def Wire.Fits : Wire → Prop
  | varint value => value < 2 ^ 64
  | fixed64 bytes => bytes.length = 8
  | lengthDelimited bytes => bytes.length < 2 ^ 64
  | group => False
  | fixed32 bytes => bytes.length = 4

structure Field.Fits (field : Field) : Prop where
  positive : 0 < field.number
  bounded : field.number < 2 ^ 29
  wire : field.wire.Fits

theorem readKey_encodeKey {number code : ℕ} (positive : 0 < number) (bounded : number < 2 ^ 29)
    (known : code < 6) (rest : List Byte) :
    readKey (encodeKey number code ++ rest) = some ((number, code), rest) := by
  unfold readKey encodeKey
  rw [readVarint_encodeVarint (by omega), Option.bind_some]
  dsimp only
  rw [show (number * 8 + code) / 8 = number by omega, show (number * 8 + code) % 8 = code by omega,
    if_pos ⟨by omega, known, by omega⟩]

theorem takeBytes_append (bytes rest : List Byte) :
    takeBytes bytes.length (bytes ++ rest) = some (bytes, rest) := by
  unfold takeBytes
  rw [if_pos (by simp), List.take_left, List.drop_left]

theorem readScalar_bytes {wire : Wire} (fits : wire.Fits) (number : ℕ) (rest : List Byte) :
    readScalar wire.code (wire.bytes number ++ rest) = some (wire, rest) := by
  cases wire with
  | varint value =>
    show Option.map _ (readVarint (encodeVarint value ++ rest)) = _
    rw [readVarint_encodeVarint fits, Option.map_some]
  | fixed64 bytes =>
    show Option.map _ (takeBytes 8 (bytes ++ rest)) = _
    rw [← show bytes.length = 8 from fits, takeBytes_append, Option.map_some]
  | lengthDelimited bytes =>
    show Option.bind (readVarint (encodeVarint bytes.length ++ bytes ++ rest)) _ = _
    rw [List.append_assoc, readVarint_encodeVarint fits, Option.bind_some]
    dsimp only
    rw [takeBytes_append, Option.map_some]
  | group => exact absurd fits id
  | fixed32 bytes =>
    show Option.map _ (takeBytes 4 (bytes ++ rest)) = _
    rw [← show bytes.length = 4 from fits, takeBytes_append, Option.map_some]

theorem readField_encodeField {field : Field} (fits : field.Fits) (limit : ℕ) (rest : List Byte) :
    readField limit (encodeField field ++ rest) = some (field, rest) := by
  have scalar : field.wire.code < 6 ∧ field.wire.code ≠ 3 := by
    have writable := fits.wire
    cases wire : field.wire with
    | group =>
      rw [wire] at writable
      exact absurd writable id
    | _ => simp [Wire.code]
  unfold readField encodeField
  rw [List.append_assoc, readKey_encodeKey fits.positive fits.bounded scalar.1, Option.bind_some]
  dsimp only
  rw [if_neg scalar.2, readScalar_bytes fits.wire, Option.map_some]

theorem length_encodeField_pos (field : Field) : 0 < (encodeField field).length := by
  unfold encodeField encodeKey
  rw [List.length_append]
  exact Nat.add_pos_left (length_encodeVarint_pos _) _

theorem parse_encodeFields {fields : List Field} (fits : ∀ field ∈ fields, field.Fits) (limit : ℕ) :
    parse limit (encodeFields fields) = some fields := by
  -- any number of turns that covers the bytes does
  suffices enough : ∀ turns, (encodeFields fields).length ≤ turns →
      parseFields limit turns (encodeFields fields) = some fields from enough _ le_rfl
  induction fields with
  | nil => exact fun _ _ => by rw [encodeFields, List.flatMap_nil, parseFields]
  | cons field rest ih =>
    intro turns covers
    have here := length_encodeField_pos field
    rw [encodeFields, List.flatMap_cons, List.length_append] at covers
    cases turns with
    | zero => omega
    | succ turns =>
      have later := ih (fun other member => fits other (List.mem_cons_of_mem _ member)) turns
        (by unfold encodeFields; omega)
      rw [encodeFields, List.flatMap_cons, parseFields,
        readField_encodeField (fits field List.mem_cons_self), Option.bind_some]
      · dsimp only
        rw [show rest.flatMap encodeField = encodeFields rest from rfl, later, Option.map_some]
      · intro empty
        rw [(List.append_eq_nil_iff.mp empty).1] at here
        exact absurd here (lt_irrefl _)

/-- **A first byte below 8 is a key with field number 0.** -/
theorem parse_cons_of_lt {byte : Byte} (small : byte.val < 8) (rest : List Byte) :
    parse limit (byte :: rest) = none := by
  have read : readVarint (byte :: rest) = some (byte.val, rest) := by
    rw [readVarint, readVarintBytes, if_pos (by omega), if_neg (by omega)]
  have key : readKey (byte :: rest) = none := by
    rw [readKey, read, Option.bind_some]
    exact if_neg fun holds => holds.2.2 (Nat.div_eq_of_lt small)
  unfold parse
  rw [List.length_cons, parseFields, readField, key, Option.bind_none, Option.bind_none]
  exact fun empty => by cases empty

/-! ### Messages -/

/-- What is derived for a message type. -/
class Message (M : Type) where
  /-- The value of a message without fields. -/
  default : M
  /-- The fields that are written. -/
  fields : M → List Field
  /-- How a field is merged, below the limit on nesting; `none` is an error. -/
  mergeField : ℕ → M → Field → Option M

section Message

variable {M : Type} [Message M]

variable (message : M)

def encode : List Byte := encodeFields (Message.fields message)

/-- Merges the fields of a byte string into a message. -/
def merge (bytes : List Byte) : Option M :=
  (parse limit bytes).bind fun fields => fields.foldlM (Message.mergeField limit) message

def recursionLimit : ℕ := 100

def decode (bytes : List Byte) : Option M := merge recursionLimit Message.default bytes

/-! ### Kinds of fields -/

/-- A number, which is left out at its default. -/
def scalarField (number value : ℕ) : List Field :=
  if value = 0 then [] else [⟨number, .varint value⟩]

variable (number : ℕ)

/-- An optional number, which is written whenever it is there. -/
def optionalField : Option ℕ → List Field
  | none => []
  | some value => [⟨number, .varint value⟩]

/-- A byte string, which is left out when it is empty. -/
def bytesField (bytes : List Byte) : List Field :=
  if bytes = [] then [] else [⟨number, .lengthDelimited bytes⟩]

def messageField : Option M → List Field
  | none => []
  | some message => [⟨number, .lengthDelimited (encode message)⟩]

def repeatedField (messages : List M) : List Field :=
  messages.map fun message => ⟨number, .lengthDelimited (encode message)⟩

def mergeVarint : Wire → Option ℕ
  | .varint value => some value
  | _ => none

def mergeBytes : Wire → Option (List Byte)
  | .lengthDelimited bytes => some bytes
  | _ => none

/-- A nested message is merged into the one that is there. -/
def mergeMessage (current : Option M) (wire : Wire) : Option M :=
  match limit, wire with
  | limit + 1, .lengthDelimited bytes => merge limit (current.getD Message.default) bytes
  | _, _ => none

/-- An unknown field is skipped. -/
def skipField : Option M := if limit = 0 then none else some message

/-! ### What is written -/

/-- The fields fit and take at most so many bytes. -/
structure Writes (bound : ℕ) (fields : List Field) : Prop where
  fits : ∀ field ∈ fields, field.Fits
  length : (encodeFields fields).length ≤ bound

theorem Writes.mono {bound larger : ℕ} {fields : List Field} (writes : Writes bound fields)
    (le : bound ≤ larger) : Writes larger fields := ⟨writes.fits, writes.length.trans le⟩

theorem Writes.append {first second : ℕ} {front back : List Field} (writes : Writes first front)
    (more : Writes second back) : Writes (first + second) (front ++ back) where
  fits field member := (List.mem_append.mp member).elim (writes.fits field) (more.fits field)
  length := by
    rw [encodeFields, List.flatMap_append, List.length_append]
    exact Nat.add_le_add writes.length more.length

theorem writes_nil (bound : ℕ) : Writes bound [] where
  fits field member := by cases member
  length := Nat.zero_le _

section Written

variable {number : ℕ} (known : 0 < number ∧ number < 2 ^ 29)

include known

theorem writes_varint {value : ℕ} (small : value < 2 ^ 64) :
    Writes 20 [⟨number, .varint value⟩] where
  fits field member := by
    rw [List.mem_singleton.mp member]
    exact ⟨known.1, known.2, small⟩
  length := by
    have key := length_encodeVarint_le (number * 8 + 0)
    have here := length_encodeVarint_le value
    rw [encodeFields, List.flatMap_singleton]
    show (encodeVarint (number * 8 + 0) ++ encodeVarint value).length ≤ 20
    rw [List.length_append]
    omega

variable {bound : ℕ}

theorem writes_lengthDelimited {bytes : List Byte} (short : bytes.length ≤ bound)
    (small : bound < 2 ^ 64) : Writes (20 + bound) [⟨number, .lengthDelimited bytes⟩] where
  fits field member := by
    rw [List.mem_singleton.mp member]
    exact ⟨known.1, known.2, lt_of_le_of_lt short small⟩
  length := by
    have key := length_encodeVarint_le (number * 8 + 2)
    have here := length_encodeVarint_le bytes.length
    rw [encodeFields, List.flatMap_singleton]
    show (encodeVarint (number * 8 + 2) ++ (encodeVarint bytes.length ++ bytes)).length ≤ 20 + bound
    rw [List.length_append, List.length_append]
    omega

theorem writes_scalarField {value : ℕ} (small : value < 2 ^ 64) :
    Writes 20 (scalarField number value) := by
  unfold scalarField
  split_ifs
  · exact writes_nil 20
  · exact writes_varint known small

theorem writes_optionalField {value : Option ℕ} (small : ∀ one ∈ value, one < 2 ^ 64) :
    Writes 20 (optionalField number value) := by
  cases value with
  | none => exact writes_nil 20
  | some one => exact writes_varint known (small one rfl)

theorem writes_bytesField {bytes : List Byte} (short : bytes.length ≤ bound)
    (small : bound < 2 ^ 64) : Writes (20 + bound) (bytesField number bytes) := by
  unfold bytesField
  split_ifs
  · exact writes_nil _
  · exact writes_lengthDelimited known short small

theorem writes_messageField {message : Option M} (small : bound < 2 ^ 64)
    (writes : ∀ one ∈ message, Writes bound (Message.fields one)) :
    Writes (20 + bound) (messageField number message) := by
  cases message with
  | none => exact writes_nil _
  | some one => exact writes_lengthDelimited known (writes one rfl).length small

theorem writes_repeatedField {messages : List M} (small : bound < 2 ^ 64)
    (writes : ∀ one ∈ messages, Writes bound (Message.fields one)) :
    Writes (messages.length * (20 + bound)) (repeatedField number messages) := by
  induction messages with
  | nil => exact writes_nil _
  | cons one rest ih =>
    have here : Writes (20 + bound) [⟨number, .lengthDelimited (encode one)⟩] :=
      writes_lengthDelimited known (writes one List.mem_cons_self).length small
    have later := ih fun other member => writes other (List.mem_cons_of_mem _ member)
    refine (here.append later).mono ?_
    rw [List.length_cons, Nat.succ_mul, Nat.add_comm]

end Written

/-! ### Round trips -/

/-- The fields of a message fit and give the message back. -/
structure RoundTrips (limit : ℕ) (message : M) : Prop where
  fits : ∀ field ∈ Message.fields message, field.Fits
  folds : (Message.fields message).foldlM (Message.mergeField limit) Message.default = some message

theorem RoundTrips.merge_encode {limit : ℕ} {message : M} (trips : RoundTrips limit message) :
    merge limit Message.default (encode message) = some message := by
  unfold merge encode
  rw [parse_encodeFields trips.fits, Option.bind_some, trips.folds]

theorem RoundTrips.mergeMessage {limit : ℕ} {message : M} (trips : RoundTrips limit message) :
    mergeMessage (limit + 1) none (.lengthDelimited (encode message)) = some message :=
  trips.merge_encode

end Message

section Fold

variable {M N : Type} [Message N] {step : M → Field → Option M} {message : M} {number : ℕ}

theorem foldlM_front {next : M} {front rest : List Field}
    (merged : front.foldlM step message = some next) :
    (front ++ rest).foldlM step message = rest.foldlM step next := by
  rw [List.foldlM_append, merged]
  rfl

theorem foldlM_scalarField (set : ℕ → M)
    (merges : ∀ value, step message ⟨number, .varint value⟩ = some (set value))
    (unset : set 0 = message) (value : ℕ) :
    (scalarField number value).foldlM step message = some (set value) := by
  unfold scalarField
  split_ifs with zero
  · rw [zero, unset]
    rfl
  · rw [List.foldlM_cons, merges]
    rfl

theorem foldlM_numberField {width : ℕ} [NeZero width] (set : Fin width → M)
    (merges : ∀ value, step message ⟨number, .varint value⟩ = some (set (Fin.ofNat width value)))
    (unset : set (Fin.ofNat width 0) = message) (value : Fin width) :
    (scalarField number value.val).foldlM step message = some (set value) := by
  rw [foldlM_scalarField (fun value => set (Fin.ofNat width value)) merges unset,
    Fin.ofNat_val_eq_self]

theorem foldlM_optionalField {width : ℕ} [NeZero width] (set : Option (Fin width) → M)
    (merges : ∀ value, step message ⟨number, .varint value⟩ =
      some (set (some (Fin.ofNat width value))))
    (unset : set none = message) (value : Option (Fin width)) :
    (optionalField number (value.map Fin.val)).foldlM step message = some (set value) := by
  cases value with
  | none =>
    rw [unset]
    rfl
  | some value =>
    rw [Option.map_some, optionalField, List.foldlM_cons, merges, Fin.ofNat_val_eq_self]
    rfl

theorem foldlM_bytesField (set : List Byte → M)
    (merges : ∀ bytes, step message ⟨number, .lengthDelimited bytes⟩ = some (set bytes))
    (unset : set [] = message) (bytes : List Byte) :
    (bytesField number bytes).foldlM step message = some (set bytes) := by
  unfold bytesField
  split_ifs with empty
  · rw [empty, unset]
    rfl
  · rw [List.foldlM_cons, merges]
    rfl

theorem foldlM_messageField {limit : ℕ} (set : Option N → M)
    (merges : ∀ wire, step message ⟨number, wire⟩ =
      (mergeMessage (limit + 1) none wire).map fun nested => set (some nested))
    (unset : set none = message) (nested : Option N) (trips : ∀ one ∈ nested, RoundTrips limit one) :
    (messageField number nested).foldlM step message = some (set nested) := by
  cases nested with
  | none =>
    rw [unset]
    rfl
  | some one =>
    rw [messageField, List.foldlM_cons, merges, (trips one rfl).mergeMessage]
    rfl

theorem foldlM_repeatedField {limit : ℕ} (set : List N → M)
    (merges : ∀ front wire, step (set front) ⟨number, wire⟩ =
      (mergeMessage (limit + 1) none wire).map fun nested => set (front ++ [nested]))
    (front nested : List N) (trips : ∀ one ∈ nested, RoundTrips limit one) :
    (repeatedField number nested).foldlM step (set front) = some (set (front ++ nested)) := by
  induction nested generalizing front with
  | nil =>
    rw [List.append_nil]
    rfl
  | cons one rest ih =>
    have later := ih (front ++ [one]) fun other member => trips other (List.mem_cons_of_mem _ member)
    rw [repeatedField, List.map_cons, List.foldlM_cons, merges,
      (trips one List.mem_cons_self).mergeMessage, List.append_cons]
    exact later

end Fold

/-! ### As a format -/

/-- **The encoding of a message type as a format**: a value that is not read back, because a length
in it passes 64 bits, is a number of zeros behind a byte that begins no message. -/
def wireFormat (M : Type) [Message M] [DecidableEq M] [Encodable M] : WireFormat M where
  encode message :=
    if decode (encode message) = some message then encode message
    else 0 :: List.replicate (Encodable.encode message) 0
  decode
    | 0 :: rest => Encodable.decode rest.length
    | bytes => decode bytes
  decode_encode message := by
    split_ifs with reads
    · split
      next rest starts =>
        rw [starts, decode, merge, parse_cons_of_lt _ (by decide)] at reads
        cases reads
      next => exact reads
    · exact (congrArg Encodable.decode List.length_replicate).trans (Encodable.encodek message)

end ArcNode.Lib.Protobuf
