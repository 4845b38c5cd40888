/-
**Writers and readers.**

A writer may refuse a value (`none`), a reader may refuse what it is given. `Inverts write read
good` says that the reader gives back every good value the writer accepted; a limit that only one of
the two checks shows in what has to be `good`. The rules build such pairs from smaller ones: one
after the other (**`Inverts.comp`**), over a list (**`Inverts.mapM`**), around a format that loses
nothing (`WireFormat.inverts`) and behind a byte that names a version (`inverts_versioned`).
-/

import Mathlib
import ArcNode.Lib.Bytes

namespace ArcNode.Lib

section Inverts

variable {α β γ ε : Type} {write : α → Option β} {read : β → Except ε α} {good better : α → Prop}

/-- **What is written is read back**, for the good values that are written at all. -/
def Inverts (write : α → Option β) (read : β → Except ε α) (good : α → Prop) : Prop :=
  ∀ value written, good value → write value = some written → read written = .ok value

/-- **One writer after the other**: the readers undo them in the opposite order. -/
theorem Inverts.comp {write' : β → Option γ} {read' : γ → Except ε β}
    (inverts : Inverts write read good) (outer : Inverts write' read' fun _ => True) :
    Inverts (fun value => write value >>= write') (fun written => read' written >>= read) good := by
  intro value written within wrote
  obtain ⟨middle, first, second⟩ := Option.bind_eq_some_iff.mp wrote
  show (read' written).bind read = .ok value
  rw [outer middle written trivial second]
  exact inverts value middle within first

/-- **A list is written and read element by element.** -/
theorem Inverts.mapM (inverts : Inverts write read good) :
    Inverts (fun values : List α => values.mapM write) (fun written => written.mapM read)
      (fun values => ∀ value ∈ values, good value) := by
  intro values
  induction values with
  | nil =>
    intro written _ wrote
    obtain rfl : [] = written := Option.some.inj wrote
    rfl
  | cons value rest ih =>
    intro written within wrote
    replace wrote : (value :: rest).mapM write = some written := wrote
    rw [List.mapM_cons] at wrote
    obtain ⟨first, wroteFirst, wroteRest⟩ := Option.bind_eq_some_iff.mp wrote
    obtain ⟨others, wroteOthers, same⟩ := Option.bind_eq_some_iff.mp wroteRest
    obtain rfl : first :: others = written := Option.some.inj same
    have one := inverts value first (within value (List.mem_cons_self ..)) wroteFirst
    have all := ih others (fun other member => within other (List.mem_cons_of_mem _ member)) wroteOthers
    show (first :: others).mapM read = .ok (value :: rest)
    rw [List.mapM_cons, one, show others.mapM read = .ok rest from all]
    rfl

theorem mapM_map {put : α → β} {values : List α}
    (inverts : ∀ value ∈ values, read (put value) = .ok value) :
    (values.map put).mapM read = .ok values := by
  induction values with
  | nil => rfl
  | cons value rest ih =>
    rw [List.map_cons, List.mapM_cons, inverts value (List.mem_cons_self ..),
      ih fun other member => inverts other (List.mem_cons_of_mem _ member)]
    rfl

theorem mapM_map_option {put : α → β} (inverts : ∀ value, read (put value) = .ok value)
    (value : Option α) : (value.map put).mapM read = .ok value := by
  cases value with
  | none => rfl
  | some one =>
    show (some <$> read (put one) : Except ε _) = _
    rw [inverts]
    rfl

theorem Inverts.mapError {ε' : Type} (inverts : Inverts write read good) (f : ε → ε') :
    Inverts write (fun written => (read written).mapError f) good := by
  intro value written within wrote
  dsimp only
  rw [inverts value written within wrote]
  rfl

end Inverts

/-! ### Formats -/

/-- **A format that loses nothing**: each message is decoded as it was encoded. -/
structure WireFormat (M : Type) where
  encode : M → List Byte
  decode : List Byte → Option M
  decode_encode : ∀ message, decode (encode message) = some message

section Formats

variable {α ε M : Type} (format : WireFormat M) (malformed : ε)

/-- Bytes that are no message are an error. -/
def WireFormat.fromBytes (bytes : List Byte) : Except ε M :=
  match format.decode bytes with
  | some message => .ok message
  | none => .error malformed

theorem WireFormat.fromBytes_encode (message : M) :
    format.fromBytes malformed (format.encode message) = .ok message := by
  unfold fromBytes
  rw [format.decode_encode]

theorem WireFormat.inverts :
    Inverts (fun message => some (format.encode message)) (format.fromBytes malformed)
      fun _ => True := by
  intro message bytes _ wrote
  obtain rfl := Option.some.inj wrote
  exact format.fromBytes_encode malformed message

/-- A value is converted to a message, which is encoded. -/
def encodeVia (write : α → Option M) (value : α) : Option (List Byte) :=
  write value >>= fun message => some (format.encode message)

def decodeVia (read : M → Except ε α) (bytes : List Byte) : Except ε α :=
  format.fromBytes malformed bytes >>= read

variable {format malformed} {write : α → Option M} {read : M → Except ε α} {good : α → Prop}

theorem inverts_via (inverts : Inverts write read good) :
    Inverts (encodeVia format write) (decodeVia format malformed read) good :=
  inverts.comp (format.inverts malformed)

/-- The first byte names the version, the rest is read by it. -/
def decodeVersioned (empty : ε) (unsupported : Byte → ε) (version : Byte)
    (decode : List Byte → Except ε α) : List Byte → Except ε α
  | [] => .error empty
  | tag :: rest => if tag = version then decode rest else .error (unsupported tag)

theorem inverts_versioned {encode : α → Option (List Byte)} {decode : List Byte → Except ε α}
    (inverts : Inverts encode decode good) (empty : ε) (unsupported : Byte → ε) (version : Byte) :
    Inverts (fun value => (encode value).map (version :: ·))
      (decodeVersioned empty unsupported version decode) good := by
  intro value bytes within wrote
  obtain ⟨rest, wroteRest, rfl⟩ := Option.map_eq_some_iff.mp wrote
  show (if version = version then decode rest else .error (unsupported version)) = _
  rw [if_pos rfl]
  exact inverts value rest within wroteRest

end Formats

end ArcNode.Lib
