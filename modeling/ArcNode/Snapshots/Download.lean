/-
**Resumable downloads.**

`resumable_download` keeps the bytes it has received in a part file beside a marker that names the
object they came from (`urlIdentity`). Each `step` is one file operation or one answer of the
server; another `start` stands for a process that was killed. After every history, a download that
has returned `Ok` has left the object of its URL in the final file, and the next one against a
server that answers returns `Ok` unless its URL names no file or the part file already is the whole
object: then the server refuses the range, now and on every retry
(**`resumable_download_settles`**).
-/

import ArcNode.Lib.Bytes
import ArcNode.Lib.Machine

namespace ArcNode.Snapshots

open Lib

/-- A string of the source: its UTF-8 bytes. -/
abbrev Text := List Byte

def ascii (text : List Char) : Text := text.map fun char => Fin.ofNat 256 char.toNat

/-! ### The identity of a URL -/

/-- `str::split_once`: what stands before and after the first separator. -/
def splitOnce (separator : Byte → Bool) : Text → Option (Text × Text)
  | [] => none
  | byte :: rest =>
    if separator byte then some ([], rest)
    else (splitOnce separator rest).map fun halves => (byte :: halves.1, halves.2)

/-- What stands before the first separator, or everything. -/
def before (separators : List Char) (text : Text) : Text :=
  ((splitOnce (ascii separators).contains text).map Prod.fst).getD text

/-- Everything in a URL before the query string or fragment. -/
def urlPath (url : Text) : Text := before ['?', '#'] url

/-- Query parameters a signer regenerates on every resolution, by name prefix. -/
def signatureParamPrefixes : List Text :=
  [ascii ['x', '-', 'a', 'm', 'z', '-'], ascii ['x', '-', 'g', 'o', 'o', 'g', '-']]

/-- Query parameters a pre-SigV4 signer regenerates, by exact name. -/
def signatureParamNames : List Text :=
  [ascii ['s', 'i', 'g', 'n', 'a', 't', 'u', 'r', 'e'], ascii ['e', 'x', 'p', 'i', 'r', 'e', 's'],
    ascii ['a', 'w', 's', 'a', 'c', 'c', 'e', 's', 's', 'k', 'e', 'y', 'i', 'd']]

def toAsciiLowercase (byte : Byte) : Byte :=
  if 65 ≤ byte.val ∧ byte.val ≤ 90 then Fin.ofNat 256 (byte.val + 32) else byte

def isSignatureParam (param : Text) : Bool :=
  let name := (before ['='] param).map toAsciiLowercase
  signatureParamPrefixes.any (fun front => front.isPrefixOf name) || signatureParamNames.contains name

def urlIdentity (url : Text) : Text :=
  match splitOnce (ascii ['?']).contains url with
  | none => urlPath url
  | some (_, query) =>
    let kept := ((before ['#'] query).splitOn 38).filter fun param =>
      !param.isEmpty && !isSignatureParam param
    if kept = [] then urlPath url
    else urlPath url ++ ascii ['?'] ++ List.intercalate (ascii ['&']) (kept.insertionSort (· ≤ ·))

-- the signature goes, what addresses the snapshot stays
example : urlIdentity (ascii ['h', '/', 'm', '?', 'n', '=', '1', '&', 'E', 'x', 'p', 'i', 'r', 'e',
    's', '=', '9', '#', 'f']) = ascii ['h', '/', 'm', '?', 'n', '=', '1'] := by decide +kernel

/-! ### The process -/

/-- What lies outside: the last path segment the URL parser finds, and the object the server keeps
under an identity. -/
structure Host where
  fileName : Text → Text
  object : Text → List Byte

abbrev Directory := Text → Option (List Byte)

variable (host : Host)

/-- The final path. The empty name is the directory itself. -/
def Host.finalPath (url : Text) : Text := host.fileName url

def Host.partPath (url : Text) : Text := host.fileName url ++ ascii ['.', 'p', 'a', 'r', 't']

def Host.markerPath (url : Text) : Text :=
  host.fileName url ++ ascii ['.', 'p', 'a', 'r', 't', '.', 'u', 'r', 'l']

def Host.target (url : Text) : List Byte := host.object (urlIdentity url)

def maxDownloadRetries : ℕ := 10

/-- Where a process stands: the operation it does next. -/
inductive Phase
  | idle
  /-- `prepare_partial_download`: the marker is read. -/
  | readMarker (url : Text)
  | removePart (url : Text)
  /-- `fs::write` of the marker: the file is created or truncated, then filled. -/
  | createMarker (url : Text)
  | fillMarker (url : Text)
  /-- `attempt_download`, with its number. -/
  | attempt (url : Text) (number : ℕ)
  /-- `io::copy` and the flush, with the bytes of the body that are not in the file yet. -/
  | copy (url : Text) (number : ℕ) (rest : List Byte)
  /-- The part file is renamed to the final path. -/
  | promote (url : Text)
  | removeMarker (url : Text)
  /-- `resumable_download` has returned, `true` for `Ok`. -/
  | returned (url : Text) (ok : Bool)
  deriving DecidableEq

inductive Event
  /-- A process starts; the one before it, if it still ran, was killed. -/
  | start (url : Text)
  /-- The operation succeeds, the server answers, the whole rest of the body arrives. -/
  | proceed
  /-- Some bytes of the body arrive. -/
  | receive (count : ℕ)
  /-- The operation or the connection fails. -/
  | fail
  deriving DecidableEq

structure Download where
  directory : Directory
  phase : Phase

variable (directory : Directory)

/-- The size `fs::metadata` reports for the part file, 0 if there is none. -/
def Host.existingSize (url : Text) : ℕ :=
  ((directory (host.partPath url)).map List.length).getD 0

/-- The next attempt, or the error of the last one. -/
def retry (url : Text) (number : ℕ) : Phase :=
  if number < maxDownloadRetries then .attempt url (number + 1) else .returned url false

/-- The answer to one attempt. A range inside the object gets the rest of it and the part file is
opened to append; a full request gets the object and the part file is created; a range that starts
at the end or past it gets an error status. -/
def Host.answer (url : Text) (number : ℕ) (directory : Directory) : Download :=
  let existing := host.existingSize directory url
  if existing = 0 then
    ⟨Function.update directory (host.partPath url) (some []), .copy url number (host.target url)⟩
  else if existing < (host.target url).length then
    ⟨directory, .copy url number ((host.target url).drop existing)⟩
  else ⟨directory, retry url number⟩

/-- The next bytes of the body reach the part file. -/
def Host.append (url : Text) (number : ℕ) (rest : List Byte) (count : ℕ) (directory : Directory) :
    Download :=
  ⟨Function.update directory (host.partPath url)
      (some ((directory (host.partPath url)).getD [] ++ rest.take count)),
    .copy url number (rest.drop count)⟩

/-- `rename(part, final)`; the directory itself cannot be replaced. -/
def Host.rename (url : Text) (directory : Directory) : Download :=
  if host.finalPath url = [] then ⟨directory, .returned url false⟩
  else
    ⟨Function.update (Function.update directory (host.finalPath url)
      (directory (host.partPath url))) (host.partPath url) none, .removeMarker url⟩

variable (state : Download)

/-- The operation a process stands at succeeds. -/
def Host.proceed : Download :=
  let directory := state.directory
  match state.phase with
  | .readMarker url =>
    if directory (host.markerPath url) = some (urlIdentity url) then ⟨directory, .attempt url 1⟩
    else ⟨directory, .removePart url⟩
  | .removePart url => ⟨Function.update directory (host.partPath url) none, .createMarker url⟩
  | .createMarker url => ⟨Function.update directory (host.markerPath url) (some []), .fillMarker url⟩
  | .fillMarker url =>
    ⟨Function.update directory (host.markerPath url) (some (urlIdentity url)), .attempt url 1⟩
  | .attempt url number => host.answer url number directory
  | .copy url number rest =>
    if rest = [] then ⟨directory, .promote url⟩
    else host.append url number rest rest.length directory
  | .promote url => host.rename url directory
  | .removeMarker url =>
    ⟨Function.update directory (host.markerPath url) none, .returned url true⟩
  | .idle | .returned _ _ => state

/-- The operation a process stands at fails: an unreadable marker counts as another one, a failed
attempt is repeated, a marker that cannot be removed is only reported. -/
def failed (phase : Phase) : Phase :=
  match phase with
  | .readMarker url => .removePart url
  | .removePart url | .createMarker url | .fillMarker url | .promote url => .returned url false
  | .attempt url number | .copy url number _ => retry url number
  | .removeMarker url => .returned url true
  | .idle | .returned _ _ => phase

def Host.step (event : Event) : Download × Unit :=
  (match event with
    | .start url => ⟨state.directory, .readMarker url⟩
    | .proceed => host.proceed state
    | .receive count =>
      match state.phase with
      | .copy url number rest => host.append url number rest count state.directory
      | _ => state
    | .fail => ⟨state.directory, failed state.phase⟩, ())

/-! ### Which part file belongs to which URL -/

section Names

/-- No file name among these URLs is the part file or the marker of another. -/
def Host.Apart (urls : Set Text) : Prop :=
  ∀ url ∈ urls, ∀ other ∈ urls, host.finalPath url ≠ host.partPath other ∧
    host.finalPath url ≠ host.markerPath other

variable {host} {url other : Text}

theorem partPath_inj (same : host.partPath url = host.partPath other) :
    host.fileName url = host.fileName other :=
  List.append_cancel_right same

theorem markerPath_inj (same : host.markerPath url = host.markerPath other) :
    host.fileName url = host.fileName other :=
  List.append_cancel_right same

theorem partPath_ne_markerPath : host.partPath url ≠ host.markerPath other := by
  intro same
  have last := congrArg List.getLast? same
  simp [Host.partPath, Host.markerPath, ascii, List.getLast?_append] at last

theorem finalPath_ne_partPath : host.finalPath url ≠ host.partPath url := by
  simp [Host.finalPath, Host.partPath, ascii]

theorem finalPath_ne_markerPath : host.finalPath url ≠ host.markerPath url := by
  simp [Host.finalPath, Host.markerPath, ascii]

end Names

/-- A marker that names a URL stands beside bytes of that URL's object only. -/
def Host.Paired (urls : Set Text) (directory : Directory) : Prop :=
  ∀ url ∈ urls, directory (host.markerPath url) = some (urlIdentity url) →
    ∀ bytes, directory (host.partPath url) = some bytes → bytes <+: host.target url

section Paired

variable {host} {urls : Set Text} {directory : Directory} {url : Text}

theorem target_eq {other : Text} (same : urlIdentity url = urlIdentity other) :
    host.target url = host.target other :=
  congrArg host.object same

theorem paired_removePart (paired : host.Paired urls directory) :
    host.Paired urls (Function.update directory (host.partPath url) none) := by
  intro other member marked bytes found
  rw [Function.update_of_ne partPath_ne_markerPath.symm] at marked
  by_cases same : host.partPath other = host.partPath url
  · rw [same, Function.update_self] at found
    cases found
  · rw [Function.update_of_ne same] at found
    exact paired other member marked bytes found

/-- A marker may be written while there is no part file. -/
theorem paired_setMarker (paired : host.Paired urls directory)
    (missing : directory (host.partPath url) = none) (content : Option (List Byte)) :
    host.Paired urls (Function.update directory (host.markerPath url) content) := by
  intro other member marked bytes found
  rw [Function.update_of_ne partPath_ne_markerPath] at found
  by_cases same : host.markerPath other = host.markerPath url
  · have part : host.partPath other = host.partPath url :=
      congrArg (· ++ ascii ['.', 'p', 'a', 'r', 't']) (markerPath_inj same)
    rw [part, missing] at found
    cases found
  · rw [Function.update_of_ne same] at marked
    exact paired other member marked bytes found

/-- Bytes of the object may be put into the part file under the object's own marker. -/
theorem paired_setPart (paired : host.Paired urls directory)
    (own : directory (host.markerPath url) = some (urlIdentity url)) {content : List Byte}
    (beginning : content <+: host.target url) :
    host.Paired urls (Function.update directory (host.partPath url) (some content)) := by
  intro other member marked bytes found
  rw [Function.update_of_ne partPath_ne_markerPath.symm] at marked
  by_cases same : host.partPath other = host.partPath url
  · have marker : host.markerPath other = host.markerPath url :=
      congrArg (· ++ ascii ['.', 'p', 'a', 'r', 't', '.', 'u', 'r', 'l']) (partPath_inj same)
    rw [marker, own] at marked
    rw [same, Function.update_self] at found
    cases found
    rw [← target_eq (Option.some.inj marked)]
    exact beginning
  · rw [Function.update_of_ne same] at found
    exact paired other member marked bytes found

theorem paired_setFinal (paired : host.Paired urls directory) (apart : host.Apart urls)
    (used : url ∈ urls) (content : Option (List Byte)) :
    host.Paired urls (Function.update directory (host.finalPath url) content) := by
  intro other member marked bytes found
  obtain ⟨notPart, notMarker⟩ := apart url used other member
  rw [Function.update_of_ne notMarker.symm] at marked
  rw [Function.update_of_ne notPart.symm] at found
  exact paired other member marked bytes found

end Paired

/-! ### What holds at each point of a download -/

/-- What a process knows about the directory at the operation it stands at. -/
def Host.Stands : Phase → Prop
  | .createMarker url | .fillMarker url => directory (host.partPath url) = none
  | .attempt url _ => directory (host.markerPath url) = some (urlIdentity url)
  | .copy url _ rest => directory (host.markerPath url) = some (urlIdentity url) ∧
      ∃ bytes, directory (host.partPath url) = some bytes ∧ bytes ++ rest = host.target url
  | .promote url => directory (host.partPath url) = some (host.target url)
  | .removeMarker url => directory (host.finalPath url) = some (host.target url) ∧
      directory (host.partPath url) = none
  | .returned url true => directory (host.finalPath url) = some (host.target url)
  | .idle | .readMarker _ | .removePart _ | .returned _ false => True

def Phase.url : Phase → Option Text
  | .idle => none
  | .readMarker url | .removePart url | .createMarker url | .fillMarker url | .attempt url _
  | .copy url _ _ | .promote url | .removeMarker url | .returned url _ => some url

structure Host.Sound (urls : Set Text) (state : Download) : Prop where
  paired : host.Paired urls state.directory
  stands : host.Stands state.directory state.phase
  used : ∀ url, state.phase.url = some url → url ∈ urls

section Sound

variable {host} {urls : Set Text} {directory : Directory} {url : Text} {number : ℕ}

theorem url_retry : (retry url number).url = some url := by
  unfold retry
  split_ifs <;> rfl

theorem stands_retry (own : directory (host.markerPath url) = some (urlIdentity url)) :
    host.Stands directory (retry url number) := by
  unfold retry
  split_ifs
  · exact own
  · trivial

theorem used_of_eq {phase : Phase} (same : phase.url = some url) (member : url ∈ urls) (other : Text)
    (works : phase.url = some other) : other ∈ urls := by
  rw [same] at works
  exact Option.some.inj works ▸ member

theorem existingSize_of_some {bytes : List Byte}
    (found : directory (host.partPath url) = some bytes) :
    host.existingSize directory url = bytes.length := by
  rw [Host.existingSize, found]
  rfl

theorem sound_answer (sound : host.Sound urls ⟨directory, .attempt url number⟩) :
    host.Sound urls (host.answer url number directory) := by
  have own : directory (host.markerPath url) = some (urlIdentity url) := sound.stands
  have member := sound.used url rfl
  unfold Host.answer
  dsimp only
  split_ifs with absent inside
  · refine ⟨paired_setPart sound.paired own List.nil_prefix, ⟨?_, [], ?_, rfl⟩, used_of_eq rfl member⟩
    · exact (Function.update_of_ne partPath_ne_markerPath.symm ..).trans own
    · exact Function.update_self ..
  · cases found : directory (host.partPath url) with
    | none =>
      rw [Host.existingSize, found] at absent
      exact absurd rfl absent
    | some bytes =>
      obtain ⟨rest, split⟩ := sound.paired url member own bytes found
      refine ⟨sound.paired, ⟨own, bytes, found, ?_⟩, used_of_eq rfl member⟩
      rw [existingSize_of_some found, ← split, List.drop_left]
  · exact ⟨sound.paired, stands_retry own, used_of_eq url_retry member⟩

theorem sound_append {rest : List Byte} (sound : host.Sound urls ⟨directory, .copy url number rest⟩)
    (count : ℕ) : host.Sound urls (host.append url number rest count directory) := by
  obtain ⟨own, bytes, found, split⟩ := sound.stands
  dsimp only at own found
  have grown : (bytes ++ rest.take count) ++ rest.drop count = host.target url := by
    rw [List.append_assoc, List.take_append_drop, split]
  unfold Host.append
  rw [found, Option.getD_some]
  refine ⟨paired_setPart sound.paired own ⟨_, grown⟩, ⟨?_, _, ?_, grown⟩,
    used_of_eq rfl (sound.used url rfl)⟩
  · exact (Function.update_of_ne partPath_ne_markerPath.symm ..).trans own
  · exact Function.update_self ..

theorem sound_rename (apart : host.Apart urls) (sound : host.Sound urls ⟨directory, .promote url⟩) :
    host.Sound urls (host.rename url directory) := by
  have whole : directory (host.partPath url) = some (host.target url) := sound.stands
  have member := sound.used url rfl
  unfold Host.rename
  split_ifs
  · exact ⟨sound.paired, trivial, used_of_eq rfl member⟩
  · refine ⟨paired_removePart (paired_setFinal sound.paired apart member _), ⟨?_, ?_⟩,
      used_of_eq rfl member⟩
    · dsimp only
      rw [Function.update_of_ne finalPath_ne_partPath, Function.update_self]
      exact whole
    · exact Function.update_self ..

theorem sound_proceed (apart : host.Apart urls) {state : Download} (sound : host.Sound urls state) :
    host.Sound urls (host.proceed state) := by
  obtain ⟨directory, phase⟩ := state
  obtain ⟨paired, stands, used⟩ := sound
  cases phase with
  | idle | returned => exact ⟨paired, stands, used⟩
  | readMarker url =>
    unfold Host.proceed
    dsimp only
    split_ifs with own
    · exact ⟨paired, own, used_of_eq rfl (used url rfl)⟩
    · exact ⟨paired, trivial, used_of_eq rfl (used url rfl)⟩
  | removePart url =>
    refine ⟨paired_removePart paired, ?_, used_of_eq rfl (used url rfl)⟩
    exact Function.update_self ..
  | createMarker url =>
    refine ⟨paired_setMarker paired stands _, ?_, used_of_eq rfl (used url rfl)⟩
    exact (Function.update_of_ne partPath_ne_markerPath ..).trans stands
  | fillMarker url =>
    refine ⟨paired_setMarker paired stands _, ?_, used_of_eq rfl (used url rfl)⟩
    exact Function.update_self ..
  | attempt url number => exact sound_answer ⟨paired, stands, used⟩
  | copy url number rest =>
    unfold Host.proceed
    dsimp only
    split_ifs with done
    · obtain ⟨_, bytes, found, split⟩ := stands
      rw [done, List.append_nil] at split
      exact ⟨paired, found.trans (congrArg some split), used_of_eq rfl (used url rfl)⟩
    · exact sound_append ⟨paired, stands, used⟩ _
  | promote url => exact sound_rename apart ⟨paired, stands, used⟩
  | removeMarker url =>
    refine ⟨paired_setMarker paired stands.2 _, ?_, used_of_eq rfl (used url rfl)⟩
    exact (Function.update_of_ne finalPath_ne_markerPath ..).trans stands.1

theorem sound_failed {state : Download} (sound : host.Sound urls state) :
    host.Sound urls ⟨state.directory, failed state.phase⟩ := by
  obtain ⟨directory, phase⟩ := state
  obtain ⟨paired, stands, used⟩ := sound
  cases phase with
  | idle | returned => exact ⟨paired, stands, used⟩
  | readMarker url | removePart url | createMarker url | fillMarker url | promote url =>
    exact ⟨paired, trivial, used_of_eq rfl (used url rfl)⟩
  | attempt url number => exact ⟨paired, stands_retry stands, used_of_eq url_retry (used url rfl)⟩
  | copy url number rest =>
    exact ⟨paired, stands_retry stands.1, used_of_eq url_retry (used url rfl)⟩
  | removeMarker url => exact ⟨paired, stands.1, used_of_eq rfl (used url rfl)⟩

theorem sound_step (apart : host.Apart urls) {state : Download} (sound : host.Sound urls state)
    {event : Event} (starts : ∀ url, event = .start url → url ∈ urls) :
    host.Sound urls (host.step state event).1 := by
  cases event with
  | start url => exact ⟨sound.paired, trivial, used_of_eq rfl (starts url rfl)⟩
  | proceed => exact sound_proceed apart sound
  | fail => exact sound_failed sound
  | receive count =>
    obtain ⟨directory, phase⟩ := state
    cases phase with
    | copy url number rest => exact sound_append sound count
    | idle | readMarker | removePart | createMarker | fillMarker | attempt | promote | removeMarker
    | returned => exact sound

/-- **The pairing holds after every history** of downloads of these URLs. -/
theorem sound_run (apart : host.Apart urls) {state : Download} (sound : host.Sound urls state)
    {events : List Event} (starts : ∀ url, .start url ∈ events → url ∈ urls) :
    host.Sound urls (run host.step state events) := by
  induction events generalizing state with
  | nil => exact sound
  | cons event rest ih =>
    refine ih (sound_step apart sound fun url same => starts url (same ▸ List.mem_cons_self)) ?_
    exact fun url member => starts url (List.mem_cons_of_mem _ member)

end Sound

/-! ### A download that nothing disturbs -/

/-- Nothing fails and nobody kills the process: the server answers, the body arrives. -/
def Event.Calm : Event → Prop
  | .proceed | .receive _ => True
  | .start _ | .fail => False

/-- The part file of the URL, under the URL's own marker, is the whole object already. -/
def Host.Complete (url : Text) : Prop :=
  directory (host.markerPath url) = some (urlIdentity url) ∧
    directory (host.partPath url) = some (host.target url) ∧ host.target url ≠ []

section Undisturbed

variable {host} {directory : Directory} {url : Text}

/-- **What falls with every operation runs out**: `keeps` holds along a calm run, and after as many
operations as were left none is. -/
theorem settles {keeps : Download → Prop} {left : Download → ℕ}
    (stays : ∀ state event, keeps state → event.Calm → keeps (host.step state event).1)
    (falls : ∀ state, keeps state → left (host.step state .proceed).1 ≤ left state - 1)
    (rests : ∀ state count, keeps state → left (host.step state (.receive count)).1 ≤ left state)
    {calm : List Event} (undisturbed : ∀ event ∈ calm, event.Calm) {state : Download}
    (holds : keeps state) (enough : left state ≤ calm.count .proceed) :
    keeps (run host.step state calm) ∧ left (run host.step state calm) = 0 := by
  induction calm generalizing state with
  | nil => exact ⟨holds, Nat.le_zero.mp enough⟩
  | cons event rest ih =>
    have here := undisturbed event List.mem_cons_self
    refine ih (fun other member => undisturbed other (List.mem_cons_of_mem _ member))
      (stays state event holds here) ?_
    cases event with
    | start | fail => cases here
    | proceed =>
      rw [List.count_cons_self] at enough
      have fallen := falls state holds
      omega
    | receive count =>
      rw [List.count_cons_of_ne (by simp)] at enough
      exact (rests state count holds).trans enough

/-- The server has something to send for what the part file lacks. -/
def Host.Open (host : Host) (directory : Directory) (url : Text) : Prop :=
  host.existingSize directory url = 0 ∨ host.existingSize directory url < (host.target url).length

/-- A download on its way to the final file, or to the refused rename of a URL without a name. -/
def Host.Ahead (host : Host) (url : Text) (state : Download) : Prop :=
  match state.phase with
  | .idle => False
  | .readMarker own => own = url ∧
      (state.directory (host.markerPath url) = some (urlIdentity url) → host.Open state.directory url)
  | .removePart own | .copy own _ _ | .promote own => own = url
  | .createMarker own | .fillMarker own => own = url ∧ state.directory (host.partPath url) = none
  | .attempt own _ => own = url ∧ host.Open state.directory url
  | .removeMarker own => own = url ∧ host.finalPath url ≠ []
  | .returned own ok => own = url ∧ (ok = true ↔ host.finalPath url ≠ [])

/-- The operations left when nothing fails. -/
def operationsLeft : ℕ :=
  match state.phase with
  | .idle | .returned _ _ => 0
  | .readMarker _ => 9
  | .removePart _ => 8
  | .createMarker _ => 7
  | .fillMarker _ => 6
  | .attempt _ _ => 5
  | .copy _ _ rest => if rest = [] then 3 else 4
  | .promote _ => 2
  | .removeMarker _ => 1

theorem ahead_append {own : Text} {number : ℕ} {rest : List Byte} (same : own = url) (count : ℕ) :
    host.Ahead url (host.append own number rest count directory) :=
  same

theorem existingSize_of_none (missing : directory (host.partPath url) = none) :
    host.existingSize directory url = 0 := by
  rw [Host.existingSize, missing]
  rfl

theorem ahead_proceed {state : Download} (ahead : host.Ahead url state) :
    host.Ahead url (host.proceed state) ∧
      operationsLeft (host.proceed state) ≤ operationsLeft state - 1 := by
  obtain ⟨directory, phase⟩ := state
  cases phase with
  | idle => exact ahead.elim
  | returned own ok => exact ⟨ahead, le_rfl⟩
  | readMarker own =>
    obtain ⟨rfl, opens⟩ := ahead
    unfold Host.proceed
    dsimp only
    split_ifs with marked
    · exact ⟨⟨rfl, opens marked⟩, (by decide : 5 ≤ 8)⟩
    · exact ⟨rfl, (by decide : 8 ≤ 8)⟩
  | removePart own =>
    obtain rfl : own = url := ahead
    exact ⟨⟨rfl, Function.update_self ..⟩, (by decide : 7 ≤ 7)⟩
  | createMarker own =>
    obtain ⟨rfl, missing⟩ := ahead
    refine ⟨⟨rfl, ?_⟩, (by decide : 6 ≤ 6)⟩
    exact (Function.update_of_ne partPath_ne_markerPath ..).trans missing
  | fillMarker own =>
    obtain ⟨rfl, missing⟩ := ahead
    refine ⟨⟨rfl, .inl (existingSize_of_none ?_)⟩, (by decide : 5 ≤ 5)⟩
    exact (Function.update_of_ne partPath_ne_markerPath ..).trans missing
  | attempt own number =>
    obtain ⟨rfl, opens⟩ := ahead
    show host.Ahead own (host.answer own number directory) ∧
      operationsLeft (host.answer own number directory) ≤ 4
    unfold Host.answer
    dsimp only
    split_ifs with absent inside
    · exact ⟨rfl, by unfold operationsLeft; dsimp only; split_ifs <;> omega⟩
    · exact ⟨rfl, by unfold operationsLeft; dsimp only; split_ifs <;> omega⟩
    · exact absurd opens (not_or.mpr ⟨absent, inside⟩)
  | copy own number rest =>
    unfold Host.proceed
    dsimp only
    split_ifs with done
    · exact ⟨ahead, by simp [operationsLeft, done]⟩
    · exact ⟨ahead_append ahead _, by simp [operationsLeft, Host.append, done]⟩
  | promote own =>
    obtain rfl : own = url := ahead
    show host.Ahead own (host.rename own directory) ∧ operationsLeft (host.rename own directory) ≤ 1
    unfold Host.rename
    split_ifs with unnamed
    · exact ⟨⟨rfl, by simp [unnamed]⟩, (by decide : 0 ≤ 1)⟩
    · exact ⟨⟨rfl, unnamed⟩, (by decide : 1 ≤ 1)⟩
  | removeMarker own =>
    obtain ⟨rfl, named⟩ := ahead
    exact ⟨⟨rfl, fun _ => named, fun _ => rfl⟩, (by decide : 0 ≤ 0)⟩

theorem ahead_receive {state : Download} (ahead : host.Ahead url state) (count : ℕ) :
    host.Ahead url (host.step state (.receive count)).1 ∧
      operationsLeft (host.step state (.receive count)).1 ≤ operationsLeft state := by
  obtain ⟨directory, phase⟩ := state
  cases phase with
  | copy own number rest =>
    refine ⟨ahead_append ahead count, ?_⟩
    by_cases done : rest = []
    · simp [Host.step, Host.append, operationsLeft, done]
    · simp only [Host.step, Host.append, operationsLeft, done, if_false]
      split_ifs <;> omega
  | idle | readMarker | removePart | createMarker | fillMarker | attempt | promote | removeMarker
  | returned => exact ⟨ahead, le_rfl⟩

/-- **A download whose part file is not complete reaches its final file**, if its URL names one. -/
theorem ahead_settles {calm : List Event} (undisturbed : ∀ event ∈ calm, event.Calm)
    {state : Download} (ahead : host.Ahead url state)
    (enough : operationsLeft state ≤ calm.count .proceed) :
    ∃ ok, (run host.step state calm).phase = .returned url ok ∧
      (ok = true ↔ host.finalPath url ≠ []) := by
  obtain ⟨final, none⟩ := @settles host (host.Ahead url) operationsLeft
    (fun state event holds here => by
      cases event with
      | start | fail => cases here
      | proceed => exact (ahead_proceed holds).1
      | receive count => exact (ahead_receive holds count).1)
    (fun state holds => (ahead_proceed holds).2)
    (fun state count holds => (ahead_receive holds count).2) calm undisturbed state ahead enough
  generalize run host.step state calm = last at final none
  obtain ⟨directory, phase⟩ := last
  cases phase with
  | idle => exact final.elim
  | returned own ok =>
    obtain ⟨rfl, iff⟩ := final
    exact ⟨ok, rfl, iff⟩
  | copy own number rest =>
    unfold operationsLeft at none
    dsimp only at none
    split_ifs at none
  | readMarker | removePart | createMarker | fillMarker | attempt | promote | removeMarker =>
    cases none

/-- A download whose part file is complete: all it can do is ask again. -/
def Host.Refused (host : Host) (url : Text) (state : Download) : Prop :=
  host.Complete state.directory url ∧ (state.phase = .readMarker url ∨
      (∃ number, 0 < number ∧ number ≤ maxDownloadRetries ∧ state.phase = .attempt url number) ∨
      state.phase = .returned url false)

/-- The requests left to a download that only asks again. -/
def requestsLeft : ℕ :=
  match state.phase with
  | .readMarker _ => maxDownloadRetries + 1
  | .attempt _ number => maxDownloadRetries + 1 - number
  | _ => 0

theorem refused_proceed {state : Download} (refused : host.Refused url state) :
    host.Refused url (host.proceed state) ∧
      requestsLeft (host.proceed state) ≤ requestsLeft state - 1 := by
  obtain ⟨directory, phase⟩ := state
  obtain ⟨complete, reading | ⟨number, positive, small, asking⟩ | ended⟩ := refused
  · cases reading
    unfold Host.proceed
    dsimp only
    rw [if_pos complete.1]
    exact ⟨⟨complete, .inr (.inl ⟨1, by decide, by decide, rfl⟩)⟩, (by decide : 10 ≤ 10)⟩
  · cases asking
    have size : host.existingSize directory url = (host.target url).length :=
      existingSize_of_some complete.2.1
    have answered : host.answer url number directory = ⟨directory, retry url number⟩ := by
      unfold Host.answer
      dsimp only
      rw [size, if_neg (mt List.length_eq_zero_iff.mp complete.2.2), if_neg (lt_irrefl _)]
    show host.Refused url (host.answer url number directory) ∧
      requestsLeft (host.answer url number directory) ≤ maxDownloadRetries + 1 - number - 1
    rw [answered]
    unfold retry
    split_ifs with more
    · refine ⟨⟨complete, .inr (.inl ⟨number + 1, by omega, more, rfl⟩)⟩, ?_⟩
      show maxDownloadRetries + 1 - (number + 1) ≤ _
      omega
    · exact ⟨⟨complete, .inr (.inr rfl)⟩, Nat.zero_le _⟩
  · cases ended
    exact ⟨⟨complete, .inr (.inr rfl)⟩, le_rfl⟩

theorem refused_receive {state : Download} (refused : host.Refused url state) (count : ℕ) :
    (host.step state (.receive count)).1 = state := by
  obtain ⟨directory, phase⟩ := state
  obtain ⟨_, reading | ⟨number, _, _, asking⟩ | ended⟩ := refused
  · cases reading
    rfl
  · cases asking
    rfl
  · cases ended
    rfl

/-- **A complete part file is refused for ever.** -/
theorem refused_settles {calm : List Event} (undisturbed : ∀ event ∈ calm, event.Calm)
    {state : Download} (refused : host.Refused url state)
    (enough : requestsLeft state ≤ calm.count .proceed) :
    (run host.step state calm).phase = .returned url false := by
  obtain ⟨final, none⟩ := @settles host (host.Refused url) requestsLeft
    (fun state event holds here => by
      cases event with
      | start | fail => cases here
      | proceed => exact (refused_proceed holds).1
      | receive count => exact (refused_receive holds count).symm ▸ holds)
    (fun state holds => (refused_proceed holds).2)
    (fun state count holds => (refused_receive holds count).symm ▸ le_rfl)
    calm undisturbed state refused enough
  obtain ⟨_, reading | ⟨number, _, small, asking⟩ | ended⟩ := final
  · rw [requestsLeft, reading] at none
    cases none
  · rw [requestsLeft, asking] at none
    dsimp only at none
    omega
  · exact ended

theorem open_of_not_complete {urls : Set Text} (paired : host.Paired urls directory)
    (used : url ∈ urls) (lacks : ¬ host.Complete directory url)
    (marked : directory (host.markerPath url) = some (urlIdentity url)) :
    host.Open directory url := by
  cases found : directory (host.partPath url) with
  | none => exact .inl (existingSize_of_none found)
  | some bytes =>
    have beginning := paired url used marked bytes found
    unfold Host.Open
    rw [existingSize_of_some found]
    rcases beginning.length_le.lt_or_eq with shorter | equal
    · exact .inr shorter
    · have whole := beginning.eq_of_length equal
      refine .inl (List.length_eq_zero_iff.mpr ?_)
      by_contra filled
      exact lacks ⟨marked, whole ▸ found, whole ▸ filled⟩

end Undisturbed

/-! ### Every history -/

/-- **Resumable downloads.** Over URLs none of whose file names is the part file or the marker of
another, whatever is killed or fails on the way: what has returned `Ok` left the object of its own
URL, and from there a download that nothing disturbs returns, with `Ok` exactly if its URL names a
file and its part file is not the whole object already. -/
theorem resumable_download_settles {urls : Set Text} (apart : host.Apart urls) {directory : Directory}
    (unmarked : ∀ url ∈ urls, directory (host.markerPath url) = none) {events : List Event}
    (starts : ∀ url, .start url ∈ events → url ∈ urls) :
    (∀ url, (run host.step ⟨directory, .idle⟩ events).phase = .returned url true →
      (run host.step ⟨directory, .idle⟩ events).directory (host.finalPath url) =
        some (host.target url)) ∧
    ∀ url ∈ urls, ∀ calm : List Event, (∀ event ∈ calm, event.Calm) → 11 ≤ calm.count .proceed →
      ∃ ok, (run host.step (run host.step ⟨directory, .idle⟩ events) (.start url :: calm)).phase =
          .returned url ok ∧
        (ok = true ↔ host.finalPath url ≠ [] ∧
          ¬ host.Complete (run host.step ⟨directory, .idle⟩ events).directory url) := by
  have begins : host.Sound urls ⟨directory, .idle⟩ := by
    refine ⟨fun url used marked => ?_, trivial, fun url works => by cases works⟩
    exact absurd ((unmarked url used).symm.trans marked) (by simp)
  have sound := sound_run apart begins starts
  generalize run host.step ⟨directory, .idle⟩ events = state at sound
  refine ⟨fun url ended => ?_, fun url used calm undisturbed enough => ?_⟩
  · have stands := sound.stands
    rw [ended] at stands
    exact stands
  · by_cases complete : host.Complete state.directory url
    · refine ⟨false, refused_settles undisturbed ⟨complete, .inl rfl⟩ enough, ?_⟩
      simp [complete]
    · have ahead : host.Ahead url ⟨state.directory, .readMarker url⟩ :=
        ⟨rfl, open_of_not_complete sound.paired used complete⟩
      obtain ⟨ok, ended, iff⟩ := ahead_settles undisturbed ahead ((by decide : 9 ≤ 11).trans enough)
      exact ⟨ok, ended, by rw [iff, and_iff_left complete]⟩

/-! ### Two URLs -/

def sampleHost : Host := ⟨id, fun _ => [1, 2, 3]⟩

def sampleUrl : Text := ascii ['s']

/-- A download that is killed after the first byte leaves a part file the next one continues. -/
theorem resumable_download_settles_resumed :
    ∃ ok, (run sampleHost.step (run sampleHost.step ⟨fun _ => none, .idle⟩
        (.start sampleUrl :: (List.replicate 5 .proceed ++ [.receive 1])))
        (.start sampleUrl :: List.replicate 11 .proceed)).phase = .returned sampleUrl ok ∧
      (ok = true ↔ sampleHost.finalPath sampleUrl ≠ [] ∧ ¬ sampleHost.Complete
        (run sampleHost.step ⟨fun _ => none, .idle⟩
          (.start sampleUrl :: (List.replicate 5 .proceed ++ [.receive 1]))).directory sampleUrl) :=
  (@resumable_download_settles sampleHost {sampleUrl} (fun url used other member => by
      cases used
      cases member
      decide)
    (fun _ => none) (fun _ _ => rfl) _ (fun url member => by simpa using member)).2 sampleUrl rfl _
    (fun event member => by cases List.eq_of_mem_replicate member; trivial) (by decide)

/-- **A download killed before the rename never completes**: the part file is the object, the range
starts at its end, and the run that finds it returns an error although the server answers. And a URL
whose file name is the part file of another puts its own object under the other's marker: the
download that continues it returns `Ok` with a final file that mixes the two. -/
theorem complete_part_refused : (run sampleHost.step (run sampleHost.step ⟨fun _ => none, .idle⟩
        (.start sampleUrl :: List.replicate 6 .proceed))
        (.start sampleUrl :: List.replicate 11 .proceed)).phase = .returned sampleUrl false ∧
    (let mixing : Host := ⟨id, fun identity => if identity = sampleUrl then [1, 2, 3] else [7, 8]⟩
      let state := run mixing.step ⟨fun _ => none, .idle⟩
        (.start sampleUrl :: List.replicate 5 .proceed ++
          .start (mixing.partPath sampleUrl) :: List.replicate 9 .proceed ++
          .start sampleUrl :: List.replicate 6 .proceed)
      state.phase = .returned sampleUrl true ∧
        state.directory (mixing.finalPath sampleUrl) = some [7, 8, 3]) := by
  decide +kernel

end ArcNode.Snapshots
