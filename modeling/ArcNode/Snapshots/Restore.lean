/-
**Restores of the two layers, killed anywhere.**

A restore replaces the execution directory as a tree, unpacks over the consensus directory and
records the snapshot in a marker, `.snapshot-url`. The machine takes one file operation at a time: a
tree loses its files in any order, an archive is written in any order and in pieces, and another
`start` stands for a process that was killed. As long as no file of the execution directory is
deleted while its marker is there, every marker says what is beside it (**`markers_honest`**).
`remove_dir_all` promises no such order, and a run killed inside it leaves a marker that lies
(**`torn_removal`**).
-/

import ArcNode.Snapshots.Download

namespace ArcNode.Snapshots

open Lib

/-! ### The two directories -/

inductive Layer
  | execution
  | consensus
  deriving DecidableEq

abbrev Archive := List (Text × List Byte)

/-- What lies outside: the archive behind an identity, `str::trim`, and which bytes are a string. -/
structure Store where
  archive : Text → Archive
  trim : Text → Text
  isUtf8 : List Byte → Bool
  trim_nil : trim [] = []

/-- `.snapshot-url` -/
def snapshotVersionFile : Text :=
  ascii ['.', 's', 'n', 'a', 'p', 's', 'h', 'o', 't', '-', 'u', 'r', 'l']

/-- `db/mdbx.dat` -/
def mdbxDat : Text := ascii ['d', 'b', '/', 'm', 'd', 'b', 'x', '.', 'd', 'a', 't']

/-- `store.db` -/
def storeDb : Text := ascii ['s', 't', 'o', 'r', 'e', '.', 'd', 'b']

/-- `execution_snapshot_exists` and `consensus_snapshot_exists`. -/
def Layer.snapshotExists (layer : Layer) (directory : Directory) : Bool :=
  match layer with
  | .execution => (directory mdbxDat).isSome
  | .consensus => (directory storeDb).isSome

variable (store : Store)

def Store.archiveOf (url : Text) : Archive := store.archive (urlIdentity url)

/-- `read_to_string` of the marker. -/
def Store.readMarker (directory : Directory) : Option Text :=
  (directory snapshotVersionFile).filter fun bytes => store.isUtf8 bytes

/-- Data in the layer's directory that no snapshot restore recorded: the run must stop. -/
inductive RestoreError
  | unrecorded (layer : Layer)
  deriving DecidableEq

variable (layer : Layer)

/-- Whether a layer needs restoring from a URL, or the run must stop. -/
def Store.shouldDownload (directory : Directory) (url : Text) («exists» force : Bool) :
    Except RestoreError Bool :=
  if force || !«exists» then .ok true
  else
    match store.readMarker directory with
    | some saved => .ok (decide (store.trim saved ≠ urlIdentity url))
    | none => .error (.unrecorded layer)

/-- `extract_archive`, run to its end. -/
def unpack (archive : Archive) (directory : Directory) : Directory :=
  archive.foldl (fun files entry => Function.update files entry.1 (some entry.2)) directory

def Archive.files (archive : Archive) : Directory := unpack archive fun _ => none

/-! ### The runs -/

/-- One piece of a run. Downloads and clean-ups touch the staging directories only. -/
inductive Job
  | download (url : Text)
  | replace (layer : Layer) (url : Text)
  | removeStaging
  deriving DecidableEq

inductive Stage
  /-- `remove_restore_dir` of the execution directory, `invalidate_snapshot_version` of the
  consensus directory. -/
  | clear
  | extract
  /-- `write_snapshot_version`: the marker is created or truncated, then filled. -/
  | createMarker
  | fillMarker
  deriving DecidableEq

structure Restore where
  execution : Directory
  consensus : Directory
  jobs : List Job
  /-- The stage of the first job. -/
  stage : Stage

variable (state : Restore)

def Restore.directory : Layer → Directory
  | .execution => state.execution
  | .consensus => state.consensus

def Restore.put (layer : Layer) (directory : Directory) : Restore :=
  match layer with
  | .execution => { state with execution := directory }
  | .consensus => { state with consensus := directory }

inductive Command
  /-- `download_and_extract_both` -/
  | both (elUrl clUrl : Text) (force : Bool)
  /-- `restore_consensus` -/
  | consensusOnly (url : Text) (force : Bool)
  deriving DecidableEq

/-- `shouldDownload` on the layer's own directory. -/
def Store.decides (layer : Layer) (url : Text) (force : Bool) : Except RestoreError Bool :=
  store.shouldDownload layer (state.directory layer) url
    (layer.snapshotExists (state.directory layer)) force

/-- One layer restored on its own: staged, replaced, the staging directory removed. -/
def restoreLayer (url : Text) (wanted : Bool) : List Job :=
  if wanted then [.download url, .replace layer url, .removeStaging] else []

/-- What a run does. A forced pair is staged before either target is touched; otherwise both
decisions are taken before either restore. -/
def Store.plan : Command → Except RestoreError (List Job)
  | .both elUrl clUrl true =>
    .ok [.download elUrl, .download clUrl, .replace .execution elUrl, .replace .consensus clUrl,
      .removeStaging]
  | .both elUrl clUrl false => do
    let restoreExecution ← store.decides state .execution elUrl false
    let restoreConsensus ← store.decides state .consensus clUrl false
    .ok (restoreLayer .execution elUrl restoreExecution ++
      restoreLayer .consensus clUrl restoreConsensus)
  | .consensusOnly url force => do
    let restoreConsensus ← store.decides state .consensus url force
    .ok (restoreLayer .consensus url restoreConsensus)

/-- What happens next. -/
inductive Operation
  /-- A run starts; the one before it, if it still ran, was killed. -/
  | start (command : Command)
  /-- The stage the run stands at is completed. -/
  | proceed
  /-- The removal of the execution directory deletes one file. -/
  | delete (path : Text)
  /-- The extraction has put some bytes into one of the archive's files. -/
  | write (path : Text) (bytes : List Byte)
  /-- The operation fails and the run returns an error. -/
  | fail
  deriving DecidableEq

/-- A directory after the first stage of its replacement. -/
def cleared (directory : Directory) : Directory :=
  match layer with
  | .execution => fun _ => none
  | .consensus => Function.update directory snapshotVersionFile none

/-- A stage of a replacement is completed. -/
def Store.advance (layer : Layer) (url : Text) (rest : List Job) : Restore :=
  let directory := state.directory layer
  match state.stage with
  | .clear =>
    { state.put layer (cleared layer directory) with jobs := state.jobs, stage := .extract }
  | .extract =>
    { state.put layer (unpack (store.archiveOf url) directory)
      with jobs := state.jobs, stage := .createMarker }
  | .createMarker =>
    { state.put layer (Function.update directory snapshotVersionFile (some []))
      with jobs := state.jobs, stage := .fillMarker }
  | .fillMarker =>
    { state.put layer (Function.update directory snapshotVersionFile (some (urlIdentity url)))
      with jobs := rest, stage := .clear }

def Store.step (operation : Operation) : Restore × Unit :=
  (match operation, state.jobs, state.stage with
    | .start command, _, _ =>
      match store.plan state command with
      | .ok jobs => { state with jobs := jobs, stage := .clear }
      | .error _ => { state with jobs := [], stage := .clear }
    | .proceed, .replace layer url :: rest, _ => store.advance state layer url rest
    | .proceed, _ :: rest, _ => { state with jobs := rest, stage := .clear }
    | .delete path, .replace .execution _ :: _, .clear =>
      { state with execution := Function.update state.execution path none }
    | .write path bytes, .replace layer url :: _, .extract =>
      if path ∈ (store.archiveOf url).map Prod.fst then
        state.put layer (Function.update (state.directory layer) path (some bytes))
      else state
    | .fail, _, _ => { state with jobs := [], stage := .clear }
    | _, _, _ => state, ())

/-! ### What a marker says -/

/-- The snapshot files of a layer are exactly those of the archive of a URL: every file of the
execution directory but the marker, the store of the consensus directory. -/
def Store.Recorded (directory : Directory) (url : Text) : Prop :=
  match layer with
  | .execution => ∀ path ≠ snapshotVersionFile, directory path = (store.archiveOf url).files path
  | .consensus => directory storeDb = (store.archiveOf url).files storeDb

/-- A marker is empty, as `fs::write` creates it, or names a snapshot that is complete. -/
def Store.Honest (directory : Directory) : Prop :=
  ∀ saved, directory snapshotVersionFile = some saved →
    saved = [] ∨ ∃ url, saved = urlIdentity url ∧ store.trim saved = saved ∧
      store.Recorded layer directory url

/-- The archive has the shape its layer's archives have: the marker is not in it, and a consensus
archive holds `store.db` alone. The URL does not begin or end in white space. -/
def Store.Fits (url : Text) : Prop :=
  store.trim (urlIdentity url) = urlIdentity url ∧
    match layer with
    | .execution => snapshotVersionFile ∉ (store.archiveOf url).map Prod.fst
    | .consensus => (store.archiveOf url).map Prod.fst = [storeDb]

/-- The URLs of a command fit their layers. -/
def Store.FitsAll : Command → Prop
  | .both elUrl clUrl _ => store.Fits .execution elUrl ∧ store.Fits .consensus clUrl
  | .consensusOnly url _ => store.Fits .consensus url

/-- **A careful step**: the URLs fit, and no other file of the execution directory is deleted while
its marker is there. -/
def Store.Careful (state : Restore) : Operation → Prop
  | .start command => store.FitsAll command
  | .delete path => path ≠ snapshotVersionFile → state.execution snapshotVersionFile = none
  | .proceed | .write _ _ | .fail => True

instance (layer : Layer) (url : Text) : Decidable (store.Fits layer url) := by
  cases layer <;> dsimp only [Store.Fits] <;> infer_instance

instance (command : Command) : Decidable (store.FitsAll command) := by
  cases command <;> dsimp only [Store.FitsAll] <;> infer_instance

instance (state : Restore) (operation : Operation) : Decidable (store.Careful state operation) := by
  cases operation <;> dsimp only [Store.Careful] <;> infer_instance

section Unpack

variable {store} {archive : Archive} {directory : Directory} {path : Text}

theorem unpack_of_not_mem (absent : path ∉ archive.map Prod.fst) :
    unpack archive directory path = directory path := by
  induction archive generalizing directory with
  | nil => rfl
  | cons entry rest ih =>
    rw [List.map_cons, List.mem_cons, not_or] at absent
    exact (ih absent.2).trans (Function.update_of_ne absent.1 ..)

theorem unpack_of_mem (member : path ∈ archive.map Prod.fst) (other : Directory) :
    unpack archive directory path = unpack archive other path := by
  induction archive generalizing directory other with
  | nil => cases member
  | cons entry rest ih =>
    by_cases later : path ∈ rest.map Prod.fst
    · exact ih later _
    · have same : path = entry.1 := by
        rw [List.map_cons, List.mem_cons] at member
        exact member.resolve_right later
      show unpack rest (Function.update directory entry.1 (some entry.2)) path =
        unpack rest (Function.update other entry.1 (some entry.2)) path
      rw [unpack_of_not_mem later, unpack_of_not_mem later, same, Function.update_self,
        Function.update_self]

theorem files_of_not_mem (absent : path ∉ archive.map Prod.fst) : archive.files path = none :=
  unpack_of_not_mem absent

end Unpack

/-! ### What holds at each stage -/

/-- What a run knows about the directory it replaces. -/
def Store.Reached (layer : Layer) (url : Text) (directory : Directory) : Stage → Prop
  | .clear => True
  | .extract => directory snapshotVersionFile = none ∧
      (layer = .execution → ∀ path, path ∉ (store.archiveOf url).map Prod.fst → directory path = none)
  | .createMarker | .fillMarker => store.Recorded layer directory url

structure Store.Sound (state : Restore) : Prop where
  honest : ∀ layer, store.Honest layer (state.directory layer)
  fits : ∀ layer url, .replace layer url ∈ state.jobs → store.Fits layer url
  reached : ∀ layer url rest, state.jobs = .replace layer url :: rest →
    store.Reached layer url (state.directory layer) state.stage

variable {command : Command}

section Sound

variable {store} {state : Restore} {layer : Layer} {url : Text} {directory : Directory}

theorem storeDb_ne_marker : storeDb ≠ snapshotVersionFile := by decide

@[simp] theorem directory_put_self (state : Restore) (layer : Layer) (directory : Directory) :
    (state.put layer directory).directory layer = directory := by
  cases layer <;> rfl

theorem directory_put_of_ne {other : Layer} (ne : other ≠ layer) :
    (state.put layer directory).directory other = state.directory other := by
  cases layer <;> cases other <;> first | exact absurd rfl ne | rfl

theorem honest_of_none (missing : directory snapshotVersionFile = none) :
    store.Honest layer directory := by
  intro saved found
  rw [missing] at found
  cases found

theorem recorded_update (recorded : store.Recorded layer directory url)
    (content : Option (List Byte)) :
    store.Recorded layer (Function.update directory snapshotVersionFile content) url := by
  cases layer with
  | execution => exact fun path ne => (Function.update_of_ne ne ..).trans (recorded path ne)
  | consensus => exact (Function.update_of_ne storeDb_ne_marker ..).trans recorded

theorem recorded_unpack (fits : store.Fits layer url)
    (reached : store.Reached layer url directory .extract) :
    store.Recorded layer (unpack (store.archiveOf url) directory) url := by
  cases layer with
  | execution =>
    intro path _
    by_cases member : path ∈ (store.archiveOf url).map Prod.fst
    · exact unpack_of_mem member _
    · rw [unpack_of_not_mem member, files_of_not_mem member]
      exact reached.2 rfl path member
  | consensus =>
    refine unpack_of_mem ?_ _
    rw [fits.2]
    exact List.mem_singleton_self _

/-- Neither layer's archive writes the marker. -/
theorem marker_not_mem (fits : store.Fits layer url) :
    snapshotVersionFile ∉ (store.archiveOf url).map Prod.fst := by
  cases layer with
  | execution => exact fits.2
  | consensus =>
    rw [fits.2, List.mem_singleton]
    exact storeDb_ne_marker.symm

/-- A run's own layer changes, its jobs shrink or stay: what is left to check. -/
theorem sound_put (sound : store.Sound state) {jobs : List Job} {stage : Stage}
    (fewer : ∀ job ∈ jobs, job ∈ state.jobs)
    (honest : store.Honest layer directory)
    (reached : ∀ other url rest, jobs = .replace other url :: rest →
      store.Reached other url ((state.put layer directory).directory other) stage) :
    store.Sound { state.put layer directory with jobs := jobs, stage := stage } := by
  refine ⟨fun other => ?_, fun other url member => sound.fits other url (fewer _ member), ?_⟩
  · show store.Honest other ((state.put layer directory).directory other)
    by_cases same : other = layer
    · rw [same, directory_put_self]
      exact honest
    · rw [directory_put_of_ne same]
      exact sound.honest other
  · exact reached

theorem sound_advance {rest : List Job} (sound : store.Sound state)
    (here : state.jobs = .replace layer url :: rest) :
    store.Sound (store.advance state layer url rest) := by
  have fits := sound.fits layer url (here ▸ List.mem_cons_self)
  have reached := sound.reached layer url rest here
  have kept : ∀ (changed : Directory) (stage : Stage), store.Reached layer url changed stage →
      ∀ other url' rest', state.jobs = .replace other url' :: rest' →
        store.Reached other url' ((state.put layer changed).directory other) stage := by
    intro changed stage holds other url' rest' same
    rw [here] at same
    cases same
    rw [directory_put_self]
    exact holds
  unfold Store.advance
  cases stage : state.stage with
  | clear =>
    have missing : cleared layer (state.directory layer) snapshotVersionFile = none := by
      cases layer with
      | execution => rfl
      | consensus => exact @Function.update_self Text (fun _ => Option (List Byte)) _ _ none _
    refine sound_put sound (fun _ => id) (honest_of_none missing) (kept _ .extract ⟨missing, ?_⟩)
    rintro rfl path _
    rfl
  | extract =>
    rw [stage] at reached
    refine sound_put sound (fun _ => id) (honest_of_none ?_) 
      (kept _ .createMarker (recorded_unpack fits reached))
    exact (unpack_of_not_mem (marker_not_mem fits)).trans reached.1
  | createMarker =>
    rw [stage] at reached
    refine sound_put sound (fun _ => id) (fun saved found => ?_) 
      (kept _ .fillMarker (recorded_update reached _))
    rw [Function.update_self] at found
    exact .inl (Option.some.inj found).symm
  | fillMarker =>
    rw [stage] at reached
    refine sound_put sound (fun job member => here ▸ List.mem_cons_of_mem _ member)
      (fun saved found => ?_) (fun _ _ _ _ => trivial)
    rw [Function.update_self] at found
    obtain rfl := Option.some.inj found
    exact .inr ⟨url, rfl, fits.1, recorded_update reached _⟩

/-- The run gives up a job, or all of them. -/
theorem sound_drop (sound : store.Sound state) {jobs : List Job}
    (fewer : ∀ job ∈ jobs, job ∈ state.jobs) :
    store.Sound { state with jobs := jobs, stage := .clear } :=
  ⟨sound.honest, fun layer url member => sound.fits layer url (fewer _ member),
    fun _ _ _ _ => trivial⟩

theorem mem_restoreLayer {wanted : Bool} {other : Layer} {url' : Text}
    (member : .replace other url' ∈ restoreLayer layer url wanted) : other = layer ∧ url' = url := by
  unfold restoreLayer at member
  split_ifs at member
  · simpa using member
  · cases member

/-- A plan replaces layers by the command's URLs only. -/
theorem fits_plan (fits : store.FitsAll command) {jobs : List Job}
    (planned : store.plan state command = .ok jobs) (member : .replace layer url ∈ jobs) :
    store.Fits layer url := by
  cases command with
  | both elUrl clUrl force =>
    cases force with
    | true =>
      cases planned
      simp only [List.mem_cons, reduceCtorEq, false_or, Job.replace.injEq, List.not_mem_nil,
        or_false] at member
      rcases member with ⟨rfl, rfl⟩ | ⟨rfl, rfl⟩
      · exact fits.1
      · exact fits.2
    | false =>
      dsimp only [Store.plan] at planned
      cases first : store.decides state .execution elUrl false with
      | error => rw [first] at planned; cases planned
      | ok wantsExecution =>
        cases second : store.decides state .consensus clUrl false with
        | error => rw [first, second] at planned; cases planned
        | ok wantsConsensus =>
          rw [first, second] at planned
          cases planned
          rcases List.mem_append.mp member with here | here
          · obtain ⟨rfl, rfl⟩ := mem_restoreLayer here
            exact fits.1
          · obtain ⟨rfl, rfl⟩ := mem_restoreLayer here
            exact fits.2
  | consensusOnly own force =>
    dsimp only [Store.plan] at planned
    cases first : store.decides state .consensus own force with
    | error => rw [first] at planned; cases planned
    | ok wanted =>
      rw [first] at planned
      cases planned
      obtain ⟨rfl, rfl⟩ := mem_restoreLayer member
      exact fits

theorem sound_start (sound : store.Sound state) {command : Command} (fits : store.FitsAll command) :
    store.Sound (store.step state (.start command)).1 := by
  unfold Store.step
  dsimp only
  cases planned : store.plan state command with
  | error error => exact sound_drop sound fun _ member => by cases member
  | ok jobs =>
    exact ⟨sound.honest, fun layer url member => fits_plan fits planned member,
      fun _ _ _ _ => trivial⟩

/-- Deleting the marker first, or anything once it is gone, leaves an honest directory. -/
theorem sound_delete (sound : store.Sound state) (stage : state.stage = .clear) {path : Text}
    (careful : path ≠ snapshotVersionFile → state.execution snapshotVersionFile = none) :
    store.Sound { state with execution := Function.update state.execution path none } := by
  have honest : store.Honest .execution (Function.update state.execution path none) := by
    refine honest_of_none ?_
    by_cases same : path = snapshotVersionFile
    · rw [same, Function.update_self]
    · rw [Function.update_of_ne (Ne.symm same)]
      exact careful same
  have put := @sound_put store state .execution _ sound state.jobs state.stage (fun _ => id) honest
  refine put fun other url' rest' same => ?_
  rw [stage]
  trivial

theorem sound_write {rest : List Job} (sound : store.Sound state)
    (here : state.jobs = .replace layer url :: rest) (stage : state.stage = .extract) {path : Text}
    (member : path ∈ (store.archiveOf url).map Prod.fst) (bytes : List Byte) :
    store.Sound { state.put layer (Function.update (state.directory layer) path (some bytes))
      with jobs := state.jobs, stage := state.stage } := by
  have fits := sound.fits layer url (here ▸ List.mem_cons_self)
  have ne : snapshotVersionFile ≠ path := fun same => marker_not_mem fits (same ▸ member)
  obtain ⟨missing, only⟩ : store.Reached layer url (state.directory layer) .extract :=
    stage ▸ sound.reached layer url rest here
  have still := (Function.update_of_ne ne (some bytes) (state.directory layer)).trans missing
  refine sound_put sound (fun _ => id) (honest_of_none still) fun other url' rest' same => ?_
  rw [here] at same
  cases same
  rw [directory_put_self, stage]
  refine ⟨still, fun executes other absent => ?_⟩
  rw [Function.update_of_ne (ne_of_mem_of_not_mem member absent).symm]
  exact only executes other absent

theorem put_jobs_stage (state : Restore) (layer : Layer) (directory : Directory) :
    { state.put layer directory with jobs := state.jobs, stage := state.stage } =
      state.put layer directory := by
  cases layer <;> rfl

theorem sound_operation (sound : store.Sound state) {operation : Operation}
    (careful : store.Careful state operation) : store.Sound (store.step state operation).1 := by
  cases operation with
  | start command => exact sound_start sound careful
  | fail => exact sound_drop sound fun _ member => by cases member
  | proceed =>
    obtain ⟨execution, consensus, jobs, stage⟩ := state
    cases jobs with
    | nil => exact sound
    | cons job rest =>
      cases job with
      | download url | removeStaging =>
        exact sound_drop sound fun _ member => List.mem_cons_of_mem _ member
      | replace layer url => exact sound_advance sound rfl
  | delete path =>
    obtain ⟨execution, consensus, jobs, stage⟩ := state
    cases jobs with
    | nil => exact sound
    | cons job rest =>
      cases job with
      | download | removeStaging => exact sound
      | replace layer url =>
        cases layer with
        | consensus => exact sound
        | execution =>
          cases stage with
          | clear => exact sound_delete sound rfl careful
          | extract | createMarker | fillMarker => exact sound
  | write path bytes =>
    obtain ⟨execution, consensus, jobs, stage⟩ := state
    cases jobs with
    | nil => exact sound
    | cons job rest =>
      cases job with
      | download | removeStaging => exact sound
      | replace layer url =>
        cases stage with
        | clear | createMarker | fillMarker => exact sound
        | extract =>
          unfold Store.step
          dsimp only
          split_ifs with member
          · have written := sound_write sound rfl rfl member bytes
            rw [put_jobs_stage] at written
            exact written
          · exact sound

end Sound

/-! ### The files of the operator -/

section Operator

variable {store} {state : Restore} {layer : Layer} {url path : Text} {directory : Directory}

/-- Replacing a layer leaves the other files of the consensus directory alone. -/
theorem consensus_advance {rest : List Job} (fits : store.Fits layer url) (notStore : path ≠ storeDb)
    (notMarker : path ≠ snapshotVersionFile) :
    (store.advance state layer url rest).consensus path = state.consensus path := by
  cases layer with
  | execution => unfold Store.advance; cases state.stage <;> rfl
  | consensus =>
    unfold Store.advance
    cases state.stage with
    | clear => exact Function.update_of_ne notMarker none state.consensus
    | extract =>
      refine unpack_of_not_mem ?_
      rw [fits.2, List.mem_singleton]
      exact notStore
    | createMarker => exact Function.update_of_ne notMarker (some []) state.consensus
    | fillMarker => exact Function.update_of_ne notMarker (some (urlIdentity url)) state.consensus

theorem consensus_step (sound : store.Sound state) (notStore : path ≠ storeDb)
    (notMarker : path ≠ snapshotVersionFile) (operation : Operation) :
    (store.step state operation).1.consensus path = state.consensus path := by
  obtain ⟨execution, consensus, jobs, stage⟩ := state
  cases operation with
  | start command =>
    unfold Store.step
    dsimp only
    cases store.plan ⟨execution, consensus, jobs, stage⟩ command <;> rfl
  | fail => rfl
  | proceed =>
    cases jobs with
    | nil => rfl
    | cons job rest =>
      cases job with
      | download | removeStaging => rfl
      | replace layer url =>
        exact consensus_advance (sound.fits layer url List.mem_cons_self) notStore notMarker
  | delete gone =>
    cases jobs with
    | nil => rfl
    | cons job rest =>
      cases job with
      | download | removeStaging => rfl
      | replace layer url => cases layer <;> cases stage <;> rfl
  | write written bytes =>
    cases jobs with
    | nil => rfl
    | cons job rest =>
      cases job with
      | download | removeStaging => rfl
      | replace layer url =>
        cases stage with
        | clear | createMarker | fillMarker => rfl
        | extract =>
          unfold Store.step
          dsimp only
          split_ifs with member
          · cases layer with
            | execution => rfl
            | consensus =>
              rw [(sound.fits .consensus url List.mem_cons_self).2, List.mem_singleton] at member
              exact Function.update_of_ne (fun same => notStore (same.trans member)) ..
          · rfl

theorem run_idle {later : List Operation} (idle : state.jobs = [])
    (same : ∀ command, Operation.start command ∉ later) :
    (run store.step state later).execution = state.execution ∧
      (run store.step state later).consensus = state.consensus := by
  induction later generalizing state with
  | nil => exact ⟨rfl, rfl⟩
  | cons operation rest ih =>
    have stays : (store.step state operation).1.execution = state.execution ∧
        (store.step state operation).1.consensus = state.consensus ∧
        (store.step state operation).1.jobs = [] := by
      obtain ⟨execution, consensus, jobs, stage⟩ := state
      obtain rfl : jobs = [] := idle
      cases operation with
      | start command => exact absurd List.mem_cons_self (same command)
      | proceed | delete | write | fail => exact ⟨rfl, rfl, rfl⟩
    obtain ⟨first, second⟩ := ih stays.2.2 fun command member =>
      same command (List.mem_cons_of_mem _ member)
    exact ⟨first.trans stays.1, second.trans stays.2.1⟩

/-- Data in a layer's directory that no restore recorded. -/
def Store.Unrecorded (store : Store) (state : Restore) (layer : Layer) : Prop :=
  layer.snapshotExists (state.directory layer) = true ∧
    store.readMarker (state.directory layer) = none

def Command.Forced : Command → Prop
  | .both _ _ force | .consensusOnly _ force => force = true

def Command.layers : Command → List Layer
  | .both _ _ _ => [.execution, .consensus]
  | .consensusOnly _ _ => [.consensus]

theorem decides_unrecorded (unrecorded : store.Unrecorded state layer) :
    store.decides state layer url false = .error (.unrecorded layer) := by
  unfold Store.decides Store.shouldDownload
  rw [unrecorded.1, unrecorded.2]
  rfl

/-- **Without force a run stops before data that no restore recorded**, in either layer. -/
theorem plan_unrecorded (unforced : ¬ command.Forced)
    (replaced : layer ∈ command.layers) (unrecorded : store.Unrecorded state layer) :
    ∃ error, store.plan state command = .error error := by
  cases command with
  | consensusOnly url force =>
    obtain rfl : force = false := Bool.eq_false_iff.mpr unforced
    obtain rfl := List.mem_singleton.mp replaced
    exact ⟨_, by dsimp only [Store.plan]; rw [decides_unrecorded unrecorded]; rfl⟩
  | both elUrl clUrl force =>
    obtain rfl : force = false := Bool.eq_false_iff.mpr unforced
    dsimp only [Store.plan]
    cases layer with
    | execution => exact ⟨_, by rw [decides_unrecorded unrecorded]; rfl⟩
    | consensus =>
      cases store.decides state .execution elUrl false with
      | error error => exact ⟨error, rfl⟩
      | ok wanted => exact ⟨_, by rw [decides_unrecorded unrecorded]; rfl⟩

theorem run_unrecorded (unforced : ¬ command.Forced)
    (replaced : layer ∈ command.layers) (unrecorded : store.Unrecorded state layer)
    {later : List Operation} (same : ∀ command, Operation.start command ∉ later) :
    (run store.step state (.start command :: later)).execution = state.execution ∧
      (run store.step state (.start command :: later)).consensus = state.consensus := by
  obtain ⟨error, stopped⟩ := plan_unrecorded unforced replaced unrecorded
  have stops : (store.step state (.start command)).1 = { state with jobs := [], stage := .clear } := by
    unfold Store.step
    dsimp only
    rw [stopped]
  rw [run, stops]
  exact @run_idle store { state with jobs := [], stage := .clear } later rfl same

end Operator

/-! ### Every history -/

section Honest

variable {store} {state : Restore} {layer : Layer} {url : Text} {directory : Directory}

theorem recorded_of_identity {other : Text} (same : urlIdentity url = urlIdentity other)
    (recorded : store.Recorded layer directory other) : store.Recorded layer directory url := by
  unfold Store.Recorded Store.archiveOf at recorded ⊢
  rw [same]
  exact recorded

theorem recorded_of_marker (honest : store.Honest layer directory) (named : urlIdentity url ≠ [])
    (marked : directory snapshotVersionFile = some (urlIdentity url)) :
    store.Recorded layer directory url := by
  rcases honest _ marked with empty | ⟨other, same, _, recorded⟩
  · exact absurd empty named
  · exact recorded_of_identity same recorded

/-- A layer is skipped only where its directory holds the snapshot. -/
theorem recorded_of_skipped (honest : store.Honest layer directory) (named : urlIdentity url ≠ [])
    {«exists» force : Bool}
    (skipped : store.shouldDownload layer directory url «exists» force = .ok false) :
    store.Recorded layer directory url := by
  unfold Store.shouldDownload at skipped
  split_ifs at skipped
  · cases skipped
  cases read : store.readMarker directory with
  | none =>
    rw [read] at skipped
    cases skipped
  | some saved =>
    rw [read] at skipped
    have trimmed : store.trim saved = urlIdentity url := by
      have decided := Except.ok.inj skipped
      rw [decide_eq_false_iff_not, not_not] at decided
      exact decided
    have marked : directory snapshotVersionFile = some saved :=
      (Option.filter_eq_some_iff.mp read).1
    rcases honest saved marked with rfl | ⟨other, same, fixed, recorded⟩
    · rw [store.trim_nil] at trimmed
      exact absurd trimmed.symm named
    · rw [fixed] at trimmed
      exact recorded_of_identity (trimmed.symm.trans same) recorded

end Honest

/-- **Markers are honest.** In every history of careful steps from directories with honest markers,
at every point: a marker stands beside the complete snapshot it names, a layer is skipped only where
that snapshot is, an unforced run leaves both directories alone when one of its layers holds data no
restore recorded, and the consensus directory still has every other file it started with. -/
theorem markers_honest {start : Restore} (idle : start.jobs = [])
    (begins : ∀ layer, store.Honest layer (start.directory layer)) {operations : List Operation}
    (careful : Along store.step store.Careful start operations) :
    (∀ layer url, urlIdentity url ≠ [] →
      ((run store.step start operations).directory layer snapshotVersionFile =
          some (urlIdentity url) ∨
        ∃ force, store.decides (run store.step start operations) layer url force = .ok false) →
      store.Recorded layer ((run store.step start operations).directory layer) url) ∧
    (∀ (command : Command) layer later, ¬ command.Forced → layer ∈ command.layers →
      store.Unrecorded (run store.step start operations) layer →
      (∀ other, Operation.start other ∉ later) → ∀ target,
      (run store.step (run store.step start operations) (.start command :: later)).directory target =
        (run store.step start operations).directory target) ∧
    ∀ path, path ≠ storeDb → path ≠ snapshotVersionFile →
      (run store.step start operations).consensus path = start.consensus path := by
  have sound : store.Sound start := by
    refine ⟨begins, fun layer url member => ?_, fun layer url rest here => ?_⟩
    · rw [idle] at member
      cases member
    · rw [idle] at here
      cases here
  have final : store.Sound (run store.step start operations) ∧
      ∀ path, path ≠ storeDb → path ≠ snapshotVersionFile →
        (run store.step start operations).consensus path = start.consensus path :=
    @run_invariant _ _ _ store.step
      (fun state => store.Sound state ∧ ∀ path, path ≠ storeDb → path ≠ snapshotVersionFile →
        state.consensus path = start.consensus path) store.Careful
      (fun state operation holds here => ⟨sound_operation holds.1 here,
        fun path notStore notMarker =>
          (consensus_step holds.1 notStore notMarker operation).trans
            (holds.2 path notStore notMarker)⟩)
      start operations ⟨sound, fun _ _ _ => rfl⟩ careful
  refine ⟨fun layer url named shown => ?_, ?_, final.2⟩
  · rcases shown with marked | ⟨force, skipped⟩
    · exact recorded_of_marker (final.1.honest layer) named marked
    · exact recorded_of_skipped (final.1.honest layer) named skipped
  · intro command layer later unforced replaced unrecorded same target
    obtain ⟨first, second⟩ := run_unrecorded unforced replaced unrecorded same
    cases target with
    | execution => exact first
    | consensus => exact second

/-! ### A snapshot of two files -/

/-- `static_files/0` stands for the files beside the state database. -/
def staticFile : Text := ascii ['s', 't', 'a', 't', 'i', 'c', '_', 'f', 'i', 'l', 'e', 's', '/', '0']

def consensusUrl : Text := ascii ['c']
def oldUrl : Text := ascii ['o']
def newUrl : Text := ascii ['n']

/-- Every snapshot of the execution layer has two files, that of the consensus layer one. -/
def sampleStore : Store where
  archive identity :=
    if identity = consensusUrl then [(storeDb, [9])]
    else [(mdbxDat, identity), (staticFile, identity)]
  trim := id
  isUtf8 := fun _ => true
  trim_nil := rfl

/-- The consensus directory holds the validator's key before anything is restored. -/
def freshNode : Restore where
  execution := fun _ => none
  consensus := Function.update (fun _ => none) (ascii ['k']) (some [1])
  jobs := []
  stage := .clear

def fullRestore (url : Text) (force : Bool) : List Operation :=
  .start (.both url consensusUrl force) :: List.replicate 12 .proceed

/-- The old snapshot is restored, then a newer one is begun and killed inside the removal, the
marker being deleted first. -/
theorem markers_honest_killed :
    sampleStore.Recorded .consensus (run sampleStore.step freshNode (fullRestore oldUrl false ++
      [.start (.both newUrl consensusUrl false), .proceed, .delete snapshotVersionFile,
        .delete mdbxDat])).consensus consensusUrl :=
  (@markers_honest sampleStore freshNode rfl
    (fun layer saved found => by cases layer <;> cases found) _
    (by decide +kernel)).1 .consensus consensusUrl (by decide) (.inl (by decide +kernel))

/-- **A removal that is killed leaves a lying marker**: the same run with a file of the old snapshot
deleted before the marker, and `shouldDownload` finds the old snapshot up to date. -/
theorem torn_removal :
    let state := run sampleStore.step freshNode (fullRestore oldUrl false ++
      [.start (.both newUrl consensusUrl false), .proceed, .delete staticFile])
    state.execution snapshotVersionFile = some (urlIdentity oldUrl) ∧
      state.execution staticFile = none ∧
      (sampleStore.archiveOf oldUrl).files staticFile ≠ none ∧
      sampleStore.decides state .execution oldUrl false = .ok false := by
  decide +kernel

end ArcNode.Snapshots
