import BlobStore.SaveTrace

set_option autoImplicit false

namespace BlobStore

open Effects FileSystem WorkerService

def Touches (fs : FileSystem) (call : WorkerCall) (location : Location) : Prop :=
  match call with
  | .file (.openTrunc path) => fs.resolve path = some location
  | .file (.append path _) => fs.resolve path = some location
  | .file (.remove path) => fs.resolve path = some location
  | _ => False

inductive FileChange (call : FileCall) (fs : FileSystem) : FileSystem → Prop where
  | kept : FileChange call fs fs
  | made (after : FileSystem) (cwd : after.cwd = fs.cwd)
      (grown : ∀ location node, fs.node location = some node → after.node location = some node) :
        FileChange call fs after
  | wrote (location : Location) (bytes : Bytes) (touches : Touches fs (.file call) location)
      (free : fs.node location ≠ some .directory) : FileChange call fs (fs.put location (.file bytes))
  | removed (location : Location) (touches : Touches fs (.file call) location)
      (bare : fs.node location = some .directory → fs.hasChildren location = false) :
        FileChange call fs (fs.erase location)

theorem file_change (call : FileCall) (choice : FileChoice) (fs : FileSystem) :
    FileChange call fs (fileSem call choice fs).2 := by
  cases call with
  | createDirectories path =>
      simp only [fileSem]
      cases choice.failure with
      | some reason => exact .kept
      | none =>
          cases made : fs.makeDirectories (if isAbsolute path then [] else fs.cwd) (components path) with
          | none => exact .kept
          | some after =>
              obtain ⟨cwd, grown⟩ := make_directories_grows _ _ _ _ made
              exact .made after cwd grown
  | openTrunc path =>
      simp only [fileSem]
      cases choice.failure with
      | some reason => exact .kept
      | none =>
          cases resolved : fs.resolve path with
          | none => exact .kept
          | some location =>
              dsimp only
              split
              · exact .kept
              · rename_i free
                exact .wrote location [] resolved free
  | append path chunk =>
      simp only [fileSem]
      cases choice.failure with
      | some reason => exact .kept
      | none =>
          cases resolved : fs.resolve path with
          | none => exact .kept
          | some location =>
              dsimp only
              cases there : fs.node location with
              | none => exact .wrote location _ resolved (by simp [there])
              | some node =>
                  cases node with
                  | directory => exact .kept
                  | file old => exact .wrote location _ resolved (by simp [there])
  | remove path =>
      simp only [fileSem]
      cases choice.failure with
      | some reason => exact .kept
      | none =>
          cases resolved : fs.resolve path with
          | none => exact .kept
          | some location =>
              dsimp only
              cases there : fs.node location with
              | none => exact .kept
              | some node =>
                  cases node with
                  | file old => exact .removed location resolved (by simp [there])
                  | directory =>
                      dsimp only
                      split
                      · exact .kept
                      · split
                        · exact .kept
                        · rename_i bare
                          exact .removed location resolved (fun _ => by simpa using bare)
  | fileExists path => simp only [fileSem]; cases choice.failure <;> exact .kept
  | fileSize path =>
      simp only [fileSem]
      split <;> exact .kept
  | openRead path => exact .kept
  | read path offset count => exact .kept
  | space path =>
      simp only [fileSem]
      cases choice.failure with
      | some reason => exact .kept
      | none => dsimp only; split <;> exact .kept

def OpenFile (fs : FileSystem) (name : String) (bytes : Bytes) : Prop :=
  HasBlobs fs ∧ fs.node (blobLocation fs name) = some (.file bytes)

theorem has_child (fs : FileSystem) (name : String) (bytes : Bytes)
    (there : fs.node (blobLocation fs name) = some (.file bytes)) :
    fs.hasChildren (fs.cwd ++ ["blobs"]) = true := by
  rw [hasChildren, decide_eq_true_eq]
  refine ⟨blobLocation fs name, ?_, by simp [blobLocation], ?_⟩
  · rw [Finmap.mem_keys]
    exact Finmap.mem_of_lookup_eq_some there
  · have split : blobLocation fs name = (fs.cwd ++ ["blobs"]) ++ [name] := by simp [blobLocation]
    rw [split, List.dropLast_concat]

theorem open_file_kept (call : WorkerCall) (choice : WorkerChoice) (fs : FileSystem) (name : String)
    (bytes : Bytes) (isOpen : OpenFile fs name bytes)
    (untouched : ¬ Touches fs call (blobLocation fs name)) :
    OpenFile (workerSem call choice fs).2 name bytes := by
  cases call with
  | write chunk => exact isOpen
  | notifyBlobSaved request => exact isOpen
  | file call =>
      obtain ⟨blobs, there⟩ := isOpen
      have change := file_change call choice.file fs
      show OpenFile (fileSem call choice.file fs).2 name bytes
      generalize (fileSem call choice.file fs).2 = after at change ⊢
      have apart : fs.cwd ++ ["blobs"] ≠ blobLocation fs name := blobs_elsewhere fs name
      cases change with
      | kept => exact ⟨blobs, there⟩
      | made _ cwd grown =>
          rw [OpenFile, HasBlobs, blobLocation, cwd]
          exact ⟨grown _ _ blobs, grown _ _ there⟩
      | wrote location content touches free =>
          have directory : fs.cwd ++ ["blobs"] ≠ location := fun same => free (same ▸ blobs)
          have file : blobLocation fs name ≠ location := fun same => untouched (same ▸ touches)
          constructor
          · rw [HasBlobs, put_cwd, node_put, if_neg directory]
            exact blobs
          · show (fs.put location (.file content)).node (blobLocation fs name) = some (.file bytes)
            rw [node_put, if_neg file]
            exact there
      | removed location touches bare =>
          have directory : fs.cwd ++ ["blobs"] ≠ location := by
            intro same
            subst same
            have children := bare blobs
            rw [has_child fs name bytes there] at children
            cases children
          have file : blobLocation fs name ≠ location := fun same => untouched (same ▸ touches)
          constructor
          · rw [HasBlobs, erase_cwd, node_erase, if_neg directory]
            exact blobs
          · show (fs.erase location).node (blobLocation fs name) = some (.file bytes)
            rw [node_erase, if_neg file]
            exact there

-- The blobs directory is never opened as a file, whatever there is in its place.
theorem no_directory_opens (choice : FileChoice) (fs : FileSystem) :
    NoDirectoryOpens (fun call => (fileSem call choice fs).1) := by
  have path : joinPath "blobs" "" = "blobs/" := by decide
  have relative : isAbsolute "blobs/" = false := by decide
  have parts : components "blobs/" = ["blobs", ""] := by decide
  rw [NoDirectoryOpens, path]
  simp only [fileSem]
  cases choice.failure with
  | some reason => rfl
  | none =>
      have resolved : fs.resolve "blobs/" =
          if fs.node (fs.cwd ++ ["blobs"]) = some .directory then some (fs.cwd ++ ["blobs"]) else none := by
        rw [resolve, relative, parts]
        simp [walk]
      by_cases directory : fs.node (fs.cwd ++ ["blobs"]) = some .directory
      · rw [resolved, if_pos directory]
        simp [directory]
      · rw [resolved, if_neg directory]

theorem open_file_put (fs : FileSystem) (name : String) (bytes : Bytes) (blobs : HasBlobs fs) :
    OpenFile (fs.put (blobLocation fs name) (.file bytes)) name bytes := by
  constructor
  · rw [HasBlobs, put_cwd, node_put, if_neg (blobs_elsewhere fs name)]
    exact blobs
  · show (fs.put (blobLocation fs name) (.file bytes)).node (blobLocation fs name) = some (.file bytes)
    rw [node_put, if_pos rfl]

theorem trunc_reply (choice : FileChoice) (fs : FileSystem) (path : String) :
    fileSem (.openTrunc path) choice fs = (false, fs) ∨
      ∃ location, fs.resolve path = some location ∧
          fileSem (.openTrunc path) choice fs = (true, fs.put location (.file [])) := by
  simp only [fileSem]
  cases choice.failure with
  | some reason => exact .inl rfl
  | none =>
      cases resolved : fs.resolve path with
      | none => exact .inl rfl
      | some location =>
          dsimp only
          split
          · exact .inl rfl
          · exact .inr ⟨location, rfl, rfl⟩

theorem append_reply (choice : FileChoice) (whole : WholeWrites choice) (fs : FileSystem)
    (path : String) (chunk : Bytes) :
    fileSem (.append path chunk) choice fs = (false, fs) ∨
      ∃ location, fs.resolve path = some location ∧ fileSem (.append path chunk) choice fs =
        (true, fs.put location
          (.file (match fs.node location with | some (.file old) => old ++ chunk | _ => chunk))) := by
  have written := written_whole whole chunk
  simp only [fileSem]
  cases choice.failure with
  | some reason => exact .inl rfl
  | none =>
      cases resolved : fs.resolve path with
      | none => exact .inl rfl
      | some location =>
          dsimp only
          cases there : fs.node location with
          | none => exact .inr ⟨location, rfl, by simp only [there, written]⟩
          | some node =>
              cases node with
              | directory => exact .inl rfl
              | file old => exact .inr ⟨location, rfl, by simp only [there, written]⟩

theorem own_file_kept (X : Xxh64) (messages : List SaveBlobRequest) (matching : Matching X messages)
    (call : WorkerCall)
    (effect : ReceivingCall X messages call ∨ ∃ request, call = .notifyBlobSaved request)
    (choice : WorkerChoice) (whole : WholeWrites choice.file) (fs : FileSystem) (log : WorkerLog)
    (now : ∀ bytes, received log = some bytes → OpenFile fs (firstName messages) bytes) :
    ∀ bytes, received (logWorker call (workerSem call choice fs).1 log) = some bytes →
      OpenFile (workerSem call choice fs).2 (firstName messages) bytes := by
  have ordinary : OrdinaryName (firstName messages) := by
    rw [show firstName messages = _ from matching]
    exact blob_hash_ordinary X _
  have path : joinPath "blobs" (firstName messages) = "blobs/" ++ firstName messages := join_blob _ ordinary
  intro bytes held
  rw [logWorker, received_snoc] at held
  cases call with
  | write chunk => exact now bytes held
  | notifyBlobSaved request => exact now bytes held
  | file call =>
      have permitted : ReceivingCall X messages (.file call) := effect.resolve_right (by simp)
      have quiet : receivedStep (received log)
          ⟨.file call, (workerSem (.file call) choice fs).1⟩ = received log →
          (∀ location, ¬ Touches fs (.file call) location) →
            OpenFile (workerSem (.file call) choice fs).2 (firstName messages) bytes := by
        intro same untouched
        rw [same] at held
        exact open_file_kept _ choice fs _ bytes (now bytes held) (untouched _)
      cases call with
      | createDirectories path => exact quiet rfl (fun _ touched => touched)
      | fileExists path => exact quiet rfl (fun _ touched => touched)
      | fileSize path => exact quiet rfl (fun _ touched => touched)
      | openRead path => exact quiet rfl (fun _ touched => touched)
      | read path offset count => exact quiet rfl (fun _ touched => touched)
      | space path => exact quiet rfl (fun _ touched => touched)
      | remove path => exact absurd matching permitted
      | openTrunc opened =>
          obtain rfl : opened = "blobs/" ++ firstName messages := permitted.trans path
          cases trunc_reply choice.file fs ("blobs/" ++ firstName messages) with
          | inl closed =>
              rw [workerSem, closed] at held ⊢
              exact now bytes held
          | inr opened =>
              obtain ⟨location, resolved, reply⟩ := opened
              obtain ⟨blobs, rfl⟩ := resolve_blob_inv fs _ ordinary location resolved
              rw [workerSem, reply] at held ⊢
              obtain rfl : [] = bytes := Option.some.inj held
              exact open_file_put fs _ _ blobs
      | append opened chunk =>
          obtain rfl : opened = "blobs/" ++ firstName messages := permitted.trans path
          cases append_reply choice.file whole fs ("blobs/" ++ firstName messages) chunk with
          | inl closed =>
              rw [workerSem, closed] at held ⊢
              exact now bytes held
          | inr opened =>
              obtain ⟨location, resolved, reply⟩ := opened
              obtain ⟨blobs, rfl⟩ := resolve_blob_inv fs _ ordinary location resolved
              rw [workerSem, reply] at held ⊢
              cases before : received log with
              | none =>
                  rw [before] at held
                  cases held
              | some old =>
                  rw [before] at held
                  obtain rfl : old ++ chunk = bytes := Option.some.inj held
                  rw [(now old before).2]
                  exact open_file_put fs _ _ blobs

section Pool

variable {ι : Type} [DecidableEq ι]

abbrev WorkerPool (ι : Type) := Pool ι WorkerCall WorkerReply (Except Thrown (Except Status Unit)) FileSystem

def savePool (X : Xxh64) (workerAddress : String) (calls : ι → List SaveBlobRequest)
    (fs : FileSystem) : WorkerPool ι :=
  Pool.start (fun proc => (WorkerService.saveBlob X workerAddress (calls proc)).run) fs

def notes (pool : WorkerPool ι) (proc : ι) : WorkerLog := noted logWorker [] pool.history proc

def Unfinished (pool : WorkerPool ι) (proc : ι) : Prop := ∀ result, pool.procs proc ≠ .pure result

omit [DecidableEq ι] in
theorem unfinished_call {pool : WorkerPool ι} {proc : ι} {call : WorkerCall}
    {next : WorkerReply call → Program WorkerCall WorkerReply (Except Thrown (Except Status Unit))}
    (shape : pool.procs proc = .call call next) : Unfinished pool proc := by
  intro result finished
  rw [shape] at finished
  cases finished

-- A call that has opened its file and may still notify the master.
def Saving (X : Xxh64) (messages : List SaveBlobRequest) (pool : WorkerPool ι) (proc : ι) : Prop :=
  Matching X messages ∧ received (notes pool proc) ≠ none ∧ Unfinished pool proc

def Undisturbed (X : Xxh64) (calls : ι → List SaveBlobRequest) (pool : WorkerPool ι)
    (turn : ι × WorkerChoice) : Prop :=
  WholeWrites turn.2.file ∧ ∀ call next, pool.procs turn.1 = .call call next →
    ∀ other, other ≠ turn.1 → Saving X (calls other) pool other →
      ¬ Touches pool.state call (blobLocation pool.state (firstName (calls other)))

def NotifiesOfItsFile (X : Xxh64) (calls : ι → List SaveBlobRequest)
    (step : Step ι WorkerCall WorkerReply FileSystem) : Prop :=
  ∀ request, step.event.effect = .notifyBlobSaved request →
    request.blobHash = firstName (calls step.proc) ∧
      step.before.content ("blobs/" ++ request.blobHash) = some (payload (calls step.proc)) ∧
      X.blobHash (payload (calls step.proc)) = request.blobHash

def FilesFollow (X : Xxh64) (calls : ι → List SaveBlobRequest) (pool : WorkerPool ι) : Prop :=
  ∀ proc, Matching X (calls proc) → Unfinished pool proc →
    ∀ bytes, received (notes pool proc) = some bytes → OpenFile pool.state (firstName (calls proc)) bytes

def SavesLocally (X : Xxh64) (workerAddress : String) (calls : ι → List SaveBlobRequest)
    (ok : ((call : WorkerCall) → WorkerReply call) → Prop) (pool : WorkerPool ι) : Prop :=
  ∀ proc, wp (alone logWorker) ok (pool.procs proc)
    (fun _ log => SaveTrace X workerAddress (calls proc) log) (notes pool proc)

variable {X : Xxh64} {workerAddress : String} {calls : ι → List SaveBlobRequest}

def Sane (replies : (call : WorkerCall) → WorkerReply call) : Prop :=
  NoDirectoryOpens (fun call => replies (.file call))

theorem replies_sane (choice : WorkerChoice) (fs : FileSystem) :
    Sane (fun call => (workerSem call choice fs).1) :=
  no_directory_opens choice.file fs

theorem saves_locally (fs : FileSystem) (schedule : List (ι × WorkerChoice)) :
    SavesLocally X workerAddress calls Sane ((savePool X workerAddress calls fs).run workerSem schedule) := by
  refine Pool.local_holds workerSem Sane []
    (fun proc _ log => SaveTrace X workerAddress (calls proc) log) _ fs schedule ?_ ?_
  · exact fun proc => save_trace X workerAddress (calls proc) Sane (fun _ sane => sane)
  · exact Pool.along_of_prefixes workerSem _ _ schedule (fun early turn _ _ => replies_sane turn.2 _)

theorem save_trace_prefix {messages : List SaveBlobRequest} (call : WorkerCall)
    (reply : WorkerReply call) (log : WorkerLog)
    (trace : SaveTrace X workerAddress messages (logWorker call reply log)) :
    SaveTrace X workerAddress messages log := by
  refine ⟨fun event member => trace.receiving event (List.mem_append_left _ member), ?_⟩
  intro early request answered late split
  refine trace.verified early request answered (late ++ [⟨call, reply⟩]) ?_
  rw [logWorker, split, List.append_assoc, List.cons_append]

theorem next_trace (pool : WorkerPool ι) (locally : SavesLocally X workerAddress calls Sane pool)
    (turn : ι × WorkerChoice) (call : WorkerCall)
    (next : WorkerReply call → Program WorkerCall WorkerReply (Except Thrown (Except Status Unit)))
    (shape : pool.procs turn.1 = .call call next) :
    SaveTrace X workerAddress (calls turn.1)
      (logWorker call (workerSem call turn.2 pool.state).1 (notes pool turn.1)) := by
  have replies := replies_sane turn.2 pool.state
  have mine := locally turn.1
  rw [shape] at mine
  exact alone_now Sane (SaveTrace X workerAddress (calls turn.1)) save_trace_prefix _ replies _ _
    (fun _ _ trace => trace) _ (mine _ replies)

theorem files_follow_step (pool : WorkerPool ι)
    (locally : SavesLocally X workerAddress calls Sane pool) (turn : ι × WorkerChoice)
    (undisturbed : Undisturbed X calls pool turn) (follow : FilesFollow X calls pool) :
    FilesFollow X calls (pool.step workerSem turn) := by
  cases Pool.step_cases workerSem pool turn with
  | inl idle =>
      rw [idle.1]
      exact follow
  | inr active =>
      obtain ⟨call, next, shape, stepped⟩ := active
      have trace := next_trace pool locally turn call next shape
      rw [stepped]
      intro proc matching unfinished bytes held
      rw [notes, noted_snoc] at held
      by_cases same : turn.1 = proc
      · subst same
        rw [if_pos rfl] at held
        have effect := trace.receiving ⟨call, _⟩ (List.mem_append_right _ (List.mem_singleton.mpr rfl))
        exact own_file_kept X (calls turn.1) matching call effect turn.2 undisturbed.1
          pool.state (notes pool turn.1)
          (follow turn.1 matching (unfinished_call shape)) bytes held
      · rw [if_neg same] at held
        have other : proc ≠ turn.1 := fun equal => same equal.symm
        have waiting : Unfinished pool proc := by
          intro result finished
          exact unfinished result ((Function.update_of_ne other _ _).trans finished)
        have saving : Saving X (calls proc) pool proc := ⟨matching, by simp [notes, held], waiting⟩
        exact open_file_kept call turn.2 pool.state _ bytes (follow proc matching waiting bytes held)
          (undisturbed.2 call next shape proc other saving)

theorem notified_step (pool : WorkerPool ι) (locally : SavesLocally X workerAddress calls Sane pool)
    (turn : ι × WorkerChoice) (follow : FilesFollow X calls pool)
    (notified : ∀ step ∈ pool.history, NotifiesOfItsFile X calls step) :
    ∀ step ∈ (pool.step workerSem turn).history, NotifiesOfItsFile X calls step := by
  cases Pool.step_cases workerSem pool turn with
  | inl idle =>
      rw [idle.1]
      exact notified
  | inr active =>
      obtain ⟨call, next, shape, stepped⟩ := active
      have trace := next_trace pool locally turn call next shape
      rw [stepped]
      intro step member
      cases List.mem_append.mp member with
      | inl earlier => exact notified step earlier
      | inr last =>
          obtain rfl := List.mem_singleton.mp last
          intro request notifies
          obtain rfl : call = .notifyBlobSaved request := notifies
          obtain ⟨rfl, matching, bytes⟩ := trace.verified (notes pool turn.1) request _ [] rfl
          have ordinary : OrdinaryName (firstName (calls turn.1)) := by
            rw [show firstName (calls turn.1) = _ from matching]
            exact blob_hash_ordinary X _
          obtain ⟨blobs, there⟩ := follow turn.1 matching (unfinished_call shape) _ bytes
          refine ⟨rfl, ?_, matching.symm⟩
          rw [FileSystem.content, FileSystem.lookup, resolve_blob _ blobs _ ordinary, Option.bind_some, there]

theorem saves_keep_their_files (X : Xxh64) (workerAddress : String)
    (calls : ι → List SaveBlobRequest) (fs : FileSystem) (schedule : List (ι × WorkerChoice))
    (undisturbed : Pool.Along workerSem (Undisturbed X calls)
      (savePool X workerAddress calls fs) schedule) :
    ∀ step ∈ ((savePool X workerAddress calls fs).run workerSem schedule).history,
        NotifiesOfItsFile X calls step := by
  have kept := Pool.run_holds workerSem
    (fun pool => FilesFollow X calls pool ∧ ∀ step ∈ pool.history, NotifiesOfItsFile X calls step)
    (fun pool turn => Undisturbed X calls pool turn ∧ SavesLocally X workerAddress calls Sane pool) ?_
    (savePool X workerAddress calls fs) schedule ?_ ?_
  · exact kept.2
  · intro pool turn now conditions
    exact ⟨files_follow_step pool conditions.2 turn conditions.1 now.1,
      notified_step pool conditions.2 turn now.1 now.2⟩
  · constructor
    · intro proc _ _ bytes held
      cases held
    · intro step member
      cases member
  · exact Pool.along_and workerSem _ _ _ schedule undisturbed
      (Pool.along_of_prefixes workerSem _ _ schedule (fun early _ _ _ => saves_locally fs early))

end Pool

def sameBlobTwice (_ : Bool) : List SaveBlobRequest := [⟨"15154266338359012955", [97]⟩]

def twoSaves : WorkerPool Bool := savePool referenceXxh64 "worker-0" sameBlobTwice freshWorker

def saveTurns (calls : List Bool) : List (Bool × WorkerChoice) := calls.map (fun call => (call, {}))

def hasReturned (pool : WorkerPool Bool) (call : Bool) : Bool :=
  match pool.procs call with
  | .pure _ => true
  | .call _ _ => false

theorem returned_not_saving (pool : WorkerPool Bool) (call : Bool) (returned : hasReturned pool call = true) :
    ¬ Saving referenceXxh64 (sameBlobTwice call) pool call := by
  intro saving
  unfold hasReturned at returned
  cases shape : pool.procs call with
  | pure result => exact saving.2.2 result shape
  | call effect next =>
      rw [shape] at returned
      cases returned

theorem unopened_not_saving (pool : WorkerPool Bool) (call : Bool)
    (unopened : received (notes pool call) = none) :
    ¬ Saving referenceXxh64 (sameBlobTwice call) pool call := fun saving => saving.2.1 unopened

theorem alone_undisturbed (pool : WorkerPool Bool) (call : Bool)
    (other : ¬ Saving referenceXxh64 (sameBlobTwice !call) pool (!call)) :
    Undisturbed referenceXxh64 sameBlobTwice pool (call, {}) := by
  constructor
  · intro count short
    cases short
  · intro effect next _ another different saving
    obtain rfl : another = !call := Bool.eq_not.mpr different
    exact absurd saving other

def notifies (step : Step Bool WorkerCall WorkerReply FileSystem) : Bool :=
  match step.event.effect with
  | .notifyBlobSaved _ => true
  | _ => false

theorem saves_keep_their_files_in_turn :
    let history :=
      (twoSaves.run workerSem
        (saveTurns [false, false, false, false, true, true, true, true])).history
    (history.filter notifies).map Step.proc = [false, true] ∧
      ∀ step ∈ history, NotifiesOfItsFile referenceXxh64 sameBlobTwice step := by
  refine ⟨by decide +kernel, ?_⟩
  refine saves_keep_their_files referenceXxh64 "worker-0" sameBlobTwice freshWorker _
    ⟨?_, ?_, ?_, ?_, ?_, ?_, ?_, ?_, trivial⟩
  all_goals refine alone_undisturbed _ _ ?_
  · exact unopened_not_saving _ _ (by decide +kernel)
  · exact unopened_not_saving _ _ (by decide +kernel)
  · exact unopened_not_saving _ _ (by decide +kernel)
  · exact unopened_not_saving _ _ (by decide +kernel)
  · exact returned_not_saving _ _ (by decide +kernel)
  · exact returned_not_saving _ _ (by decide +kernel)
  · exact returned_not_saving _ _ (by decide +kernel)
  · exact returned_not_saving _ _ (by decide +kernel)

def clashes (step : Step Bool WorkerCall WorkerReply FileSystem) : Bool :=
  match step.event.effect with
  | .notifyBlobSaved request =>
      step.before.content ("blobs/" ++ request.blobHash) ≠ some (payload (sameBlobTwice step.proc))
  | _ => false

-- The second call truncates the file that the first one has written and is about to
-- notify the master of.
theorem concurrent_saves_lose_a_file :
    ¬ ∀ step ∈ (twoSaves.run workerSem (saveTurns [false, false, false, true, true, false])).history,
      NotifiesOfItsFile referenceXxh64 sameBlobTwice step := by
  intro kept
  have clash : (twoSaves.run workerSem
      (saveTurns [false, false, false, true, true, false])).history.any clashes = true := by
    decide +kernel
  obtain ⟨step, member, bad⟩ := List.any_eq_true.mp clash
  unfold clashes at bad
  have good := kept step member
  cases effect : step.event.effect with
  | notifyBlobSaved request =>
      rw [effect] at bad
      exact absurd (good request effect).2.1 (of_decide_eq_true bad)
  | file call =>
      rw [effect] at bad
      cases bad
  | write chunk =>
      rw [effect] at bad
      cases bad

end BlobStore
