import BlobStore.WorkerRuns
import BlobStore.Library.Local

set_option autoImplicit false

namespace BlobStore

open Effects FileSystem WorkerService

def logWorker (call : WorkerCall) (reply : WorkerReply call) (log : WorkerLog) : WorkerLog :=
  log ++ [⟨call, reply⟩]

abbrev logFile (call : FileCall) (reply : FileReply call) (log : WorkerLog) : WorkerLog :=
  logWorker (.file call) reply log

def receivedStep : Option Bytes → Event WorkerCall WorkerReply → Option Bytes
  | _, ⟨.file (.openTrunc _), true⟩ => some []
  | held, ⟨.file (.append _ chunk), true⟩ => held.map (· ++ chunk)
  | held, _ => held

def received (log : WorkerLog) : Option Bytes := log.foldl receivedStep none

theorem received_snoc (log : WorkerLog) (event : Event WorkerCall WorkerReply) :
    received (log ++ [event]) = receivedStep (received log) event := by
  simp only [received, List.foldl_append, List.foldl_cons, List.foldl_nil]

def Matching (X : Xxh64) (messages : List SaveBlobRequest) : Prop :=
  firstName messages = X.blobHash (payload messages)

def ReceivingCall (X : Xxh64) (messages : List SaveBlobRequest) : WorkerCall → Prop
  | .file (.openTrunc path) => path = joinPath "blobs" (firstName messages)
  | .file (.append path _) => path = joinPath "blobs" (firstName messages)
  | .file (.remove _) => ¬ Matching X messages
  | .file _ => True
  | _ => False

def ReceivingLog (X : Xxh64) (messages : List SaveBlobRequest) (log : WorkerLog) : Prop :=
  ∀ event ∈ log, ReceivingCall X messages event.effect

theorem receiving_snoc {X : Xxh64} {messages : List SaveBlobRequest} {log : WorkerLog}
    (receiving : ReceivingLog X messages log) (call : WorkerCall) (reply : WorkerReply call)
    (effect : ReceivingCall X messages call) :
    ReceivingLog X messages (logWorker call reply log) := by
  intro event member
  cases List.mem_append.mp member with
  | inl earlier => exact receiving event earlier
  | inr last =>
      obtain rfl := List.mem_singleton.mp last
      exact effect

-- The blobs directory itself cannot be opened as a file.
def NoDirectoryOpens (replies : (call : FileCall) → FileReply call) : Prop :=
  replies (.openTrunc (joinPath "blobs" "")) = false

section Receiving

variable {X : Xxh64} {messages : List SaveBlobRequest} {ok : ((call : FileCall) → FileReply call) → Prop}

theorem alone_open_truncate (path : String) (post : Except Thrown Bool → WorkerLog → Prop)
    (log : WorkerLog) (opened : ∀ replies, ok replies → replies (.openTrunc path) = true →
      post (.ok true) (logFile (.openTrunc path) true log))
    (closed : post (.ok false) (logFile (.openTrunc path) false log)) :
    wp (alone logFile) ok (openTruncate path).run post log := by
  rw [openTruncate, wp_run_perform]
  intro replies allowed
  dsimp only [alone]
  cases reply : replies (.openTrunc path) with
  | true => exact opened replies allowed reply
  | false => exact closed

theorem alone_append (path : String) (chunk : Bytes) (post : Except Thrown Bool → WorkerLog → Prop)
    (log : WorkerLog)
    (answered : ∀ isOpen, post (.ok isOpen) (logFile (.append path chunk) isOpen log)) :
    wp (alone logFile) ok (appendTo path chunk).run post log := by
  rw [appendTo, wp_run_perform]
  exact fun replies _ => answered (replies (.append path chunk))

theorem create_received (name : String) (same : name = firstName messages)
    (sane : ∀ replies, ok replies → NoDirectoryOpens replies) (log : WorkerLog)
    (receiving : ReceivingLog X messages log) :
    wp (alone logFile) ok (BlobFile.create name).run (fun outcome after => ReceivingLog X messages after ∧
      ∀ file, outcome = .ok file → file.filePath = joinPath "blobs" (firstName messages) ∧
          received after = some [] ∧ name ≠ "") log := by
  rw [BlobFile.create, wp_run_bind, createDirectories, wp_run_bind, wp_run_perform]
  intro replies _
  simp only [alone]
  have made := fun reply => receiving_snoc receiving
    (.file (.createDirectories BlobFile.BLOBS_PATH)) reply trivial
  cases replies (.createDirectories BlobFile.BLOBS_PATH) with
  | error what => exact ⟨made _, fun _ returned => by cases returned⟩
  | ok _ =>
      simp only [orThrow, wp_run_pure]
      rw [wp_run_bind]
      have opened := fun reply =>
        receiving_snoc (made (.ok ())) (.file (.openTrunc (joinPath BlobFile.BLOBS_PATH name))) reply
        (congrArg (joinPath "blobs") same)
      refine alone_open_truncate _ _ _ ?_ ?_
      · intro replies allowed isOpen
        refine ⟨opened true, ?_⟩
        intro file returned
        obtain rfl := Except.ok.inj returned
        refine ⟨congrArg (joinPath "blobs") same, received_snoc _ _, ?_⟩
        intro empty
        subst empty
        have closed : replies (.openTrunc (joinPath BlobFile.BLOBS_PATH "")) = false := sane replies allowed
        rw [closed] at isOpen
        cases isOpen
      · exact ⟨opened false, fun _ returned => by cases returned⟩

theorem append_received (file : BlobFile)
    (path : file.filePath = joinPath "blobs" (firstName messages)) (chunk old : Bytes)
    (log : WorkerLog) (receiving : ReceivingLog X messages log) (held : received log = some old) :
    wp (alone logFile) ok (file.appendChunk chunk).run (fun outcome after => ReceivingLog X messages after ∧
      ∀ grown, outcome = .ok grown → grown.filePath = joinPath "blobs" (firstName messages) ∧
        received after = some (old ++ chunk)) log := by
  rw [BlobFile.appendChunk, wp_run_bind]
  refine alone_append _ _ _ _ ?_
  intro isOpen
  have appended := receiving_snoc receiving (.file (.append file.filePath chunk)) isOpen path
  cases isOpen with
  | true =>
      refine ⟨appended, ?_⟩
      intro grown returned
      obtain rfl := Except.ok.inj returned
      refine ⟨path, ?_⟩
      rw [logFile, logWorker, received_snoc, held]
      rfl
  | false => exact ⟨appended, fun _ returned => by cases returned⟩

theorem messages_received (rest : List SaveBlobRequest) (hash : String) (named : hash ≠ "")
    (file : BlobFile) (path : file.filePath = joinPath "blobs" (firstName messages))
    (hasher : BlobHasher X) (old : Bytes) (log : WorkerLog)
    (receiving : ReceivingLog X messages log) (held : received log = some old) :
    wp (alone logFile) ok (receiveMessages X rest ⟨hash, some file, hasher⟩).run (fun outcome after =>
      ReceivingLog X messages after ∧ ∀ state, outcome = .ok state → state.requestHash = hash ∧
        state.blobHasher = hasher.addChunks (rest.map SaveBlobRequest.chunkData) ∧
        received after = some (old ++ payload rest)) log := by
  induction rest generalizing file hasher old log with
  | nil =>
      refine ⟨receiving, ?_⟩
      intro state returned
      obtain rfl := Except.ok.inj returned
      exact ⟨rfl, rfl, by rw [held]; simp [payload]⟩
  | cons request rest ih =>
      rw [receive_message X request rest hash named, wp_run_bind]
      refine wp_mono _ _ _ _ ?_ (append_received file path request.chunkData old log receiving held)
      intro outcome after done
      cases outcome with
      | error thrown => exact ⟨done.1, fun _ returned => by cases returned⟩
      | ok grown =>
          obtain ⟨grownPath, grownBytes⟩ := done.2 grown rfl
          refine wp_mono _ _ _ _ ?_
            (ih grown grownPath (hasher.addChunk request.chunkData) _ after done.1 grownBytes)
          intro outcome last final
          refine ⟨final.1, ?_⟩
          intro state returned
          obtain ⟨hashKept, hashed, bytes⟩ := final.2 state returned
          exact ⟨hashKept, hashed, by rw [bytes]; simp [payload]⟩

def Verified (X : Xxh64) (messages : List SaveBlobRequest)
    (outcome : Except Thrown (Except Status String)) (log : WorkerLog) : Prop :=
  ReceivingLog X messages log ∧ ∀ hash, outcome = .ok (.ok hash) →
    hash = firstName messages ∧ Matching X messages ∧ received log = some (payload messages)

theorem unverified (outcome : Except Thrown (Except Status String))
    (failed : ∀ hash, outcome ≠ .ok (.ok hash)) (log : WorkerLog)
    (receiving : ReceivingLog X messages log) : Verified X messages outcome log :=
  ⟨receiving, fun hash returned => absurd returned (failed hash)⟩

theorem unverified_error (error : Thrown) (log : WorkerLog) (receiving : ReceivingLog X messages log) :
    Caught (alone logFile) ok (fun what => pure (.error ⟨.cancelled, what⟩))
      (Verified X messages) (.error error) log :=
  caught_error _ _ log (fun _ => unverified _ (by simp) log receiving)
    (fun _ => unverified _ (by simp) log receiving) error

theorem blob_received (sane : ∀ replies, ok replies → NoDirectoryOpens replies) :
    wp (alone logFile) ok (receiveBlobFromFrontend X messages).run (Verified X messages) [] := by
  have start : ReceivingLog X messages [] := fun event member => absurd member List.not_mem_nil
  rw [receiveBlobFromFrontend]
  refine wp_catch _ _ _ _ ?_
  rw [wp_run_bind]
  cases messages with
  | nil =>
      have unnamed : ("" : String) ≠ X.blobHash [] := fun same => (blob_hash_ordinary X []).1 same.symm
      have hashed : (BlobHasher.new : BlobHasher X).finalize = X.blobHash [] := BlobHasher.finalize_chunks []
      rw [receiveMessages]
      refine (wp_run_pure _ _ _).mpr ?_
      dsimp only
      rw [hashed, if_pos unnamed]
      exact unverified _ (by simp) _ start
  | cons first rest =>
      rw [receive_first_message, wp_run_bind]
      refine wp_mono _ _ _ _ ?_ (create_received first.blobHash rfl sane [] start)
      intro outcome after created
      cases outcome with
      | error thrown => exact unverified_error thrown after created.1
      | ok file =>
          obtain ⟨path, opened, named⟩ := created.2 file rfl
          dsimp only
          rw [wp_run_bind]
          refine wp_mono _ _ _ _ ?_ (append_received file path first.chunkData [] after created.1 opened)
          intro outcome after appended
          cases outcome with
          | error thrown => exact unverified_error thrown after appended.1
          | ok file =>
              obtain ⟨path, bytes⟩ := appended.2 file rfl
              refine wp_mono _ _ _ _ ?_ (messages_received rest first.blobHash named file path
                (BlobHasher.new.addChunk first.chunkData) _ after appended.1 bytes)
              intro outcome after done
              cases outcome with
              | error thrown => exact unverified_error thrown after done.1
              | ok state =>
                  obtain ⟨hash, hasher, bytes⟩ := done.2 state rfl
                  have hashed : state.blobHasher.finalize = X.blobHash (payload (first :: rest)) := by
                    rw [hasher]
                    exact BlobHasher.finalize_chunks ((first :: rest).map SaveBlobRequest.chunkData)
                  dsimp only
                  rw [hashed, hash]
                  by_cases same : first.blobHash = X.blobHash (payload (first :: rest))
                  · rw [if_neg (fun different => different same)]
                    refine ⟨done.1, ?_⟩
                    intro returned equal
                    obtain rfl : first.blobHash = returned := Except.ok.inj (Except.ok.inj equal)
                    exact ⟨rfl, same, by rw [bytes]; simp [payload]⟩
                  · rw [if_pos same]
                    cases state.blobFile with
                    | none => exact unverified _ (by simp) _ done.1
                    | some file =>
                        dsimp only
                        rw [wp_run_bind, BlobFile.remove, removeFile, wp_run_bind, wp_run_perform]
                        intro replies _
                        have removed := fun reply =>
                          receiving_snoc done.1 (.file (.remove file.filePath)) reply same
                        dsimp only [alone]
                        cases replies (.remove file.filePath) <;> exact unverified _ (by simp) _ (removed _)

end Receiving

-- The whole call: it notifies the master at most once, at the end, and then it has
-- verified what it wrote.
structure SaveTrace (X : Xxh64) (workerAddress : String) (messages : List SaveBlobRequest)
    (log : WorkerLog) : Prop where
  receiving : ∀ event ∈ log, ReceivingCall X messages event.effect ∨
    ∃ request, event.effect = .notifyBlobSaved request
  verified : ∀ early request reply late, log = early ++ ⟨.notifyBlobSaved request, reply⟩ :: late →
    request = ⟨workerAddress, firstName messages⟩ ∧ Matching X messages ∧
      received early = some (payload messages)

theorem save_trace_receiving {X : Xxh64} {workerAddress : String} {messages : List SaveBlobRequest}
    {log : WorkerLog} (receiving : ReceivingLog X messages log) :
    SaveTrace X workerAddress messages log := by
  refine ⟨fun event member => .inl (receiving event member), ?_⟩
  intro early request reply late split
  exact (receiving ⟨.notifyBlobSaved request, reply⟩ (by simp [split])).elim

theorem save_trace_notified {X : Xxh64} {workerAddress : String} {messages : List SaveBlobRequest}
    {log : WorkerLog} {notice : NotifyBlobSavedRequest} (receiving : ReceivingLog X messages log)
    (facts : notice = ⟨workerAddress, firstName messages⟩ ∧ Matching X messages ∧
      received log = some (payload messages)) (reply : Except Status Unit) :
    SaveTrace X workerAddress messages (logWorker (.notifyBlobSaved notice) reply log) := by
  constructor
  · intro event member
    cases List.mem_append.mp member with
    | inl earlier => exact .inl (receiving event earlier)
    | inr last => exact .inr ⟨notice, by rw [List.mem_singleton.mp last]⟩
  · intro early request again late split
    cases late with
    | nil =>
        obtain ⟨rfl, same⟩ := List.append_inj' split rfl
        cases same
        exact facts
    | cons next rest =>
        -- a notification before the last event would be one while receiving
        have inside : (⟨.notifyBlobSaved request, again⟩ : Event WorkerCall WorkerReply) ∈ log := by
          have cut := congrArg List.dropLast split
          rw [logWorker, List.dropLast_concat, List.dropLast_append_of_ne_nil (by simp)] at cut
          rw [cut]
          simp [List.dropLast]
        exact (receiving _ inside).elim

theorem save_trace (X : Xxh64) (workerAddress : String) (messages : List SaveBlobRequest)
    (ok : ((call : WorkerCall) → WorkerReply call) → Prop)
    (sane : ∀ replies, ok replies → NoDirectoryOpens (fun call => replies (.file call))) :
    wp (alone logWorker) ok (WorkerService.saveBlob X workerAddress messages).run
      (fun _ log => SaveTrace X workerAddress messages log) [] := by
  rw [WorkerService.saveBlob, wp_run_bind]
  have inner : wp (alone logFile) (fun replies => ∃ all, ok all ∧ replies = fun call => all (.file call))
      (receiveBlobFromFrontend X messages).run (Verified X messages) [] := by
    refine blob_received ?_
    intro replies allowed
    obtain ⟨all, allowed, rfl⟩ := allowed
    exact sane all allowed
  refine wp_inline_part _ workerFile id (fun _ part => part) (fun _ _ => rfl)
    (fun _ _ _ => rfl) (fun _ => rfl) ?_
    (receiveBlobFromFrontend X messages).run _ [] (wp_mono _ _ _ _ ?_ inner)
  · intro call after whole each
    rw [workerFile, wp_perform]
    exact fun replies allowed => each (fun call => replies (.file call)) ⟨replies, allowed, rfl⟩
  · intro outcome log verified
    cases outcome with
    | error thrown => exact save_trace_receiving verified.1
    | ok result =>
        cases result with
        | error status => exact save_trace_receiving verified.1
        | ok hash =>
            obtain ⟨rfl, matching, bytes⟩ := verified.2 hash rfl
            dsimp only
            rw [wp_run_bind, masterNotifyBlobSaved, wp_run_perform]
            intro replies _
            have notified : ∀ reply, SaveTrace X workerAddress messages
                (logWorker (.notifyBlobSaved ⟨workerAddress, firstName messages⟩) reply log) :=
              save_trace_notified verified.1 ⟨rfl, matching, bytes⟩
            dsimp only [alone]
            cases replies (.notifyBlobSaved ⟨workerAddress, firstName messages⟩) <;> exact notified _

end BlobStore
