import SiriusDrive.UpdateDriveTaskBase

/-! # What can happen to a task

The threads run the jobs of a task, the session reports about its torrents, timers
fire, and the drive passes on what comes from the chain, from the other replicators
and from a streamer.
-/

namespace SiriusDrive

/-- The background thread may fail on the file system where the source catches it. -/
inductive FileSystemResult where
  | done
  | exception
  deriving Repr, DecidableEq

/-- `ChunkInfo`, without its signature. -/
structure ChunkInfo where
  streamId : Hash256
  chunkIndex : Nat
  chunkInfoHash : InfoHash
  durationMks : Nat
  sizeBytes : Nat
  deriving Repr, DecidableEq

/-- `FinishStreamChunkInfo`. -/
structure FinishStreamChunkInfo where
  chunkIndex : Nat
  chunkInfoHash : InfoHash
  durationMks : Nat
  sizeBytes : Nat
  saveOnDrive : Bool := true
  deriving Repr, DecidableEq

/-- `StreamFinishRequest`, with the fields a task reads. -/
structure StreamFinishRequest where
  streamId : Hash256
  finishDataInfoHash : InfoHash
  deriving Repr, DecidableEq

/-- What a job of the background thread finds out. -/
inductive BackgroundResult where
  | fileSystem (result : FileSystemResult)
  | sandbox (result : SandboxResult)
  /-- The sizes of the sandbox files. -/
  | sizes (metaFilesSize sandboxDriveSize fsTreeSize : Nat)
  /-- The fs tree read from a file, if it can be read. -/
  | fsTree (fsTree : Option FsTree)
  /-- The hashes of the fs tree whose files are missing in the drive folder. -/
  | missingFiles (hashes : List InfoHash)
  /-- The finish info read from a file, whether it could be read to its end, and the
      sandbox if it can be completed. -/
  | finishInfo (loaded : List FinishStreamChunkInfo) (complete : Bool)
      (result : Option SandboxResult)
  /-- The folder of a stream is not a folder of the tree. -/
  | noStreamFolder

/-- What can happen to a task that is running. -/
inductive TaskEvent where
  /-- The session thread runs the first job posted to it. -/
  | runSessionJob
  /-- The background thread runs the first job posted to it. -/
  | runBackgroundJob (result : BackgroundResult)
  /-- The torrents of a removal have left the session. -/
  | torrentsRemoved (index : Nat)
  /-- The session has learned the size of a torrent and checked its metadata. -/
  | metadataReceived (handle : LtHandle) (totalSize : Nat) (isValid : Bool)
  | torrentFinished (handle : LtHandle)
  | pieceReceived (uploader : Key) (size : Nat)
  | modifyOpinionTimerExpired
  | shareMyOpinionTimerExpired
  | opinionReceived (anOpinion : ApprovalTransactionInfo)
  | approvalTxPublished (transaction : PublishedModificationApprovalTransactionInfo)
  | approvalTxFailed (transactionHash : Hash256)
  | cancelModify (cancelRequest : ModificationCancelRequest)
  | driveClose
  | manualSynchronize
  | terminate
  | setReplicators (replicatorKeys : List ReplicatorKey)
  | setMinReplicatorsNumber (number : Nat)
  | chunkInfoReceived (chunkInfo : ChunkInfo) (isVerified : Bool)
  | finishStream (finishStream : StreamFinishRequest)

namespace UpdateDriveTaskBase

variable (task : UpdateDriveTaskBase)

/-- Take the first job of the session thread. -/
def popSessionJob : Option (SessionJob × UpdateDriveTaskBase) :=
  match task.sessionJobs with
  | job :: sessionJobs => some (job, { task with sessionJobs })
  | [] => none

/-- Take the first job of the background thread. -/
def popBackgroundJob : Option (BackgroundJob × UpdateDriveTaskBase) :=
  match task.backgroundJobs with
  | job :: backgroundJobs => some (job, { task with backgroundJobs })
  | [] => none

/-- Take a removal of torrents whose torrents have left the session. -/
def popRemoval (index : Nat) : Option (TorrentsRemoved × UpdateDriveTaskBase) :=
  match task.removals[index]? with
  | some removal => some (removal, { task with removals := task.removals.eraseIdx index })
  | none => none

theorem popSessionJob_eq_some {task base : UpdateDriveTaskBase} {job : SessionJob}
    (found : task.popSessionJob = some (job, base)) :
    ∃ rest, task.sessionJobs = job :: rest ∧ base = { task with sessionJobs := rest } := by
  simp only [popSessionJob] at found
  split at found
  · rename_i first rest jobs
    obtain ⟨rfl, rfl⟩ := Prod.mk.inj (Option.some.inj found)
    exact ⟨rest, jobs, rfl⟩
  · simp at found

theorem popBackgroundJob_eq_some {task base : UpdateDriveTaskBase} {job : BackgroundJob}
    (found : task.popBackgroundJob = some (job, base)) :
    ∃ rest, task.backgroundJobs = job :: rest ∧ base = { task with backgroundJobs := rest } := by
  simp only [popBackgroundJob] at found
  split at found
  · rename_i first rest jobs
    obtain ⟨rfl, rfl⟩ := Prod.mk.inj (Option.some.inj found)
    exact ⟨rest, jobs, rfl⟩
  · simp at found

theorem popRemoval_eq_some {task base : UpdateDriveTaskBase} {index : Nat}
    {removal : TorrentsRemoved} (found : task.popRemoval index = some (removal, base)) :
    task.removals[index]? = some removal ∧
      base = { task with removals := task.removals.eraseIdx index } := by
  simp only [popRemoval] at found
  split at found
  · rename_i first isRemoval
    obtain ⟨rfl, rfl⟩ := Prod.mk.inj (Option.some.inj found)
    exact ⟨isRemoval, rfl⟩
  · simp at found

def activeTorrent (handle : LtHandle) (state : TorrentState) : Option Torrent :=
  (task.findTorrent handle).filter fun torrent => torrent.state = state ∧ torrent.isRemoved = false

/-- The session has all pieces of a torrent and saves its file. -/
def torrentFinished (torrent : Torrent) : UpdateDriveTaskBase :=
  (task.setTorrent { torrent with state := .finished }).executeOnBackgroundThread
    (.save (.torrentFile torrent.handle))

end UpdateDriveTaskBase

end SiriusDrive
