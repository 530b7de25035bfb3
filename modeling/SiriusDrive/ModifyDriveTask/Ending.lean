import SiriusDrive.ModifyDriveTask.Approvals
import SiriusDrive.ModifyDriveTask.Downloads
import SiriusDrive.ModifyDriveTask.UploadsStep
import SiriusDrive.UpdateDriveTaskBase.Ending

/-! # The end of an interrupted modification

An interruption removes the download there is, or ends a task that waits for its approval. It
finds neither while the files of the action list are looked for, and the approval of another
modification does not end the task that waits.
-/

namespace SiriusDrive.ModifyDriveTask

open UpdateDriveTaskBase (Persists)

variable (task : ModifyDriveTask)

def uploads : List Hash256 :=
  match task.actionListFile with
  | some (.actions actionList) =>
      actionList.filterMap fun action => action.uploadHash.bind (·.toOption)
  | _ => []

/-- The action list is there, and the drive knows all files it uploads. -/
def NothingMissing : Prop :=
  task.actionListFile.isSome = true ∧
    ∀ hash ∈ task.missedFileSet ++ task.uploads,
      task.drive.torrentHandleMap.contains hash = true ∨ hash = 0

/-- The files of the action list are going to be looked for. -/
def LooksForFiles : Prop :=
  .prepareDownloadMissingFiles ∈ task.backgroundJobs ∨ .downloadMissingFiles ∈ task.sessionJobs

/-- The own opinion is formed, and no approval has come. -/
def WaitsForApproval : Prop :=
  task.sandboxCalculated = true ∧ task.modifyApproveTxReceived = false

/-- The task is finished or has broken the program, or something is scheduled that leads to its
    end. The search for files does if none is missing, as it starts a download otherwise. -/
def ComesToEnd : Prop :=
  task.EndsOrBreaks ∨ task.LooksForFiles ∧ task.NothingMissing

def EndsIfInterrupted : Prop := task.taskIsInterrupted = true → task.ComesToEnd

instance : Decidable task.NothingMissing := inferInstanceAs (Decidable (_ ∧ ∀ _ ∈ _, _))

instance : Decidable task.LooksForFiles := inferInstanceAs (Decidable (_ ∨ _))

instance : Decidable task.WaitsForApproval := inferInstanceAs (Decidable (_ ∧ _))

instance : ∀ event, Decidable (task.Interrupts event)
  | .approvalTxPublished _ => inferInstanceAs (Decidable (¬ _))
  | .cancelModify _ => inferInstanceAs (Decidable (_ = _))
  | .driveClose | .manualSynchronize | .terminate => inferInstanceAs (Decidable True)
  | .runSessionJob | .runBackgroundJob .. | .torrentsRemoved .. | .metadataReceived ..
  | .torrentFinished .. | .pieceReceived .. | .modifyOpinionTimerExpired
  | .shareMyOpinionTimerExpired | .opinionReceived .. | .approvalTxFailed .. | .setReplicators ..
  | .setMinReplicatorsNumber .. | .chunkInfoReceived .. | .finishStream .. =>
      inferInstanceAs (Decidable False)

/-- What interrupts a task that has neither a download nor anything else that leads to its end
    finds it waiting for its approval, and is none itself, or finds no file missing. -/
def InterruptedInTime (event : TaskEvent) : Prop :=
  task.Interrupts event → task.IsIdle →
    task.WaitsForApproval ∧ event.isApproval = false ∨ task.LooksForFiles ∧ task.NothingMissing

instance (event : TaskEvent) : Decidable (task.InterruptedInTime event) :=
  inferInstanceAs (Decidable (_ → _ → _ ∨ _))

/-- The functions between leave alone what the end of the task depends on. -/
structure Keeps (before after : ModifyDriveTask) : Prop where
  persists : before.Persists after.toUpdateDriveTaskBase
  known : after.drive.torrentHandleMap = before.drive.torrentHandleMap
  missed : after.missedFileSet = before.missedFileSet
  file : after.actionListFile = before.actionListFile

variable {task} {before middle after : ModifyDriveTask}

theorem Keeps.refl (task : ModifyDriveTask) : Keeps task task := ⟨.refl _, rfl, rfl, rfl⟩

theorem Keeps.comp (second : Keeps middle after) (first : Keeps before middle) :
    Keeps before after :=
  ⟨first.persists.trans second.persists, second.known.trans first.known,
    second.missed.trans first.missed, second.file.trans first.file⟩

theorem keeps_base {f : UpdateDriveTaskBase → UpdateDriveTaskBase}
    (persists : task.Persists (f task.toUpdateDriveTaskBase))
    (known : (f task.toUpdateDriveTaskBase).drive.torrentHandleMap = task.drive.torrentHandleMap) :
    Keeps task (task.base f) :=
  ⟨persists, known, rfl, rfl⟩

theorem keeps_approval {f : ModifyApprovalTaskBase → ModifyApprovalTaskBase}
    (leaves : task.Leaves (f task.toModifyApprovalTaskBase).toUpdateDriveTaskBase)
    (drive : (f task.toModifyApprovalTaskBase).drive.torrentHandleMap =
      task.drive.torrentHandleMap) : Keeps task (task.approval f) :=
  ⟨leaves.persists, drive, rfl, rfl⟩

theorem keeps_sessionJob (task : ModifyDriveTask) (job : SessionJob) :
    Keeps task (task.base (·.executeOnSessionThread job)) :=
  keeps_base (task.persists_executeOnSessionThread job) rfl

theorem keeps_backgroundJob (task : ModifyDriveTask) (job : BackgroundJob) :
    Keeps task (task.base (·.executeOnBackgroundThread job)) :=
  keeps_base (task.persists_executeOnBackgroundThread job) rfl

theorem keeps_setTorrent (task : ModifyDriveTask) (torrent : Torrent) :
    Keeps task (task.base (·.setTorrent torrent)) :=
  keeps_base ⟨⟨rfl, id, List.Subset.refl _, List.Subset.refl _, List.Subset.refl _⟩, id, id⟩ rfl

theorem NothingMissing.of_same (nothing : before.NothingMissing)
    (known : after.drive.torrentHandleMap = before.drive.torrentHandleMap)
    (missed : after.missedFileSet = before.missedFileSet)
    (file : after.actionListFile = before.actionListFile) : after.NothingMissing := by
  unfold NothingMissing uploads at *
  rwa [known, missed, file]

theorem LooksForFiles.extends (looks : before.LooksForFiles)
    (extended : before.Extends after.toUpdateDriveTaskBase) : after.LooksForFiles :=
  looks.imp (fun member => extended.backgroundJobs member) fun member => extended.sessionJobs member

theorem comesToEnd_of_ends (ends : task.Ends) : task.ComesToEnd := .inl (.inr ends)

/-- A task that has not broken the program comes to its end by what it has scheduled. -/
theorem ComesToEnd.unbroken (comes : task.ComesToEnd) (unbroken : task.fault = none) :
    task.Ends ∨ task.LooksForFiles ∧ task.NothingMissing := by
  exact comes.imp_left fun ends => ends.ends unbroken

theorem ComesToEnd.keeps (comes : before.ComesToEnd) (unbroken : before.fault = none)
    (keeps : Keeps before after) : after.ComesToEnd := by
  rcases comes.unbroken unbroken with ends | ⟨looks, nothing⟩
  · exact comesToEnd_of_ends (ends.extends keeps.persists.toExtends)
  · exact .inr ⟨looks.extends keeps.persists.toExtends,
      nothing.of_same keeps.known keeps.missed keeps.file⟩

/-! ## The search for files -/

theorem mem_prepareMissed {missed prepared : List Hash256} {actionList : ActionList}
    (isPrepared : prepareMissed missed actionList = .ok prepared) :
    ∀ hash ∈ prepared, hash ∈ missed ∨
      hash ∈ actionList.filterMap fun action => action.uploadHash.bind (·.toOption) := by
  induction actionList generalizing missed with
  | nil =>
      obtain rfl : missed = prepared := Except.ok.inj isPrepared
      exact fun hash member => .inl member
  | cons action actions ih =>
      intro hash member
      unfold prepareMissed at isPrepared
      cases isUpload : action.uploadHash with
      | none =>
          simp only [isUpload] at isPrepared
          simpa [isUpload] using ih isPrepared hash member
      | some result =>
          cases result with
          | error text =>
              simp only [isUpload] at isPrepared
              cases isPrepared
          | ok upload =>
              simp only [isUpload] at isPrepared
              have isFirst : (action.uploadHash.bind (·.toOption)) = some upload := by
                rw [isUpload]
                rfl
              simp only [List.filterMap_cons, isFirst]
              rcases ih isPrepared hash member with known | later
              · unfold insertMissed at known
                split at known
                · exact .inl known
                · rcases (List.mem_orderedInsert _).mp known with rfl | old
                  · exact .inr List.mem_cons_self
                  · exact .inl old
              · exact .inr (List.mem_cons_of_mem _ later)

theorem selectMissing_of_known {torrentHandleMap : TorrentHandleMap} {missed : List Hash256}
    (known : ∀ hash ∈ missed, torrentHandleMap.contains hash = true ∨ hash = 0)
    {hash : Hash256} {rest : List Hash256} :
    selectMissing torrentHandleMap missed ≠ some (some hash, rest) := by
  induction missed with
  | nil => simp [selectMissing]
  | cons first others ih =>
      rw [List.forall_mem_cons] at known
      unfold selectMissing
      split
      · exact ih known.2
      · rename_i unknown
        rw [if_pos (known.1.resolve_left unknown)]
        simp

theorem comesToEnd_downloadMissingFiles (ends : task.Ends ∨ task.NothingMissing) :
    task.downloadMissingFiles.ComesToEnd := by
  unfold downloadMissingFiles
  split
  · exact .inl (.inl rfl)
  · rename_i hash rest isSelected
    rcases ends with ends | nothing
    · refine comesToEnd_of_ends (ends.extends ?_)
      exact ⟨rfl, id, List.Subset.refl _, List.Subset.refl _, List.Subset.refl _⟩
    · refine absurd isSelected (selectMissing_of_known ?_)
      exact fun hash member => nothing.2 hash (List.mem_append_left _ member)
  · exact comesToEnd_of_ends (UpdateDriveTaskBase.endsIn_executeOnBackgroundThread _ rfl).ends

theorem comesToEnd_prepareDownloadMissingFiles (ends : task.Ends ∨ task.NothingMissing) :
    task.prepareDownloadMissingFiles.ComesToEnd := by
  unfold prepareDownloadMissingFiles
  cases isFile : task.actionListFile with
  | none =>
      rcases ends with ends | ⟨file, -⟩
      · exact comesToEnd_of_ends ends
      · simp [isFile] at file
  | some file =>
      cases file with
      | undecodable loaded =>
          simp only
          split
          · exact .inl (.inl rfl)
          · have withError : (task.executeOnSessionThread (.modifyIsCompletedWithError
                "modify drive: invalid 'ActionList'" .invalidActionList)).EndsIn 3 :=
              task.endsIn_executeOnSessionThread rfl
            exact comesToEnd_of_ends (withError.ends.extends
              (UpdateDriveTaskBase.persists_executeOnSessionThread _ _).toExtends)
      | actions actionList =>
          simp only
          split
          · exact .inl (.inl rfl)
          · rename_i missedFileSet isPrepared
            rcases ends with ends | ⟨isThere, known⟩
            · exact comesToEnd_of_ends (ends.extends
                (UpdateDriveTaskBase.persists_executeOnSessionThread _ _).toExtends)
            · have isUploads : task.uploads = actionList.filterMap
                  fun action => action.uploadHash.bind (·.toOption) := by
                rw [uploads, isFile]
              refine .inr ⟨.inr (List.mem_append_right _ List.mem_cons_self), isThere, ?_⟩
              intro hash member
              rcases List.mem_append.mp member with prepared | listed
              · refine known hash (List.mem_append.mpr ?_)
                rw [isUploads]
                exact mem_prepareMissed isPrepared hash prepared
              · exact known hash (List.mem_append_right _ listed)

/-! ## The jobs -/

variable {steps : Nat}

theorem endsIn_modifyFsTreeInSandbox (task : ModifyDriveTask) (result : SandboxResult) :
    (task.modifyFsTreeInSandbox result).fault.isSome = true ∨
      (task.modifyFsTreeInSandbox result).EndsIn 3 := by
  unfold modifyFsTreeInSandbox
  split
  · right
    simp only
    split
    · exact UpdateDriveTaskBase.endsIn_executeOnSessionThread _ rfl
    · exact (UpdateDriveTaskBase.endsIn_executeOnSessionThread _ rfl).mono (by decide)
  · exact .inl rfl

theorem endsIn_runSessionJob {job : SessionJob} (leads : job.stepsToEnd = some steps)
    (run : task.runSessionJob job = some after) (interrupted : task.taskIsInterrupted = true) :
    after.fault.isSome = true ∨ after.EndsIn steps := by
  cases job with
  | modifyIsCompletedWithError text status =>
      obtain rfl := Option.some.inj run
      obtain rfl := Option.some.inj leads
      exact .inr (UpdateDriveTaskBase.endsIn_executeOnBackgroundThread _ rfl)
  | myRootHashIsCalculated =>
      obtain rfl := Option.some.inj run
      obtain rfl := Option.some.inj leads
      exact .inr (UpdateDriveTaskBase.endsIn_myRootHashIsCalculated interrupted _ _)
  | onCumulativeUploadsUpdated =>
      obtain rfl := Option.some.inj run
      obtain rfl := Option.some.inj leads
      exact .inr (UpdateDriveTaskBase.endsIn_onCumulativeUploadsUpdated interrupted _)
  | myOpinionIsCreated =>
      obtain rfl := Option.some.inj run
      obtain rfl := Option.some.inj leads
      exact .inr (ModifyApprovalTaskBase.endsIn_myOpinionIsCreated interrupted)
  | synchronizationIsCompleted =>
      obtain rfl := Option.some.inj run
      obtain rfl := Option.some.inj leads
      exact .inr (UpdateDriveTaskBase.endsIn_synchronizationIsCompleted _ _)
  | modifyIsCompleted =>
      obtain rfl := Option.some.inj run
      obtain rfl := Option.some.inj leads
      exact UpdateDriveTaskBase.endsIn_modifyIsCompleted _ _
  | unusedFilesRemoved | createUnusedFileList => cases run
  | downloadMissingFiles | startNextChunk | requestMissingChunkInfo | downloadNotification
  | runNextTask => cases leads

theorem endsIn_runBackgroundJob {job : BackgroundJob} {result : BackgroundResult}
    (leads : job.stepsToEnd = some steps) (run : task.runBackgroundJob job result = some after) :
    after.fault.isSome = true ∨ after.EndsIn steps := by
  unfold runBackgroundJob at run
  split at run
  · obtain rfl := Option.some.inj run
    exact .inr (UpdateDriveTaskBase.endsIn_runSaveJob _ leads)
  · obtain rfl := Option.some.inj run
    obtain rfl := Option.some.inj leads
    exact .inr (ModifyApprovalTaskBase.endsIn_continueSynchronizing _ _)
  · cases leads
  · obtain rfl := Option.some.inj run
    obtain rfl := Option.some.inj leads
    exact endsIn_modifyFsTreeInSandbox _ _
  · obtain rfl := Option.some.inj run
    obtain rfl := Option.some.inj leads
    exact .inr (UpdateDriveTaskBase.endsIn_executeOnSessionThread _ rfl)
  · cases run

theorem ComesToEnd.endsOrMissesNothing (comes : task.ComesToEnd) (unbroken : task.fault = none) :
    task.Ends ∨ task.NothingMissing :=
  (comes.unbroken unbroken).imp_right And.right

theorem ComesToEnd.popSessionJob {job : SessionJob} {rest : List SessionJob}
    (comes : task.ComesToEnd) (unbroken : task.fault = none) (jobs : task.sessionJobs = job :: rest)
    (other : job.stepsToEnd = none) (isOther : job ≠ .downloadMissingFiles) :
    (task.base fun base => { base with sessionJobs := rest }).ComesToEnd := by
  rcases comes.unbroken unbroken with ends | ⟨looks, nothing⟩
  · exact comesToEnd_of_ends (ends.popSessionJob jobs other)
  · refine .inr ⟨looks.imp_right fun member => ?_, nothing⟩
    rw [jobs] at member
    exact (List.mem_cons.mp member).resolve_left isOther.symm

theorem ComesToEnd.popBackgroundJob {job : BackgroundJob} {rest : List BackgroundJob}
    (comes : task.ComesToEnd) (unbroken : task.fault = none)
    (jobs : task.backgroundJobs = job :: rest) (other : job.stepsToEnd = none)
    (isOther : job ≠ .prepareDownloadMissingFiles) :
    (task.base fun base => { base with backgroundJobs := rest }).ComesToEnd := by
  rcases comes.unbroken unbroken with ends | ⟨looks, nothing⟩
  · exact comesToEnd_of_ends (ends.popBackgroundJob jobs other)
  · refine .inr ⟨looks.imp_left fun member => ?_, nothing⟩
    rw [jobs] at member
    exact (List.mem_cons.mp member).resolve_left isOther.symm

theorem ComesToEnd.downloadCompleted (comes : task.ComesToEnd) (unbroken : task.fault = none)
    (interrupted : task.taskIsInterrupted = true) (torrent : Torrent) :
    (task.downloadCompleted torrent).ComesToEnd := by
  have search :
      ((task.addUploadedDataSize torrent.uploadedDataSize).downloadMissingFiles).ComesToEnd :=
    comesToEnd_downloadMissingFiles (comes.endsOrMissesNothing unbroken)
  unfold ModifyDriveTask.downloadCompleted
  split
  · unfold actionListDownloaded
    rwa [if_pos interrupted]
  · exact search

theorem ComesToEnd.runSessionJob {job : SessionJob} {rest : List SessionJob}
    (comes : task.ComesToEnd) (unbroken : task.fault = none)
    (interrupted : task.taskIsInterrupted = true) (jobs : task.sessionJobs = job :: rest)
    (run : (task.base fun base => { base with sessionJobs := rest }).runSessionJob job =
      some after) : after.ComesToEnd := by
  cases leads : job.stepsToEnd with
  | some steps =>
      exact .inl ((endsIn_runSessionJob leads run interrupted).imp_right fun ends => ends.ends)
  | none =>
      cases job with
      | downloadMissingFiles =>
          obtain rfl := Option.some.inj run
          apply comesToEnd_downloadMissingFiles
          exact (comes.unbroken unbroken).imp (fun ends => ends.popSessionJob jobs leads) And.right
      | downloadNotification handle =>
          have popped := comes.popSessionJob unbroken jobs leads (by simp)
          simp only [ModifyDriveTask.runSessionJob] at run
          split at run
          · obtain rfl := Option.some.inj run
            exact popped.downloadCompleted unbroken interrupted _
          · cases run
      | startNextChunk | requestMissingChunkInfo | runNextTask => cases run
      | modifyIsCompletedWithError | myRootHashIsCalculated | onCumulativeUploadsUpdated
      | myOpinionIsCreated | synchronizationIsCompleted | modifyIsCompleted | createUnusedFileList
      | unusedFilesRemoved => cases leads

theorem ComesToEnd.runBackgroundJob {job : BackgroundJob} {rest : List BackgroundJob}
    {result : BackgroundResult} (comes : task.ComesToEnd) (unbroken : task.fault = none)
    (jobs : task.backgroundJobs = job :: rest)
    (run : (task.base fun base => { base with backgroundJobs := rest }).runBackgroundJob job
      result = some after) : after.ComesToEnd := by
  cases leads : job.stepsToEnd with
  | some steps => exact .inl ((endsIn_runBackgroundJob leads run).imp_right fun ends => ends.ends)
  | none =>
      unfold ModifyDriveTask.runBackgroundJob at run
      split at run
      · rename_i save
        obtain rfl := Option.some.inj run
        have popped := comes.popBackgroundJob unbroken jobs leads (by simp)
        cases save with
        | torrentFile | clearSandbox => exact popped.keeps unbroken (keeps_sessionJob _ _)
        | notApprovedCumulativeUploads | singleApprovalTransaction | approvedCumulativeUploads =>
            cases leads
      · cases leads
      · obtain rfl := Option.some.inj run
        apply comesToEnd_prepareDownloadMissingFiles
        exact (comes.unbroken unbroken).imp (fun ends => ends.popBackgroundJob jobs leads) And.right
      · cases leads
      · cases leads
      · cases run

theorem ComesToEnd.torrentsRemoved {index : Nat} {removal : TorrentsRemoved}
    (comes : task.ComesToEnd) (unbroken : task.fault = none)
    (found : task.removals[index]? = some removal) :
    (task.base fun base => { base with
      removals := base.removals.eraseIdx index }.onTorrentsRemoved removal).ComesToEnd := by
  rcases comes.unbroken unbroken with ends | looks
  · exact comesToEnd_of_ends (ends.torrentsRemoved found)
  · cases leads : removal.stepsToEnd with
    | some steps =>
        exact comesToEnd_of_ends (UpdateDriveTaskBase.endsIn_onTorrentsRemoved _ leads).ends
    | none =>
        cases removal with
        | clearSandbox =>
            have popped : (task.base fun base =>
                { base with removals := base.removals.eraseIdx index }).ComesToEnd := .inr looks
            have kept := popped.keeps unbroken (keeps_backgroundJob _ (.save .clearSandbox))
            exact kept
        | finishTask | continueSynchronizing | removeUnusedFiles => cases leads

/-! ## The steps -/

theorem keeps_processedModifyOpinion (task : ModifyDriveTask)
    (anOpinion : ApprovalTransactionInfo) :
    Keeps task (task.processedModifyOpinion anOpinion).1 := by
  have stores : Keeps task (task.storeOpinion anOpinion) := keeps_approval (.refl _) rfl
  unfold processedModifyOpinion
  split
  · exact .refl task
  · split
    · split
      · have checks : Keeps (task.storeOpinion anOpinion)
            ((task.storeOpinion anOpinion).approval (·.checkOpinionNumberAndStartTimer)) := by
          apply keeps_approval (ModifyApprovalTaskBase.leaves_checkOpinionNumber _)
          rw [ModifyApprovalTaskBase.drive_checkOpinionNumber]
        exact checks.comp stores
      · exact .refl task
    · exact stores

theorem comesToEnd_breakTask_iff : task.breakTask.ComesToEnd ↔
    task.downloadingLtHandle.isSome = true ∨ task.WaitsForApproval ∨ task.ComesToEnd := by
  have breaks := task.endsOrBreaks_breakTorrentDownload_iff
    (·.tryBreakTask task.modifyApproveTxReceived)
  cases downloading : task.downloadingLtHandle with
  | some handle =>
      have removes := breaks.mpr (.inl (by rw [downloading]; rfl))
      exact iff_of_true (.inl removes) (.inl rfl)
  | none =>
      by_cases waits : task.WaitsForApproval
      · have finishes := breaks.mpr
          (.inr ((UpdateDriveTaskBase.endsOrBreaks_tryBreakTask_iff _ _).mpr (.inl waits)))
        exact iff_of_true (.inl finishes) (.inr (.inl waits))
      · have goesOn : task.breakTask = task.interrupted := by
          have other : ¬ (task.sandboxCalculated && !task.modifyApproveTxReceived) = true := by
            simpa [WaitsForApproval] using waits
          unfold breakTask UpdateDriveTaskBase.breakTorrentDownloadAndRunNextTask
            UpdateDriveTaskBase.tryBreakTask interrupted base approval ModifyApprovalTaskBase.base
          simp only [downloading, if_neg other]
        rw [goesOn]
        simp only [Option.isSome_none, Bool.false_eq_true, waits, false_or]
        exact Iff.rfl

theorem taskIsInterrupted_breakTask (task : ModifyDriveTask) :
    task.breakTask.taskIsInterrupted = true :=
  (task.interrupts_breakTorrentDownload fun base =>
    base.moves_tryBreakTask task.modifyApproveTxReceived).interrupted

/-- An interruption ends the task if it finds a download, an opinion that waits for its approval,
    or what ends the task without it. -/
theorem step_of_interrupts {event : TaskEvent} (unbroken : task.fault = none)
    (running : task.taskIsInterrupted = false) (interrupts : task.Interrupts event) :
    ∃ after, modifyDriveSystem.step task event = some after ∧ after.taskIsInterrupted = true ∧
      (after.ComesToEnd ↔ task.downloadingLtHandle.isSome = true ∨
        task.WaitsForApproval ∧ event.isApproval = false ∨ task.ComesToEnd) := by
  have step : modifyDriveSystem.step task event = task.handle event := by
    simp [modifyDriveSystem, unbroken]
  have notInterrupted : ¬ task.taskIsInterrupted = true := by simp [running]
  rw [step]
  cases event with
  | approvalTxPublished transaction =>
      refine ⟨_, rfl, ?_⟩
      rw [onApprovalTxPublished_breaks running interrupts]
      refine ⟨taskIsInterrupted_breakTask _, comesToEnd_breakTask_iff.trans ?_⟩
      refine or_congr Iff.rfl (or_congr ?_ Iff.rfl)
      exact iff_of_false (fun waits => by cases waits.2) fun waits => by cases waits.2
  | cancelModify cancelRequest =>
      refine ⟨task.breakTask, ?_, task.taskIsInterrupted_breakTask, ?_⟩
      · unfold handle shouldCancelModify
        have isOwn : cancelRequest.modifyTransactionHash = task.request.transactionHash :=
          interrupts
        simp only [if_neg notInterrupted, if_pos isOwn]
      · simpa [TaskEvent.isApproval] using comesToEnd_breakTask_iff
  | driveClose =>
      refine ⟨task.breakTask, ?_, task.taskIsInterrupted_breakTask, ?_⟩
      · unfold handle onDriveClose
        simp only [if_neg notInterrupted]
      · simpa [TaskEvent.isApproval] using comesToEnd_breakTask_iff
  | manualSynchronize =>
      refine ⟨task.breakTask, ?_, task.taskIsInterrupted_breakTask, ?_⟩
      · unfold handle ModifyDriveTask.manualSynchronize
        simp only [if_neg notInterrupted]
      · simpa [TaskEvent.isApproval] using comesToEnd_breakTask_iff
  | terminate =>
      refine ⟨task.terminate, rfl, taskIsInterrupted_breakTask _, comesToEnd_breakTask_iff.trans ?_⟩
      refine or_congr Iff.rfl (or_congr ?_ Iff.rfl)
      exact (and_iff_left rfl).symm
  | _ => exact interrupts.elim

theorem ComesToEnd.handles {event : TaskEvent} (comes : task.ComesToEnd)
    (unbroken : task.fault = none) (interrupted : task.taskIsInterrupted = true)
    (handles : task.Handles event after) : after.ComesToEnd := by
  cases handles with
  | runSessionJob jobs run => exact comes.runSessionJob unbroken interrupted jobs run
  | runBackgroundJob jobs run => exact comes.runBackgroundJob unbroken jobs run
  | torrentsRemoved found => exact comes.torrentsRemoved unbroken found
  | metadataReceived found totalSize isValid =>
      unfold onMetadataReceived
      split
      · exact comes.keeps unbroken (keeps_setTorrent _ _)
      · exact comesToEnd_of_ends (UpdateDriveTaskBase.endsIn_executeOnBackgroundThread _ rfl).ends
  | torrentFinished found =>
      exact comes.keeps unbroken ((keeps_backgroundJob _ _).comp (keeps_setTorrent _ _))
  | pieceReceived uploader size =>
      exact comes.keeps unbroken (keeps_base (task.leaves_addTraffic uploader size).persists rfl)
  | modifyOpinionTimerExpired pending =>
      apply comes.keeps unbroken
      apply keeps_approval
      · exact ModifyApprovalTaskBase.leaves_opinionTimerExpired
          { task.toModifyApprovalTaskBase with modifyOpinionTimer := .expired }
      · rw [ModifyApprovalTaskBase.drive_opinionTimerExpired]
  | shareMyOpinionTimerExpired pending =>
      apply comes.keeps unbroken
      apply keeps_approval task.leaves_shareMyOpinionTimerExpired
      unfold ModifyApprovalTaskBase.shareMyOpinionTimerExpired
      split <;> rfl
  | opinionReceived anOpinion =>
      exact comes.keeps unbroken (task.keeps_processedModifyOpinion anOpinion)
  | approvalTxPublished transaction => rwa [onApprovalTxPublished_interrupted interrupted]
  | approvalTxFailed transactionHash =>
      unfold onApprovalTxFailed
      rwa [if_neg (by simp [interrupted])]
  | cancelModify cancelRequest =>
      unfold shouldCancelModify
      rwa [if_pos interrupted]
  | driveClose =>
      unfold onDriveClose
      rwa [if_pos interrupted]
  | manualSynchronize =>
      unfold ModifyDriveTask.manualSynchronize
      rwa [if_pos interrupted]
  | terminate => exact comesToEnd_breakTask_iff.mpr (.inr (.inr comes))
  | setReplicators replicatorKeys =>
      exact comes.keeps unbroken
        (keeps_base (task.leaves_setReplicators replicatorKeys).persists rfl)
  | setMinReplicatorsNumber number =>
      exact comes.keeps unbroken
        (keeps_base (task.leaves_setMinReplicatorsNumber number).persists rfl)
  | chunkInfoReceived | finishStream => exact comes

theorem EndsIfInterrupted.step {event : TaskEvent} (ends : task.EndsIfInterrupted)
    (inTime : task.InterruptedInTime event)
    (step : modifyDriveSystem.step task event = some after) : after.EndsIfInterrupted := by
  obtain ⟨unbroken, handles⟩ := handles_of_step step
  cases running : task.taskIsInterrupted with
  | true => exact fun _ => (ends running).handles unbroken running handles
  | false =>
      intro interrupted
      rcases (downloadStep_of_handles handles).taskIsInterrupted with same | ⟨interrupts, -⟩
      · rw [interrupted, running] at same
        cases same
      · obtain ⟨next, isNext, -, comes⟩ := step_of_interrupts unbroken running interrupts
        obtain rfl := Option.some.inj (step.symm.trans isNext)
        rw [comes]
        by_cases idle : task.IsIdle
        · exact .inr ((inTime interrupts idle).imp_right .inr)
        · exact (UpdateDriveTaskBase.endsOrBreaks_of_not_isIdle idle running).imp_right
            fun ends => .inr (.inl ends)

/-- An interruption that comes at another time leaves the task without an end. -/
theorem step_of_not_inTime {event : TaskEvent} (late : ¬ task.InterruptedInTime event) :
    ∃ after, modifyDriveSystem.step task event = some after ∧ ¬ after.EndsIfInterrupted := by
  unfold InterruptedInTime at late
  push Not at late
  obtain ⟨interrupts, ⟨running, idle, nothing⟩, notWaiting, missing⟩ := late
  have unbroken : task.fault = none := UpdateDriveTaskBase.fault_of_not_endsOrBreaks nothing
  obtain ⟨after, step, interrupted, comes⟩ := step_of_interrupts unbroken running interrupts
  refine ⟨after, step, fun ends => ?_⟩
  rcases comes.mp (ends interrupted) with downloading | ⟨waits, other⟩ | endsOrBreaks | looks
  · simp [idle] at downloading
  · exact notWaiting waits other
  · exact nothing endsOrBreaks
  · exact missing looks.1 looks.2

theorem taskIsInterrupted_start (request : ModificationRequest)
    (receivedOpinions : ReceivedOpinions) (drive : DriveParams)
    (actionListFile : Option ActionListFile) :
    (start request receivedOpinions drive actionListFile).taskIsInterrupted = false := by
  simp only [start, run]
  split <;> rfl

/-- An interrupted modification comes to its end in exactly those runs in which every interruption
    comes in time. -/
theorem endsIfInterrupted_iff (request : ModificationRequest) (receivedOpinions : ReceivedOpinions)
    (drive : DriveParams) (actionListFile : Option ActionListFile) (events : List TaskEvent) :
    modifyDriveSystem.Always EndsIfInterrupted
        (start request receivedOpinions drive actionListFile) events ↔
      modifyDriveSystem.Meets InterruptedInTime
        (start request receivedOpinions drive actionListFile) events := by
  have notInterrupted := taskIsInterrupted_start request receivedOpinions drive actionListFile
  apply Transition.always_iff_meets (E := fun _ _ => True) (I := EndsIfInterrupted)
  · exact fun task ends => ends
  · exact fun task event after ends _ inTime step => ends.step inTime step
  · exact fun task event _ _ late => step_of_not_inTime late
  · intro interrupted
    rw [notInterrupted] at interrupted
    cases interrupted
  · exact Transition.meets_of_forall fun _ _ => trivial

end SiriusDrive.ModifyDriveTask
