import SiriusDrive.ModifyDriveTask.DriveSpace
import SiriusDrive.ModifyDriveTask.SandboxSteps

/-! # The signed sizes

The sizes of an opinion belong to the tree it reports as long as the tree of the sandbox
is not exchanged without them. A task that fails does so: it takes the tree of the drive
back and keeps the sizes it has.
-/

namespace SiriusDrive

variable (files : SandboxFiles)

/-- The sizes of the sandbox and of the own opinion are those of the trees they are for. -/
structure SandboxView.SizesFit (view : SandboxView) : Prop where
  sandbox : ∀ fsTree, view.sandboxFsTree = some fsTree → ∃ rootHash,
    view.sandboxRootHash = some rootHash ∧
      files.Measures fsTree rootHash view.metaFilesSize view.sandboxDriveSize view.fsTreeSize
  opinion : ∀ opinion, view.myOpinion = some opinion → ∃ fsTree,
    files.Measures fsTree opinion.rootHash opinion.metaFilesSize opinion.driveSize
      opinion.fsTreeFileSize

/-- The root hash of the sandbox, which outlives its tree, is still measured by the sizes. -/
structure SandboxView.Measured (view : SandboxView) : Prop extends view.SizesFit files where
  rootHash : ∀ rootHash, view.sandboxRootHash = some rootHash → ∃ fsTree,
    files.Measures fsTree rootHash view.metaFilesSize view.sandboxDriveSize view.fsTreeSize

namespace ModifyDriveTask

/-- The sizes a failed task goes on with are those of the tree it takes back. -/
def CopiesMeasured (task : ModifyDriveTask) (event : TaskEvent) : Prop :=
  task.CopiesDrive event →
    files.Measures task.drive.fsTree task.drive.rootHash task.metaFilesSize task.sandboxDriveSize
      task.fsTreeSize

instance (task : ModifyDriveTask) (event : TaskEvent) : Decidable (task.CopiesMeasured files event) :=
  inferInstanceAs (Decidable (_ → _))

/-- What the actions make of the tree is measured by the task. -/
def MeasuresResult : TaskEvent → Prop
  | .runBackgroundJob (.sandbox result) =>
      files.Measures result.fsTree result.rootHash result.metaFilesSize result.sandboxDriveSize
        result.fsTreeSize
  | _ => True

variable {files} {task after : ModifyDriveTask} {event : TaskEvent}

theorem measured_calculated {view : SandboxView} (measured : view.Measured files)
    {fsTree : FsTree} {rootHash : InfoHash} {metaFilesSize sandboxDriveSize fsTreeSize : Nat}
    (measures : files.Measures fsTree rootHash metaFilesSize sandboxDriveSize fsTreeSize) :
    { view with
      sandboxFsTree := some fsTree
      sandboxRootHash := some rootHash
      metaFilesSize, sandboxDriveSize, fsTreeSize }.Measured files where
  sandbox := by
    rintro _ ⟨⟩
    exact ⟨rootHash, rfl, measures⟩
  opinion := measured.opinion
  rootHash := by
    rintro _ ⟨⟩
    exact ⟨fsTree, measures⟩

/-- A step keeps the sizes with their trees, unless a failed task takes back a tree that has
    other sizes. -/
theorem measured_step (measured : task.sandboxView.Measured files)
    (result : MeasuresResult files event) (copies : task.CopiesMeasured files event)
    (step : modifyDriveSystem.step task event = some after) :
    after.sandboxView.Measured files := by
  cases sandboxStep_of_step step with
  | keeps same =>
      have isView : after.sandboxView = task.sandboxView := congrArg Prod.fst same
      rw [isView]
      exact measured
  | calculates result isEvent isView =>
      subst isEvent
      rw [show after.sandboxView = _ from congrArg Prod.fst isView]
      exact measured_calculated measured result
  | copiesDrive copiesDrive isView =>
      rw [show after.sandboxView = _ from congrArg Prod.fst isView]
      exact measured_calculated measured (copies copiesDrive)
  | formsOpinion rootHash isCalculated isView =>
      rw [show after.sandboxView = _ from congrArg Prod.fst isView]
      have reported := measured.rootHash rootHash isCalculated
      have opinion : ∀ opinion, some (task.formMyOpinion task.request.transactionHash rootHash) =
          some opinion → ∃ fsTree, files.Measures fsTree opinion.rootHash opinion.metaFilesSize
            opinion.driveSize opinion.fsTreeFileSize := by
        rintro _ ⟨⟩
        exact reported
      exact { measured with opinion }
  | completes rootHash fsTree isCalculated isSandbox isView =>
      rw [show after.sandboxView = _ from congrArg Prod.fst isView]
      exact
        { measured with
          sandbox := fun _ isTree => by cases isTree }

theorem not_sizesFit_of_copies (copies : task.CopiesDrive event)
    (other : ¬ files.Measures task.drive.fsTree task.drive.rootHash task.metaFilesSize
      task.sandboxDriveSize task.fsTreeSize) :
    ∃ after, modifyDriveSystem.step task event = some after ∧
      ¬ after.sandboxView.SizesFit files := by
  obtain ⟨running, isHead, done⟩ := copies
  obtain rfl := TaskEvent.isDone_iff.mp done
  cases jobs : task.backgroundJobs with
  | nil =>
      rw [jobs] at isHead
      cases isHead
  | cons job rest =>
      rw [jobs, List.head?_cons] at isHead
      obtain rfl := Option.some.inj isHead
      refine ⟨_, step_runBackgroundJob running jobs (.fileSystem .done), ?_⟩
      intro fit
      obtain ⟨rootHash, isRoot, measures⟩ := fit.sandbox task.drive.fsTree rfl
      cases isRoot
      exact other measures

/-- In every run of a modification whose sandboxes are measured, the sizes of the sandbox and of
    the own opinion are those of their trees if and only if a failed task takes the tree of the
    drive back only with the sizes of that tree. -/
theorem sizesFit_iff (files : SandboxFiles) (request : ModificationRequest)
    (receivedOpinions : ReceivedOpinions) (drive : DriveParams)
    (actionListFile : Option ActionListFile) (events : List TaskEvent)
    (measures : ∀ event ∈ events, MeasuresResult files event) :
    modifyDriveSystem.Always (fun task => task.sandboxView.SizesFit files)
        (start request receivedOpinions drive actionListFile) events ↔
      modifyDriveSystem.Meets (CopiesMeasured files)
        (start request receivedOpinions drive actionListFile) events := by
  have noSandbox : (start request receivedOpinions drive actionListFile).sandboxView.Measured files := by
    have isView : (start request receivedOpinions drive actionListFile).sandboxView =
        (create request receivedOpinions drive actionListFile).sandboxView := by
      simp only [start, run]
      split <;> rfl
    rw [isView]
    constructor
    · constructor
      · rintro _ ⟨⟩
      · rintro _ ⟨⟩
    · rintro _ ⟨⟩
  apply Transition.always_iff_meets (E := fun _ event => MeasuresResult files event)
    (I := fun task => task.sandboxView.Measured files)
  · intro task measured
    exact measured.toSizesFit
  · intro task event after measured result copies step
    exact measured_step measured result copies step
  · intro task event measured result misses
    rw [CopiesMeasured, Classical.not_imp] at misses
    exact not_sizesFit_of_copies misses.1 misses.2
  · exact noSandbox
  · exact Transition.meets_of_forall measures

/-- A drive whose own tree is the empty one. -/
def emptyDrive : DriveParams := { sampleDrive with rootHash := 8 }

/-- The tree of a list without actions does not fit, and that of the drive, which is the same one,
    is taken back. -/
def rejectedOpinion : List TaskEvent :=
  [.metadataReceived 0 5 true, .torrentFinished 0, .runBackgroundJob (.fileSystem .done),
    .runSessionJob, .runBackgroundJob (.fileSystem .done), .runSessionJob,
    .runBackgroundJob (.sandbox (emptyDriveResult 400 300)), .runSessionJob,
    .runBackgroundJob (.fileSystem .done)] ++ ownOpinion

theorem rejectedOpinion_fits :
    modifyDriveSystem.Reaches
        (fun task => task.CopiesDrive (.runBackgroundJob (.fileSystem .done)))
        (start sampleRequest ∅ emptyDrive (some (.actions []))) (rejectedOpinion.take 8) ∧
      modifyDriveSystem.Reaches
        (fun task => task.myOpinion.any (·.driveSize = 700) = true)
        (start sampleRequest ∅ emptyDrive (some (.actions []))) rejectedOpinion ∧
      modifyDriveSystem.Always (fun task => task.sandboxView.SizesFit (emptyDriveFiles 400 300))
        (start sampleRequest ∅ emptyDrive (some (.actions []))) rejectedOpinion := by
  have measures : ∀ event ∈ rejectedOpinion, MeasuresResult (emptyDriveFiles 400 300) event := by
    simp only [rejectedOpinion, ownOpinion, List.cons_append, List.nil_append, List.forall_mem_cons]
    refine ⟨trivial, trivial, trivial, trivial, trivial, trivial, ?_, trivial, trivial, trivial,
      trivial, trivial, by simp⟩
    unfold MeasuresResult
    decide +kernel
  refine ⟨by decide +kernel, by decide +kernel, ?_⟩
  exact (sizesFit_iff (emptyDriveFiles 400 300) sampleRequest ∅ emptyDrive (some (.actions []))
    rejectedOpinion measures).mpr (by decide +kernel)

/-- A download fails, and the tree of the drive is signed with the size zero. -/
theorem failedDownload_signs_zero :
    ¬ ∀ (files : SandboxFiles) (request : ModificationRequest)
        (receivedOpinions : ReceivedOpinions) (drive : DriveParams)
        (actionListFile : Option ActionListFile) (events : List TaskEvent),
      (∀ event ∈ events, MeasuresResult files event) →
        modifyDriveSystem.Always (fun task => task.sandboxView.SizesFit files)
          (start request receivedOpinions drive actionListFile) events := by
  intro all
  have fits := all (emptyDriveFiles 300 200) sampleRequest ∅ sampleDrive (some (.actions []))
    ([.metadataReceived 0 5 false, .runBackgroundJob (.fileSystem .done), .runSessionJob,
      .runBackgroundJob (.fileSystem .done)] ++ ownOpinion)
    (by simp [ownOpinion, MeasuresResult])
  have signed : modifyDriveSystem.Reaches
      (fun task => task.myOpinion.map (·.fsTreeFileSize) = some 0) sampleTask
      ([.metadataReceived 0 5 false, .runBackgroundJob (.fileSystem .done), .runSessionJob,
        .runBackgroundJob (.fileSystem .done)] ++ ownOpinion) := by
    decide +kernel
  obtain ⟨task, run, isZero⟩ := signed
  rw [Option.map_eq_some_iff] at isZero
  obtain ⟨opinion, isOpinion, size⟩ := isZero
  obtain ⟨fsTree, -, -, treeSize⟩ := (fits.last run).opinion opinion isOpinion
  rw [size] at treeSize
  revert treeSize
  simp [emptyDriveFiles, SandboxFiles.sandboxFsTreeSize, u64]

end ModifyDriveTask

end SiriusDrive
