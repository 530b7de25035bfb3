import Mathlib.Data.List.Dedup
import SiriusDrive.ModifyDriveTask.Opinions

/-! # The approvals of a modification task

What the approval transactions of a modification task contain, how many
replicators stand behind them and whether a failed one is tried again. Each
result names the steps at which the task leaves it to chance.
-/

namespace SiriusDrive

/-- The replicators whose opinions a call carries, each of them once. -/
def SentApproval.replicators (sent : SentApproval) : List ReplicatorKey :=
  (sent.info.opinions.map (·.replicatorKey)).dedup

namespace ModifyDriveTask

/-! ## A sample run -/

/-- A drive with three other replicators; our own key is 9. -/
def sampleDrive : DriveParams where
  driveKey := 100
  driveOwner := 101
  maxSize := 1000
  replicatorKey := 9
  minReplicatorsNumber := 0
  allReplicators := [1, 2, 3]
  modifyDonatorShard := [1, 2, 3]
  opinionController := { clientKey := 101, approvedExpectedCumulativeDownload := 0 }
  rootHash := 7
  lastApprovedModification := 50
  fsTree := .mk "/" .nil
  fsTreeLtHandle := none

def sampleRequest : ModificationRequest where
  clientDataInfoHash := 20
  transactionHash := 60
  maxDataSize := 10

/-- A task for a modification whose action list is empty. -/
def sampleTask : ModifyDriveTask := start sampleRequest ∅ sampleDrive (some (.actions []))

def sampleSandbox : SandboxResult where
  fsTree := .mk "/" .nil
  rootHash := 8
  metaFilesSize := 1
  sandboxDriveSize := 3
  fsTreeSize := 1

/-- The steps of the sample until the own opinion is going to be formed. -/
def untilOwnOpinion : List TaskEvent :=
  [.metadataReceived 0 5 true, .torrentFinished 0, .runBackgroundJob (.fileSystem .done),
    .runSessionJob, .runBackgroundJob (.fileSystem .done), .runSessionJob,
    .runBackgroundJob (.sandbox sampleSandbox), .runSessionJob,
    .runBackgroundJob (.fileSystem .done)]

/-- The own opinion is formed, saved and shared. -/
def ownOpinion : List TaskEvent :=
  [.runSessionJob, .runBackgroundJob (.fileSystem .done), .runSessionJob]

def sampleOpinion (replicatorKey : ReplicatorKey) (rootHash : InfoHash) :
    ApprovalTransactionInfo where
  driveKey := 100
  modifyTransactionHash := 60
  rootHash := rootHash
  status := .success
  fsTreeFileSize := 1
  metaFilesSize := 1
  driveSize := 3
  opinions := [⟨replicatorKey, []⟩]
  opinions_ne := List.cons_ne_nil _ _

example : modifyDriveSystem.Reaches
    (fun task => task.sandboxCalculated = true ∧ task.shareMyOpinionTimer = .pending)
    sampleTask (untilOwnOpinion ++ ownOpinion) := by
  decide +kernel

variable (task : ModifyDriveTask)

/-- All received opinions agree with an opinion. -/
def ReceivedAgree (myOpinion : ApprovalTransactionInfo) : Prop :=
  ∀ opinion ∈ task.receivedOpinions.toList.map Prod.snd, validateOpinion myOpinion opinion = true

def ApprovalIsOpen : Prop :=
  task.modifyApproveTransactionSent = false ∧ task.modifyApproveTxReceived = false

instance (myOpinion : ApprovalTransactionInfo) : Decidable (task.ReceivedAgree myOpinion) :=
  inferInstanceAs (Decidable (∀ opinion ∈ _, _))

instance : Decidable task.ApprovalIsOpen := inferInstanceAs (Decidable (_ ∧ _))

/-- The replicator number the task compares with. -/
def replicatorNumber : Nat :=
  SiriusDrive.replicatorNumber task.drive.minReplicatorsNumber task.drive.allReplicators.length

/-! ## The content of an approval -/

/-- From the own opinion to the step that validates the others, no approval goes
    out with a received opinion that disagrees: neither by the opinion that
    completes them nor by the timer. -/
def ValidatesBeforeSending : TaskEvent → Prop
  | .runSessionJob =>
      task.sessionJobs.head? = some .onCumulativeUploadsUpdated →
        task.sandboxCalculated = true → task.modifyApproveTxReceived = false →
          ∀ rootHash ∈ task.sandboxRootHash,
            task.ReceivedAgree (task.formMyOpinion task.request.transactionHash rootHash)
  | .opinionReceived anOpinion =>
      task.request.transactionHash = anOpinion.modifyTransactionHash →
        task.sandboxCalculated = false → task.ApprovalIsOpen →
          task.drive.allReplicators.length ≤ (task.storeOpinion anOpinion).receivedOpinions.size →
            ∀ myOpinion ∈ task.myOpinion, validateOpinion myOpinion anOpinion = true →
              (task.storeOpinion anOpinion).ReceivedAgree myOpinion
  | .modifyOpinionTimerExpired =>
      task.sandboxCalculated = false → task.ApprovalIsOpen →
        ∀ myOpinion ∈ task.myOpinion, task.ReceivedAgree myOpinion
  | _ => True

instance : ∀ event, Decidable (task.ValidatesBeforeSending event)
  | .runSessionJob => inferInstanceAs (Decidable (_ → _ → _ → ∀ _ ∈ _, _))
  | .opinionReceived _ => inferInstanceAs (Decidable (_ → _ → _ → _ → ∀ _ ∈ _, _ → _))
  | .modifyOpinionTimerExpired => inferInstanceAs (Decidable (_ → _ → ∀ _ ∈ _, _))
  | .runBackgroundJob .. | .torrentsRemoved .. | .metadataReceived .. | .torrentFinished ..
  | .pieceReceived .. | .shareMyOpinionTimerExpired | .approvalTxPublished .. | .approvalTxFailed ..
  | .cancelModify .. | .driveClose | .manualSynchronize | .terminate | .setReplicators ..
  | .setMinReplicatorsNumber .. | .chunkInfoReceived .. | .finishStream .. =>
      inferInstanceAs (Decidable True)

theorem ReceivedAgree.allAgree {task : ModifyDriveTask} {myOpinion : ApprovalTransactionInfo}
    (agree : task.ReceivedAgree myOpinion) (key : ReplicatorKey) (opinion : ApprovalTransactionInfo)
    (found : task.receivedOpinions[key]? = some opinion) :
    validateOpinion myOpinion opinion = true :=
  agree opinion (Collection.mem_others.mpr ⟨key, found⟩)

theorem windowAgrees {event : TaskEvent} {collected : CollectionEvent ApprovalTransactionInfo}
    (validates : task.ValidatesBeforeSending event)
    (found : task.collectionEvent event = some collected) :
    task.collection.WindowAgrees ApprovalTransactionInfo.replicatorKey validateOpinion collected := by
  cases event with
  | runSessionJob =>
      obtain ⟨job, isHead, isEvent⟩ := Option.bind_eq_some_iff.mp found
      cases job with
      | onCumulativeUploadsUpdated =>
          simp only [sessionJobEvent] at isEvent
          split at isEvent
          · simp at isEvent
          · obtain ⟨rootHash, isRoot, rfl⟩ := Option.map_eq_some_iff.mp isEvent
            intro validated opened own isOwn
            obtain rfl := Option.some.inj isOwn
            exact (validates isHead validated opened rootHash isRoot).allAgree
      | myOpinionIsCreated =>
          simp only [sessionJobEvent] at isEvent
          split at isEvent
          · simp at isEvent
          · obtain ⟨-, -, rfl⟩ := Option.map_eq_some_iff.mp isEvent
            trivial
      | _ => simp [sessionJobEvent] at isEvent
  | opinionReceived anOpinion =>
      simp only [collectionEvent] at found
      split at found
      · rename_i about
        obtain rfl := Option.some.inj found
        intro own isOwn agrees unchecked unsent opened complete own' isOwn'
        obtain rfl : own = own' := Option.some.inj (isOwn.symm.trans isOwn')
        exact (validates about unchecked ⟨unsent, opened⟩ complete own isOwn agrees).allAgree
      · simp at found
  | modifyOpinionTimerExpired =>
      obtain rfl := Option.some.inj found
      intro unchecked unsent opened own isOwn
      exact (validates unchecked ⟨unsent, opened⟩ own isOwn).allAgree
  | approvalTxPublished =>
      obtain ⟨-, rfl⟩ : task.taskIsInterrupted = false ∧ .close = collected := by
        simpa [collectionEvent] using found
      trivial
  | approvalTxFailed transactionHash =>
      obtain ⟨-, rfl⟩ : (task.request.transactionHash = transactionHash ∧
          task.taskIsInterrupted = false) ∧ .fail = collected := by
        simpa [collectionEvent] using found
      trivial
  | terminate | setReplicators | setMinReplicatorsNumber =>
      obtain rfl := Option.some.inj found
      trivial
  | _ => simp [collectionEvent] at found

variable {task} {request : ModificationRequest} {receivedOpinions : ReceivedOpinions}
  {drive : DriveParams} {actionListFile : Option ActionListFile} {events : List TaskEvent}

theorem collection_start_ownFirst :
    (start request receivedOpinions drive actionListFile).collection.OwnFirst := by
  rw [collection_start]
  exact ⟨fun validated => by simp at validated, fun set => by simp at set⟩

/-- The opinions in the approvals of a task agree with its own one. -/
theorem sent_opinions_agree
    (validates : modifyDriveSystem.Meets ValidatesBeforeSending
      (start request receivedOpinions drive actionListFile) events)
    (run : modifyDriveSystem.exec (start request receivedOpinions drive actionListFile) events =
      some task) :
    ∀ sent ∈ task.sentApprovals, ∀ opinion ∈ sent.builtFrom,
      validateOpinion sent.myOpinion opinion = true := by
  have empty : (start request receivedOpinions drive actionListFile).collection.Agreed
      validateOpinion := by
    rw [collection_start]
    exact ⟨fun validated => by simp at validated, fun e member => by simp at member⟩
  have window := simulates_collection.meets
    (fun task _ _ _ validates _ found => task.windowAgrees validates found) validates
  have agreed := empty.run ApprovalTransactionInfo.replicatorKey collection_start_ownFirst window
    (simulates_collection.run run)
  intro sent member opinion inside
  exact agreed.emitted ⟨sent.myOpinion, sent.builtFrom⟩
    (List.mem_map.mpr ⟨sent, member, rfl⟩) opinion inside

/-- A disagreeing opinion that comes first is dropped before the others complete. -/
theorem sent_opinions_agree_after_validation :
    modifyDriveSystem.Reaches
      (fun task => task.sentApprovals.length = 1 ∧ ∀ sent ∈ task.sentApprovals,
        ∀ opinion ∈ sent.builtFrom, validateOpinion sent.myOpinion opinion = true)
      sampleTask (untilOwnOpinion ++ .opinionReceived (sampleOpinion 1 4) :: ownOpinion ++
        [.opinionReceived (sampleOpinion 2 8), .opinionReceived (sampleOpinion 3 8),
          .opinionReceived (sampleOpinion 1 8)]) := by
  obtain ⟨task, run, one⟩ : modifyDriveSystem.Reaches (·.sentApprovals.length = 1)
      sampleTask (untilOwnOpinion ++ .opinionReceived (sampleOpinion 1 4) :: ownOpinion ++
        [.opinionReceived (sampleOpinion 2 8), .opinionReceived (sampleOpinion 3 8),
          .opinionReceived (sampleOpinion 1 8)]) := by decide +kernel
  exact ⟨task, run, one, sent_opinions_agree (by decide +kernel) run⟩

/-- The opinion of replicator 1 has another root hash. It comes before the own
    opinion, the other two between the own opinion and the validation: all three
    are sent. -/
theorem disagreeing_opinion_is_sent :
    modifyDriveSystem.Reaches
      (fun task => ¬ ∀ sent ∈ task.sentApprovals,
        ∀ opinion ∈ sent.builtFrom, validateOpinion sent.myOpinion opinion = true)
      sampleTask (untilOwnOpinion ++
        [.opinionReceived (sampleOpinion 1 4), .runSessionJob,
          .opinionReceived (sampleOpinion 2 8), .opinionReceived (sampleOpinion 3 8)]) := by
  decide +kernel

/-! ## The replicators behind an approval -/

section Quorum

variable (task)

/-- The lists of replicators do not change and the opinions received are those of
    other replicators. While the opinion timer is pending, neither a failed approval
    nor the validation takes the task below the replicator number. -/
def KeepsReplicatorNumber : TaskEvent → Prop
  | .opinionReceived anOpinion =>
      task.request.transactionHash = anOpinion.modifyTransactionHash →
        anOpinion.replicatorKey ≠ task.drive.replicatorKey
  | .runSessionJob =>
      task.sessionJobs.head? = some .myOpinionIsCreated → task.taskIsInterrupted = false →
        task.modifyApproveTxReceived = false → task.modifyOpinionTimer = .pending →
          ∀ myOpinion ∈ task.myOpinion, task.replicatorNumber ≤
            (task.receivedOpinions.filter fun _ opinion => validateOpinion myOpinion opinion).size
  | .approvalTxFailed transactionHash =>
      task.request.transactionHash = transactionHash → task.taskIsInterrupted = false →
        task.modifyApproveTxReceived = false → task.modifyOpinionTimer ≠ .pending
  | .setReplicators _ | .setMinReplicatorsNumber _ => False
  | _ => True

instance : ∀ event, Decidable (task.KeepsReplicatorNumber event)
  | .opinionReceived _ => inferInstanceAs (Decidable (_ → _ ≠ _))
  | .runSessionJob => inferInstanceAs (Decidable (_ → _ → _ → _ → ∀ _ ∈ _, _))
  | .approvalTxFailed _ => inferInstanceAs (Decidable (_ → _ → _ → _ ≠ _))
  | .setReplicators _ | .setMinReplicatorsNumber _ => inferInstanceAs (Decidable False)
  | .runBackgroundJob .. | .torrentsRemoved .. | .metadataReceived .. | .torrentFinished ..
  | .pieceReceived .. | .modifyOpinionTimerExpired | .shareMyOpinionTimerExpired
  | .approvalTxPublished .. | .cancelModify .. | .driveClose | .manualSynchronize | .terminate
  | .chunkInfoReceived .. | .finishStream .. => inferInstanceAs (Decidable True)

theorem keepsQuorum {event : TaskEvent} {collected : CollectionEvent ApprovalTransactionInfo}
    (keeps : task.KeepsReplicatorNumber event)
    (found : task.collectionEvent event = some collected) :
    task.collection.KeepsQuorum SiriusDrive.replicatorNumber validateOpinion collected ∧
      task.collection.KnowsAuthors ApprovalTransactionInfo.replicatorKey collected := by
  cases event with
  | runSessionJob =>
      obtain ⟨job, isHead, isEvent⟩ := Option.bind_eq_some_iff.mp found
      cases job with
      | onCumulativeUploadsUpdated =>
          simp only [sessionJobEvent] at isEvent
          split at isEvent
          · simp at isEvent
          · obtain ⟨rootHash, -, rfl⟩ := Option.map_eq_some_iff.mp isEvent
            exact ⟨trivial, rfl⟩
      | myOpinionIsCreated =>
          simp only [sessionJobEvent] at isEvent
          split at isEvent
          · simp at isEvent
          · rename_i running
            obtain ⟨-, -, rfl⟩ := Option.map_eq_some_iff.mp isEvent
            refine ⟨fun opened pending own isOwn => ?_, trivial⟩
            exact keeps isHead (by simpa using running) opened pending own isOwn
      | _ => simp [sessionJobEvent] at isEvent
  | opinionReceived anOpinion =>
      simp only [collectionEvent] at found
      split at found
      · rename_i about
        obtain rfl := Option.some.inj found
        exact ⟨trivial, keeps about⟩
      · simp at found
  | modifyOpinionTimerExpired | terminate =>
      obtain rfl := Option.some.inj found
      exact ⟨trivial, trivial⟩
  | approvalTxPublished =>
      obtain ⟨-, rfl⟩ : task.taskIsInterrupted = false ∧ .close = collected := by
        simpa [collectionEvent] using found
      exact ⟨trivial, trivial⟩
  | approvalTxFailed transactionHash =>
      obtain ⟨⟨about, running⟩, rfl⟩ : (task.request.transactionHash = transactionHash ∧
          task.taskIsInterrupted = false) ∧ .fail = collected := by
        simpa [collectionEvent] using found
      refine ⟨?_, trivial⟩
      cases received : task.modifyApproveTxReceived with
      | true => exact .inl received
      | false => exact .inr (keeps about running received)
  | setReplicators | setMinReplicatorsNumber => exact keeps.elim
  | _ => simp [collectionEvent] at found

variable {task}

/-- The calls of a run carry the opinions of so many other replicators, and each of
    the replicators once. -/
theorem sent_opinions_counted
    (keeps : modifyDriveSystem.Meets KeepsReplicatorNumber
      (start request receivedOpinions drive actionListFile) events)
    (run : modifyDriveSystem.exec (start request receivedOpinions drive actionListFile) events =
      some task) :
    ∀ sent ∈ task.sentApprovals,
      (drive.allReplicators.length ≤ sent.builtFrom.length ∨
        SiriusDrive.replicatorNumber drive.minReplicatorsNumber drive.allReplicators.length ≤
          sent.builtFrom.length) ∧
      (sent.info.opinions.map (·.replicatorKey)).Nodup := by
  have both : opinionSystem.Meets (fun collection event =>
      collection.KeepsQuorum SiriusDrive.replicatorNumber validateOpinion event ∧
        collection.KnowsAuthors ApprovalTransactionInfo.replicatorKey event) _ _ :=
    simulates_collection.meets (fun task _ _ _ keeps _ found => task.keepsQuorum keeps found) keeps
  have quorate : (start request receivedOpinions drive actionListFile).collection.Quorate
      SiriusDrive.replicatorNumber drive.allReplicators.length drive.minReplicatorsNumber := by
    rw [collection_start]
    exact ⟨rfl, rfl, fun pending => by simp at pending, fun e member => by simp at member⟩
  have authored : (start request receivedOpinions drive actionListFile).collection.Authored
      ApprovalTransactionInfo.replicatorKey := by
    rw [collection_start]
    exact ⟨fun own isOwn => by simp at isOwn, fun k opinion found => by simp at found,
      fun e member => by simp at member⟩
  have enough := quorate.run (both.mono fun _ _ keeps => keeps.1) (simulates_collection.run run)
  have distinct := authored.run (both.mono fun _ _ keeps => keeps.2) (simulates_collection.run run)
  intro sent member
  have emitted : (⟨sent.myOpinion, sent.builtFrom⟩ : Emission ApprovalTransactionInfo) ∈
      task.collection.emissions := List.mem_map.mpr ⟨sent, member, rfl⟩
  refine ⟨enough.emitted _ emitted, ?_⟩
  have keys : sent.info.opinions.map (·.replicatorKey) =
      (sent.myOpinion :: sent.builtFrom).map ApprovalTransactionInfo.replicatorKey := by
    simp only [SentApproval.info, approvalTransaction, List.map_cons, List.map_map]
    rfl
  rw [keys]
  exact distinct.emitted _ emitted

/-- More than two thirds of the replicators stand behind every approval of a task,
    if the other replicators and our own are more than two thirds of the minimum. -/
theorem sent_approvals_have_two_thirds
    (fits : drive.allReplicators.length < 2 ^ 58)
    (minimum : 2 * drive.minReplicatorsNumber < 3 * (drive.allReplicators.length + 1))
    (keeps : modifyDriveSystem.Meets KeepsReplicatorNumber
      (start request receivedOpinions drive actionListFile) events)
    (run : modifyDriveSystem.exec (start request receivedOpinions drive actionListFile) events =
      some task) :
    ∀ sent ∈ task.sentApprovals,
      2 * max drive.minReplicatorsNumber (drive.allReplicators.length + 1) <
        3 * sent.replicators.length := by
  intro sent member
  obtain ⟨enough, distinct⟩ := sent_opinions_counted keeps run sent member
  have count : sent.replicators.length = sent.builtFrom.length + 1 := by
    rw [SentApproval.replicators, distinct.dedup]
    simp [SentApproval.info, approvalTransaction]
  have small : max drive.minReplicatorsNumber (drive.allReplicators.length + 1) * 2 < 2 ^ 64 := by
    omega
  rw [SiriusDrive.replicatorNumber, u64_of_lt small] at enough
  rw [count]
  omega

/-- Two of three other replicators and the timer make an approval of three in four. -/
theorem sent_approvals_have_two_thirds_by_timer :
    modifyDriveSystem.Reaches
      (fun task => task.sentApprovals.length = 1 ∧ ∀ sent ∈ task.sentApprovals,
        2 * max sampleDrive.minReplicatorsNumber (sampleDrive.allReplicators.length + 1) <
          3 * sent.replicators.length)
      sampleTask (untilOwnOpinion ++ ownOpinion ++
        [.opinionReceived (sampleOpinion 1 8), .opinionReceived (sampleOpinion 2 8),
          .modifyOpinionTimerExpired]) := by
  obtain ⟨task, run, one⟩ : modifyDriveSystem.Reaches (·.sentApprovals.length = 1)
      sampleTask (untilOwnOpinion ++ ownOpinion ++
        [.opinionReceived (sampleOpinion 1 8), .opinionReceived (sampleOpinion 2 8),
          .modifyOpinionTimerExpired]) := by decide +kernel
  exact ⟨task, run, one,
    sent_approvals_have_two_thirds (by decide) (by decide) (by decide +kernel) run⟩

/-- A minimum of ten replicators is not asked for once all three others have
    answered. A failed approval leaves the timer pending, and it sends the own
    opinion alone. -/
theorem approval_of_few_replicators_is_sent :
    modifyDriveSystem.Reaches
      (fun task => ∃ sent ∈ task.sentApprovals,
        ¬ 2 * max task.drive.minReplicatorsNumber (task.drive.allReplicators.length + 1) <
          3 * sent.replicators.length)
      (start sampleRequest ∅ { sampleDrive with minReplicatorsNumber := 10 } (some (.actions [])))
      (untilOwnOpinion ++ ownOpinion ++
        [.opinionReceived (sampleOpinion 1 8), .opinionReceived (sampleOpinion 2 8),
          .opinionReceived (sampleOpinion 3 8)]) ∧
    modifyDriveSystem.Reaches
      (fun task => ∃ sent ∈ task.sentApprovals,
        ¬ 2 * max task.drive.minReplicatorsNumber (task.drive.allReplicators.length + 1) <
          3 * sent.replicators.length)
      sampleTask (untilOwnOpinion ++ ownOpinion ++
        [.opinionReceived (sampleOpinion 1 8), .opinionReceived (sampleOpinion 2 8),
          .approvalTxFailed 60, .modifyOpinionTimerExpired]) := by
  decide +kernel

end Quorum

/-! ## Another attempt after a failed one -/

section Retry

variable (task)

/-- The failures that start another attempt come before the opinion timer has fired,
    the task is not terminated and no change of the replicators turns what has been
    received into a quorum. -/
def KeepsRetrying : TaskEvent → Prop
  | .approvalTxFailed transactionHash =>
      task.request.transactionHash = transactionHash → task.taskIsInterrupted = false →
        task.modifyApproveTxReceived = false → task.modifyOpinionTimer ≠ .expired
  | .terminate => False
  | .setReplicators replicatorKeys =>
      let number := SiriusDrive.replicatorNumber task.drive.minReplicatorsNumber replicatorKeys.length
      0 < number ∧
        (number ≤ task.receivedOpinions.size → task.replicatorNumber ≤ task.receivedOpinions.size)
  | .setMinReplicatorsNumber minimum =>
      let number := SiriusDrive.replicatorNumber minimum task.drive.allReplicators.length
      0 < number ∧
        (number ≤ task.receivedOpinions.size → task.replicatorNumber ≤ task.receivedOpinions.size)
  | _ => True

instance : ∀ event, Decidable (task.KeepsRetrying event)
  | .approvalTxFailed _ => inferInstanceAs (Decidable (_ → _ → _ → _ ≠ _))
  | .setReplicators _ | .setMinReplicatorsNumber _ => inferInstanceAs (Decidable (_ ∧ (_ → _)))
  | .terminate => inferInstanceAs (Decidable False)
  | .runSessionJob | .runBackgroundJob .. | .torrentsRemoved .. | .metadataReceived ..
  | .torrentFinished .. | .pieceReceived .. | .modifyOpinionTimerExpired
  | .shareMyOpinionTimerExpired | .opinionReceived .. | .approvalTxPublished .. | .cancelModify ..
  | .driveClose | .manualSynchronize | .chunkInfoReceived .. | .finishStream .. =>
      inferInstanceAs (Decidable True)

theorem retriable {event : TaskEvent} {collected : CollectionEvent ApprovalTransactionInfo}
    (keeps : task.KeepsRetrying event) (found : task.collectionEvent event = some collected) :
    task.collection.Retriable SiriusDrive.replicatorNumber collected := by
  cases event with
  | runSessionJob =>
      obtain ⟨job, -, isEvent⟩ := Option.bind_eq_some_iff.mp found
      cases job with
      | onCumulativeUploadsUpdated | myOpinionIsCreated =>
          simp only [sessionJobEvent] at isEvent
          split at isEvent
          · simp at isEvent
          · obtain ⟨-, -, rfl⟩ := Option.map_eq_some_iff.mp isEvent
            trivial
      | _ => simp [sessionJobEvent] at isEvent
  | opinionReceived anOpinion =>
      obtain ⟨-, rfl⟩ : task.request.transactionHash = anOpinion.modifyTransactionHash ∧
          .receive anOpinion = collected := by simpa [collectionEvent] using found
      trivial
  | modifyOpinionTimerExpired =>
      obtain rfl := Option.some.inj found
      trivial
  | approvalTxPublished =>
      obtain ⟨-, rfl⟩ : task.taskIsInterrupted = false ∧ .close = collected := by
        simpa [collectionEvent] using found
      trivial
  | approvalTxFailed transactionHash =>
      obtain ⟨⟨about, running⟩, rfl⟩ : (task.request.transactionHash = transactionHash ∧
          task.taskIsInterrupted = false) ∧ .fail = collected := by
        simpa [collectionEvent] using found
      cases received : task.modifyApproveTxReceived with
      | true => exact .inl received
      | false => exact .inr (keeps about running received)
  | setReplicators | setMinReplicatorsNumber =>
      obtain rfl := Option.some.inj found
      exact keeps
  | terminate => exact keeps.elim
  | _ => simp [collectionEvent] at found

variable {task} {after : ModifyDriveTask} {later : List TaskEvent}

/-- After a failed approval the opinion timer is pending whenever a replicator number
    of validated opinions has come again and nothing was sent or published. -/
theorem retry_has_pending_timer
    (reached : modifyDriveSystem.exec (start request receivedOpinions drive actionListFile) events =
      some task)
    (handled : task.taskIsInterrupted = false ∧ task.modifyApproveTxReceived = false)
    (positive : 0 < task.replicatorNumber)
    (keeps : modifyDriveSystem.Meets KeepsRetrying task
      (.approvalTxFailed task.request.transactionHash :: later))
    (run : modifyDriveSystem.exec task
      (.approvalTxFailed task.request.transactionHash :: later) = some after) :
    after.sandboxCalculated = true → after.modifyApproveTxReceived = false →
      after.sentApprovals.length = task.sentApprovals.length →
        after.replicatorNumber ≤ after.receivedOpinions.size →
          after.modifyOpinionTimer = .pending := by
  have ownFirst : task.collection.OwnFirst :=
    Transition.invariant_of_step (fun _ _ _ inv step => inv.step step) collection_start_ownFirst
      (simulates_collection.run reached)
  obtain ⟨failed, step, rest⟩ := (modifyDriveSystem.exec_cons_iff).mp run
  have unfired : task.modifyOpinionTimer ≠ .expired := keeps.1 rfl handled.1 handled.2
  have isFailed : task.collection.fail = failed.collection := by
    have follows := simulates_collection task _ failed step
    simp only [collectionEvent, handled.1, and_self, if_true] at follows
    exact Option.some.inj follows
  have retrying : failed.collection.Retrying SiriusDrive.replicatorNumber
      task.collection.emissions.length := by
    rw [← isFailed]
    exact Collection.fail_retrying positive handled.2 unfired
  have failedOwn : failed.collection.OwnFirst := by
    have failStep : opinionSystem.step task.collection .fail = some failed.collection :=
      congrArg some isFailed
    exact ownFirst.step failStep
  have retried := retrying.run failedOwn
    (simulates_collection.meets (fun task _ _ _ keeps _ found => task.retriable keeps found)
      (keeps.2 failed step))
    (simulates_collection.run rest)
  intro validated opened unchanged enough
  refine retried.armed validated ?_ opened enough
  -- a new emission would have made the list longer
  have same : after.collection.emissions.length = task.collection.emissions.length := by
    simpa [ModifyApprovalTaskBase.collection] using unchanged
  cases sent : after.collection.sent with
  | false => rfl
  | true => exact absurd (retried.resent sent) (by omega)

/-- An approval with all opinions fails, and two opinions start the timer again. -/
theorem retry_has_pending_timer_after_complete_attempt :
    modifyDriveSystem.Reaches
      (fun task => modifyDriveSystem.Reaches (·.modifyOpinionTimer = .pending) task
        [.approvalTxFailed task.request.transactionHash, .opinionReceived (sampleOpinion 1 8),
          .opinionReceived (sampleOpinion 2 8)])
      sampleTask (untilOwnOpinion ++ ownOpinion ++
        [.opinionReceived (sampleOpinion 1 8), .opinionReceived (sampleOpinion 2 8),
          .opinionReceived (sampleOpinion 3 8)]) := by
  obtain ⟨task, reached, handled, positive, keeps, after, run, facts⟩ :
      modifyDriveSystem.Reaches
        (fun task => (task.taskIsInterrupted = false ∧ task.modifyApproveTxReceived = false) ∧
          0 < task.replicatorNumber ∧
          modifyDriveSystem.Meets KeepsRetrying task
            [.approvalTxFailed task.request.transactionHash, .opinionReceived (sampleOpinion 1 8),
              .opinionReceived (sampleOpinion 2 8)] ∧
          modifyDriveSystem.Reaches
            (fun after => after.sandboxCalculated = true ∧ after.modifyApproveTxReceived = false ∧
              after.sentApprovals.length = task.sentApprovals.length ∧
                after.replicatorNumber ≤ after.receivedOpinions.size) task
            [.approvalTxFailed task.request.transactionHash, .opinionReceived (sampleOpinion 1 8),
              .opinionReceived (sampleOpinion 2 8)])
        sampleTask (untilOwnOpinion ++ ownOpinion ++
          [.opinionReceived (sampleOpinion 1 8), .opinionReceived (sampleOpinion 2 8),
            .opinionReceived (sampleOpinion 3 8)]) := by decide +kernel
  obtain ⟨validated, opened, unchanged, enough⟩ := facts
  exact ⟨task, reached, after, run,
    retry_has_pending_timer reached handled positive keeps run validated opened unchanged enough⟩

/-- An approval sent by the timer fails. The timer counts as started for ever: the
    same two opinions come again and no timer is pending. -/
theorem retry_after_timer_is_disabled :
    modifyDriveSystem.Reaches
      (fun task => task.sentApprovals.length = 1 ∧ modifyDriveSystem.Reaches
        (fun after => after.sandboxCalculated = true ∧ after.modifyApproveTxReceived = false ∧
          after.sentApprovals.length = task.sentApprovals.length ∧
          after.replicatorNumber ≤ after.receivedOpinions.size ∧
          after.modifyOpinionTimer ≠ .pending) task
        [.approvalTxFailed task.request.transactionHash, .opinionReceived (sampleOpinion 1 8),
          .opinionReceived (sampleOpinion 2 8)])
      sampleTask (untilOwnOpinion ++ ownOpinion ++
        [.opinionReceived (sampleOpinion 1 8), .opinionReceived (sampleOpinion 2 8),
          .modifyOpinionTimerExpired]) := by
  decide +kernel

end Retry

end ModifyDriveTask

end SiriusDrive
