import SiriusDrive.Lib.Transition
import SiriusDrive.DriveTasks

/-! # The requests of a manual modification

`ManualModificationsTask` serves one request after the other. Most requests post a
step to the background thread, which posts one back to the session thread, where
the request is answered. What the steps do to the drive is said by the functions of
`ManualModificationsTask`; here they are queued, with the callbacks to invoke.
-/

namespace SiriusDrive

/-- A request, as the owner of the callback to be invoked. -/
abbrev RequestId := Nat

/-- `OpenFileMode`. -/
inductive OpenFileMode where
  | read
  | write
  deriving Repr, DecidableEq

/-- The requests that are answered at once in any case. -/
inductive LookUp where
  | pathExist
  | pathIsFile
  | createDirectories
  | folderIteratorCreate
  | folderIteratorDestroy
  | folderIteratorHasNext
  | folderIteratorNext
  deriving Repr, DecidableEq

/-- The requests to the task, with what the look-ups in the sandbox's tree give. -/
inductive ManualRequest where
  | initiateSandboxModifications
  /-- The entry is not locked, and there is a folder (and a file to be read) at the path. -/
  | openFile (mode : OpenFileMode) (isFound : Bool)
  | readFile (fileId : Nat)
  /-- What is written fits the drive. -/
  | writeFile (fileId : Nat) (fits : Bool)
  | flush (fileId : Nat)
  | closeFile (fileId : Nat)
  /-- The entry is there and not locked. -/
  | removeFsTreeEntry (isRemoved : Bool)
  /-- The entries are not locked and `moveFlat` succeeds. -/
  | moveFsTreeEntry (isMoved : Bool)
  /-- There is a file at the path. -/
  | fileSize (isFile : Bool)
  | lookUp (kind : LookUp)
  | applySandboxModifications (success : Bool)
  | evaluateStorageHash
  | applyStorageModifications (success : Bool)
  deriving Repr, DecidableEq

/-- The requests that assert first that there is a sandbox. -/
def ManualRequest.needsSandbox : ManualRequest → Bool
  | .initiateSandboxModifications | .applySandboxModifications _ | .evaluateStorageHash
  | .applyStorageModifications _ => false
  | _ => true

/-- The functions the requests post to the background thread. -/
inductive PostedQuery where
  | createStream (mode : OpenFileMode) (fileId : Nat)
  | readStream
  | writeStream
  | flushStream
  | closeStream (fileId : Nat)
  /-- `removeUnusedFiles`, of a removal or a move. -/
  | removeUnusedFiles
  | obtainFileSize
  | computeSandboxHash
  deriving Repr, DecidableEq

/-- What is posted to the session thread. -/
inductive ManualSessionStep where
  /-- `onFileOpened`, `onReadFile`, `onFileWritten`, `onFlushed`, `onFileClosed`, `onRemoved`,
      `onMoved`, `onFileSizeObtained` or `onStorageHashEvaluated`, with the success of the query. -/
  | queryFinished (query : PostedQuery) (isDone : Bool) (callback : RequestId)
  | onSandboxModificationStreamsClosed (success : Bool) (callback : RequestId)
  /-- With the tree of the sandbox if its modifications are accepted. -/
  | onAppliedSandboxModifications (accepted : Option FsTree) (callback : RequestId)
  | onNewTorrentAdded (callback : RequestId)
  | onAppliedStorageModifications (callback : RequestId)
  /-- `closeFiles`, posted by `clearTrash`. -/
  | closeFiles
  /-- `DriveTaskBase::finishTask`. -/
  | finishTask
  | runNextTask

/-- What is posted to the background thread. -/
inductive ManualBackgroundStep where
  | query (query : PostedQuery) (callback : RequestId)
  /-- `closeStreams`, with what is posted after it. -/
  | closeStreams (next : ManualSessionStep)
  /-- `acceptUpperSandboxModifications`, or `discardUpperSandboxModifications`. -/
  | settleSandbox (success : Bool) (callback : RequestId)
  | addNewTorrentsToSession (callback : RequestId)
  | onUnusedTorrentsDeleted (callback : RequestId)
  | clearTrash
  /-- The job of `DriveTaskBase::finishTask`. -/
  | clearSandbox

/-- What the background thread meets. -/
inductive ManualOutcome where
  | done (isDone : Bool)
  /-- `validateSandboxState`, with the tree of a valid sandbox. -/
  | validated (fsTree : Option FsTree)
  | storageHash (fsTree : FsTree) (rootHash : InfoHash)
  /-- An error of the file system, before or after the restart values are saved. -/
  | exception (valuesAreSaved : Bool)

/-- The events that interrupt the task. -/
inductive Interruption where
  | terminate
  | approvalTxPublished
  | driveClose
  | modificationInitiated
  | streamStarted
  | manualModificationInitiated
  | manualSynchronize
  deriving Repr, DecidableEq

/-- `ManualModificationsTask` with the steps it has posted. -/
structure ManualRequests where
  task : ManualModificationsTask
  /-- `m_upperSandboxFsTree` is there. -/
  hasUpperSandbox : Bool := false
  openFilesRead : List Nat := []
  openFilesWrite : List Nat := []
  totalFilesOpened : Nat := 0
  maxOpenedStreams : Nat := 5
  backgroundSteps : List ManualBackgroundStep := []
  sessionSteps : List ManualSessionStep := []
  /-- The removals of torrents by `onNewTorrentAdded`. -/
  removals : List RequestId := []
  /-- The callbacks that have been invoked. -/
  replies : List RequestId := []
  /-- `runNextTask` has destroyed the task. -/
  isReset : Bool := false

namespace ManualRequests

variable (requests : ManualRequests)

/-- The constructor and `run`. -/
def start (request : InitiateModificationsRequest) (drive : DriveParams) : ManualRequests where
  task := .start request drive

def executeOnBackgroundThread (step : ManualBackgroundStep) : ManualRequests :=
  { requests with backgroundSteps := requests.backgroundSteps ++ [step] }

def executeOnSessionThread (step : ManualSessionStep) : ManualRequests :=
  { requests with sessionSteps := requests.sessionSteps ++ [step] }

def reply (callback : RequestId) : ManualRequests :=
  { requests with replies := requests.replies ++ [callback] }

def setExecutingQuery (isExecutingQuery : Bool) : ManualRequests :=
  { requests with task := { requests.task with isExecutingQuery } }

/-- `finishTask`. -/
def finishTask : ManualRequests :=
  if requests.task.taskIsFinished then requests
  else { requests with task := requests.task.finishTask }.executeOnBackgroundThread .clearTrash

/-- `terminate`, which all interrupting events call. -/
def terminate : ManualRequests :=
  if requests.task.taskIsInterrupted then requests
  else
    let requests := { requests with task := { requests.task with taskIsInterrupted := true } }
    if !requests.task.isExecutingQuery then requests.finishTask else requests

/-! ## Requests -/

/-- A query takes the flag and goes to the background thread. -/
def post (query : PostedQuery) (callback : RequestId) : ManualRequests :=
  (requests.setExecutingQuery true).executeOnBackgroundThread (.query query callback)

def postIf (isPosted : Bool) (query : PostedQuery) (callback : RequestId) : ManualRequests :=
  if isPosted then requests.post query callback else requests.reply callback

def closeFiles (next : ManualSessionStep) : ManualRequests :=
  ({ requests with openFilesRead := [], openFilesWrite := [] }.setExecutingQuery
    true).executeOnBackgroundThread (.closeStreams next)

def numOpenedStreams : Nat := requests.openFilesRead.length + requests.openFilesWrite.length

/-- `openFile`. At the limit the callback is invoked, but the file is opened all the same. -/
def openFile (mode : OpenFileMode) (isFound : Bool) (callback : RequestId) : ManualRequests :=
  let requests :=
    if requests.maxOpenedStreams ≤ requests.numOpenedStreams then requests.reply callback
    else requests
  { requests with totalFilesOpened := requests.totalFilesOpened + 1 }.postIf isFound
    (.createStream mode requests.totalFilesOpened) callback

/-- `applyStorageModifications`: nothing takes the flag. -/
def applyStorageModifications (success : Bool) (callback : RequestId) : ManualRequests :=
  if success then requests.executeOnBackgroundThread (.addNewTorrentsToSession callback)
  else (requests.reply callback).finishTask

/-- A request to a task that is not interrupted. An assertion that fails gives no result. -/
def accept (callback : RequestId) : ManualRequest → Option ManualRequests
  | .initiateSandboxModifications =>
      some ({ requests with hasUpperSandbox := true }.reply callback)
  | .openFile mode isFound => some (requests.openFile mode isFound callback)
  | .readFile fileId =>
      some (requests.postIf (requests.openFilesRead.contains fileId) .readStream callback)
  | .writeFile fileId fits =>
      some (requests.postIf (requests.openFilesWrite.contains fileId && fits) .writeStream callback)
  | .flush fileId =>
      some (requests.postIf (requests.openFilesWrite.contains fileId) .flushStream callback)
  | .closeFile fileId =>
      some (requests.postIf
        (requests.openFilesRead.contains fileId || requests.openFilesWrite.contains fileId)
        (.closeStream fileId) callback)
  | .removeFsTreeEntry isRemoved => some (requests.postIf isRemoved .removeUnusedFiles callback)
  | .moveFsTreeEntry isMoved => some (requests.postIf isMoved .removeUnusedFiles callback)
  | .fileSize isFile => some (requests.postIf isFile .obtainFileSize callback)
  | .lookUp _ => some (requests.reply callback)
  | .applySandboxModifications success =>
      if requests.hasUpperSandbox then
        some (requests.closeFiles (.onSandboxModificationStreamsClosed success callback))
      else none
  | .evaluateStorageHash =>
      if requests.hasUpperSandbox then none else some (requests.post .computeSandboxHash callback)
  | .applyStorageModifications success =>
      if requests.hasUpperSandbox then none
      else some (requests.applyStorageModifications success callback)

/-- A request. An interrupted task refuses it, and the drive answers. -/
def request (callback : RequestId) (request : ManualRequest) : Option ManualRequests :=
  if requests.task.isExecutingQuery || (request.needsSandbox && !requests.hasUpperSandbox) then none
  else if requests.task.taskIsInterrupted then some (requests.reply callback)
  else requests.accept callback request

/-! ## The background thread -/

/-- The values of `onUnusedTorrentsDeleted`, without the rest. -/
def saveRestartValues : ManualRequests :=
  { requests with task := { requests.task with
      drive := { requests.task.drive with
        restartValues := { requests.task.drive.restartValues with
          approvedCumulativeUploads :=
            some requests.task.drive.opinionController.approvedCumulativeUploads
          approvedModification := some requests.task.request.modificationIdentifier } } } }

/-- A step of `applyStorageModifications`, as `ManualModificationsTask` has it. -/
def advanceApplying (phase : ApplyPhase) : Option ManualRequests :=
  (requests.task.advanceApplying phase).map fun task => { requests with task }

def runBackgroundStep : ManualBackgroundStep → ManualOutcome → Option ManualRequests
  | .query .computeSandboxHash callback, .storageHash fsTree rootHash =>
      some ({ requests with
        task := requests.task.computeSandboxHash fsTree rootHash }.executeOnSessionThread
          (.queryFinished .computeSandboxHash true callback))
  | .query query callback, .done isDone =>
      if query = .computeSandboxHash then none
      else some (requests.executeOnSessionThread (.queryFinished query isDone callback))
  | .closeStreams next, .done _ => some (requests.executeOnSessionThread next)
  | .settleSandbox success callback, .validated fsTree =>
      some (requests.executeOnSessionThread
        (.onAppliedSandboxModifications (if success then fsTree else none) callback))
  | .addNewTorrentsToSession callback, .done _ =>
      (requests.advanceApplying .addNewTorrentsToSession).map
        (·.executeOnSessionThread (.onNewTorrentAdded callback))
  | .onUnusedTorrentsDeleted callback, .done _ =>
      (requests.advanceApplying .onUnusedTorrentsDeleted).map
        (·.executeOnSessionThread (.onAppliedStorageModifications callback))
  -- the error is only logged
  | .onUnusedTorrentsDeleted _, .exception valuesAreSaved =>
      some (if valuesAreSaved then requests.saveRestartValues else requests)
  | .clearTrash, .done _ => some (requests.executeOnSessionThread .closeFiles)
  | .clearSandbox, .done _ => some (requests.executeOnSessionThread .runNextTask)
  | _, _ => none

/-! ## The session thread -/

def endQuery (isDone : Bool) (callback : RequestId) : PostedQuery → ManualRequests
  | .createStream mode fileId =>
      if isDone then
        match mode with
        | .read => { requests with openFilesRead := requests.openFilesRead ++ [fileId] }.reply callback
        | .write =>
            { requests with openFilesWrite := requests.openFilesWrite ++ [fileId] }.reply callback
      else requests.reply callback
  | .closeStream fileId =>
      if requests.openFilesRead.contains fileId then
        { requests with openFilesRead := requests.openFilesRead.erase fileId }.reply callback
      else if requests.openFilesWrite.contains fileId then
        { requests with openFilesWrite := requests.openFilesWrite.erase fileId }.reply callback
      -- a stream that does not exist is only logged
      else requests
  | _ => requests.reply callback

/-- The steps that assert that a query is executed. Then the flag is given back, and an
    interrupted task is finished instead of going on. -/
def resume (callback : RequestId) (next : ManualRequests → ManualRequests) :
    Option ManualRequests :=
  if !requests.task.isExecutingQuery then none
  else
    let requests := requests.setExecutingQuery false
    if requests.task.taskIsInterrupted then some (requests.reply callback).finishTask
    else some (next requests)

def runSessionStep : ManualSessionStep → Option ManualRequests
  | .queryFinished query isDone callback =>
      requests.resume callback fun requests => requests.endQuery isDone callback query
  | .onSandboxModificationStreamsClosed success callback =>
      requests.resume callback fun requests =>
        (requests.setExecutingQuery true).executeOnBackgroundThread (.settleSandbox success callback)
  | .onAppliedSandboxModifications accepted callback =>
      requests.resume callback fun requests =>
        { requests with
          task := requests.task.onAppliedSandboxModifications accepted
          hasUpperSandbox := false }.reply callback
  | .onNewTorrentAdded callback =>
      (requests.advanceApplying .onNewTorrentAdded).map fun requests =>
        { requests with removals := requests.removals ++ [callback] }
  | .onAppliedStorageModifications callback =>
      match requests.task.onAppliedStorageModifications with
      | some task =>
          let applied := { requests with task }.reply callback
          -- the task has called `finishTask`, which posts the clean-up once
          some (if requests.task.taskIsFinished then applied
            else applied.executeOnBackgroundThread .clearTrash)
      | none => none
  | .closeFiles => some (requests.closeFiles .finishTask)
  | .finishTask => some (requests.executeOnBackgroundThread .clearSandbox)
  | .runNextTask => some { requests with isReset := true }

end ManualRequests

/-- What can happen to the task of a manual modification. -/
inductive ManualRequestsEvent where
  | request (callback : RequestId) (request : ManualRequest)
  | interrupt (interruption : Interruption)
  | runBackgroundStep (outcome : ManualOutcome)
  | runSessionStep
  /-- `removeTorrentsFromSession` calls back. -/
  | torrentsRemoved (index : Nat)

namespace ManualRequests

variable (requests : ManualRequests)

/-- What an event does. An event that cannot happen has no result. -/
def handle : ManualRequestsEvent → Option ManualRequests
  | .request callback request => requests.request callback request
  | .interrupt _ => some requests.terminate
  | .runBackgroundStep outcome =>
      match requests.backgroundSteps with
      | step :: backgroundSteps => { requests with backgroundSteps }.runBackgroundStep step outcome
      | [] => none
  | .runSessionStep =>
      match requests.sessionSteps with
      | step :: sessionSteps => { requests with sessionSteps }.runSessionStep step
      | [] => none
  | .torrentsRemoved index =>
      match requests.removals[index]? with
      | some callback =>
          some ({ requests with
            removals := requests.removals.eraseIdx index }.executeOnBackgroundThread
              (.onUnusedTorrentsDeleted callback))
      | none => none

/-- The task until it is destroyed. -/
def manualRequestsSystem : Transition ManualRequests ManualRequestsEvent where
  step requests event := if requests.isReset then none else requests.handle event

end ManualRequests

end SiriusDrive
