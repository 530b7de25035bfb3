import SiriusDrive.DownloadChannel
import SiriusDrive.FlatDriveTypes
import SiriusDrive.UpdateDriveTaskBase
import SiriusDrive.Lib.MapLookup
import SiriusDrive.Lib.Transition

/-! # Opinions about the downloads of a channel

When the downloads of a channel are to be paid, each replicator of the channel forms an
opinion about them and shares it with the others until the approval is published. Once
enough opinions have come together and some time has passed, the approval is ready.
-/

namespace SiriusDrive

/-- `totalAcceptedReceiptSize`. -/
def ReplicatorUploadRequestInfo.totalAcceptedReceiptSize (info : ReplicatorUploadRequestInfo) : Nat :=
  info.clientMap.foldl (fun receiptSize _ cell => u64 (receiptSize + cell.acceptedSize)) 0

/-- `DownloadOpinion`, without its signature. -/
structure DownloadOpinion where
  replicatorKey : ReplicatorKey
  downloadLayout : List KeyAndBytes
  deriving Repr, DecidableEq

structure DownloadApprovalTransactionInfo where
  blockHash : Hash256
  downloadChannelId : ChannelId
  opinions : List DownloadOpinion
  deriving Repr, DecidableEq

/-- Opinions under the keys of their authors. -/
structure DownloadOpinionSet where
  map : Std.TreeMap ReplicatorKey DownloadOpinion := ∅
  keyed : ∀ (key : ReplicatorKey) (opinion : DownloadOpinion), map[key]? = some opinion →
    opinion.replicatorKey = key

namespace DownloadOpinionSet

def empty : DownloadOpinionSet where
  keyed := by simp

def insert (opinions : DownloadOpinionSet) (opinion : DownloadOpinion) : DownloadOpinionSet where
  map := opinions.map.insert opinion.replicatorKey opinion
  keyed := by
    intro key other found
    rw [Std.TreeMap.getElem?_insert_eq] at found
    split at found
    · rename_i isKey
      obtain rfl := Option.some.inj found
      exact isKey.symm
    · exact opinions.keyed key other found

def size (opinions : DownloadOpinionSet) : Nat := opinions.map.size

def toList (opinions : DownloadOpinionSet) : List DownloadOpinion := opinions.map.toList.map Prod.snd

end DownloadOpinionSet

/-- `DownloadOpinionMapValue`; the time is counted in microseconds. -/
structure DownloadOpinionMapValue where
  eventHash : Hash256
  downloadChannelId : ChannelId
  opinions : DownloadOpinionSet := .empty
  modifyApproveTransactionSent : Bool := false
  approveTransactionReceived : Bool := false
  timer : Timer := .unset
  opinionShareTimer : Timer := .unset
  creationTime : Int

namespace DownloadOpinionMapValue

variable (value : DownloadOpinionMapValue)

/-- The copy constructor, which leaves the timers and the time behind. -/
def copy (now : Int) : DownloadOpinionMapValue :=
  { value with timer := .unset, opinionShareTimer := .unset, creationTime := now }

/-- More than an hour has passed: `total_seconds` drops the fraction. -/
def isOutdated (now : Int) : Bool := (now - value.creationTime).tdiv 1000000 > 60 * 60

def transactionInfo : DownloadApprovalTransactionInfo where
  blockHash := value.eventHash
  downloadChannelId := value.downloadChannelId
  opinions := value.opinions.toList

def singleOpinion (opinion : DownloadOpinion) : DownloadApprovalTransactionInfo where
  blockHash := value.eventHash
  downloadChannelId := value.downloadChannelId
  opinions := [opinion]

end DownloadOpinionMapValue

abbrev DownloadOpinionMap := Std.TreeMap Hash256 DownloadOpinionMapValue

/-- `DownloadChannelInfo` with its opinions. -/
structure OpinionChannel extends DownloadChannelInfo where
  downloadOpinionMap : DownloadOpinionMap := ∅

/-- `DefaultReplicator`, as far as it is concerned with the opinions. -/
structure Replicator where
  publicKey : ReplicatorKey
  minReplicatorsNumber : Nat
  dnChannelMap : Std.TreeMap ChannelId OpinionChannel := ∅
  dnChannelMapBackup : Std.TreeMap ChannelId OpinionChannel := ∅
  isDestructing : Bool := false
  fault : Option Fault := none
  /-- What `downloadOpinionHasBeenReceived` has been told. -/
  receivedOpinions : List DownloadApprovalTransactionInfo := []
  /-- What `downloadApprovalTransactionIsReady` has been told. -/
  readyApprovals : List DownloadApprovalTransactionInfo := []
  /-- The "dn_opinion" messages. -/
  sharedOpinions : List (ReplicatorKey × DownloadApprovalTransactionInfo) := []

/-- What can happen to the opinions of a replicator. -/
inductive ReplicatorEvent where
  | addDownloadChannelInfo (now : Int) (channelId : ChannelId) (prepaidDownloadSize : Nat)
      (driveKey : Key) (replicators : List ReplicatorKey) (clients : List ClientKey)
      (willBeSyncronized : Bool)
  | removeDownloadChannelInfo (channelId : ChannelId)
  | setChannelShard (channelId : ChannelId) (replicatorKeys : List ReplicatorKey)
  | setMinReplicatorsNumber (number : Nat)
  /-- Receipts are accepted. -/
  | receiptsAccepted (channelId : ChannelId)
      (uploadRequests : Std.TreeMap ReplicatorKey ReplicatorUploadRequestInfo)
  | downloadOpinionReceived (now : Int) (anOpinion : DownloadApprovalTransactionInfo)
  | initiateDownloadApproval (now : Int) (blockHash : Hash256) (channelId : ChannelId)
  | closeDriveChannels (now : Int) (blockHash : Hash256) (driveKey : Key)
  | approvalFailedInvalidOpinions (eventHash : Hash256) (channelId : ChannelId)
  | approvalPublished (eventHash : Hash256) (channelId : ChannelId) (channelMustBeClosed : Bool)
  | downloadApprovalTimerExpired (channelId : ChannelId) (eventHash : Hash256)
  | opinionShareTimerExpired (channelId : ChannelId) (eventHash : Hash256)
  | stop

namespace Replicator

variable (replicator : Replicator)

/-- `startTimer`: a session whose replicator is stopped starts none. -/
def startTimer : Timer := if replicator.isDestructing then .unset else .pending

def findEntry (channelId : ChannelId) (eventHash : Hash256) : Option DownloadOpinionMapValue :=
  (replicator.dnChannelMap[channelId]?).bind (·.downloadOpinionMap[eventHash]?)

def setChannel (channelId : ChannelId) (channel : OpinionChannel) : Replicator :=
  { replicator with dnChannelMap := replicator.dnChannelMap.insert channelId channel }

def setEntry (channelId : ChannelId) (eventHash : Hash256) (value : DownloadOpinionMapValue) :
    Replicator :=
  match replicator.dnChannelMap[channelId]? with
  | none => replicator
  | some channel =>
      replicator.setChannel channelId
        { channel with downloadOpinionMap := channel.downloadOpinionMap.insert eventHash value }

/-! ## Channels -/

/-- `addChannelInfo`; the opinions of the backup are copied. -/
def addChannelInfo (now : Int) (channelId : ChannelId) (prepaidDownloadSize : Nat)
    (driveKey : Key) (replicatorsList : List ReplicatorKey) (clients : List ClientKey)
    (willBeSyncronized : Bool) : Replicator :=
  if replicator.isDestructing then replicator
  else if replicator.dnChannelMap.contains channelId then replicator
  else
    let backup := replicator.dnChannelMapBackup[channelId]?
    let channel : OpinionChannel :=
      { DownloadChannelInfo.addChannelInfo replicator.publicKey prepaidDownloadSize driveKey
          replicatorsList clients willBeSyncronized (backup.map (·.toDownloadChannelInfo)) with
        downloadOpinionMap :=
          match backup with
          | none => ∅
          | some backup => backup.downloadOpinionMap.map fun _ value => value.copy now }
    { replicator with
      dnChannelMap := replicator.dnChannelMap.insert channelId channel
      dnChannelMapBackup := replicator.dnChannelMapBackup.erase channelId }

def removeChannelInfo (channelId : ChannelId) : Replicator :=
  if replicator.isDestructing then replicator
  else { replicator with dnChannelMap := replicator.dnChannelMap.erase channelId }

/-- `asyncSetChanelShard`. -/
def setChannelShard (channelId : ChannelId) (replicatorKeys : List ReplicatorKey) : Replicator :=
  match replicator.dnChannelMap[channelId]? with
  | none => replicator
  | some channel =>
      replicator.setChannel channelId { channel with dnReplicatorShard := replicatorKeys }

def receiptsAccepted (channelId : ChannelId)
    (uploadRequests : Std.TreeMap ReplicatorKey ReplicatorUploadRequestInfo) : Replicator :=
  match replicator.dnChannelMap[channelId]? with
  | none => replicator
  | some channel =>
      replicator.setChannel channelId { channel with replicatorUploadRequestMap := uploadRequests }

/-! ## Opinions -/

/-- The part of `addOpinion` that removes the outdated entries. -/
def removeOutdated (now : Int) : Replicator :=
  { replicator with
    dnChannelMap := replicator.dnChannelMap.map fun _ channel =>
      { channel with
        downloadOpinionMap := channel.downloadOpinionMap.filter fun _ value =>
          !value.isOutdated now } }

/-- How many opinions an approval needs. -/
def replicatorNumber (channel : OpinionChannel) : Nat :=
  (max replicator.minReplicatorsNumber channel.dnReplicatorShard.length * 2) / 3 + 1

/-- The part of `addOpinion` that changes the entry of the event: the timer is started when
    there are enough opinions. -/
def collect (channel : OpinionChannel) (opinionInfo : DownloadOpinionMapValue)
    (opinion : DownloadOpinion) : DownloadOpinionMapValue :=
  let opinions := opinionInfo.opinions.insert opinion
  { opinionInfo with
    opinions
    timer :=
      if replicator.replicatorNumber channel ≤ opinions.size ∧ opinionInfo.timer.isSet = false then
        replicator.startTimer
      else opinionInfo.timer }

/-- `addOpinion` with the only opinion of its argument. -/
def addOpinion (now : Int) (blockHash : Hash256) (channelId : ChannelId)
    (opinion : DownloadOpinion) : Replicator :=
  let replicator := replicator.removeOutdated now
  match replicator.dnChannelMap[channelId]? with
  | none => replicator
  | some channel =>
      let opinionInfo := (channel.downloadOpinionMap[blockHash]?).getD
        { eventHash := blockHash, downloadChannelId := channelId, creationTime := now }
      replicator.setEntry channelId blockHash (replicator.collect channel opinionInfo opinion)

/-- `asyncOnDownloadOpinionReceived`. -/
def onDownloadOpinionReceived (now : Int) (anOpinion : DownloadApprovalTransactionInfo) :
    Replicator :=
  if replicator.isDestructing then replicator
  else
    match anOpinion.opinions with
    | [opinion] => replicator.addOpinion now anOpinion.blockHash anOpinion.downloadChannelId opinion
    | _ => replicator

def onDownloadApprovalTimeExpired (channelId : ChannelId) (blockHash : Hash256) : Replicator :=
  match replicator.findEntry channelId blockHash with
  | none => { replicator with fault := some .invalidDereference }
  | some downloadMapValue =>
      if downloadMapValue.modifyApproveTransactionSent ||
          downloadMapValue.approveTransactionReceived then replicator
      else
        { replicator with
          readyApprovals := replicator.readyApprovals ++
            [downloadMapValue.transactionInfo] }.setEntry channelId blockHash
          { downloadMapValue with modifyApproveTransactionSent := true }

/-- `createMyOpinion`. -/
def createMyOpinion (channel : OpinionChannel) : DownloadOpinion where
  replicatorKey := replicator.publicKey
  downloadLayout := channel.dnReplicatorShard.map fun replicatorKey =>
    match channel.replicatorUploadRequestMap[replicatorKey]? with
    | some info => ⟨replicatorKey, info.totalAcceptedReceiptSize⟩
    | none => ⟨replicatorKey, 0⟩

/-- `shareDownloadOpinion`. Its three look-ups are assertions. -/
def shareDownloadOpinion (downloadChannel : ChannelId) (eventHash : Hash256) : Replicator :=
  match replicator.dnChannelMap[downloadChannel]? with
  | none => { replicator with fault := some .invalidDereference }
  | some channel =>
      match channel.downloadOpinionMap[eventHash]? with
      | none => { replicator with fault := some .invalidDereference }
      | some value =>
          match value.opinions.map[replicator.publicKey]? with
          | none => { replicator with fault := some .invalidDereference }
          | some myOpinion =>
              let opinionToShare : DownloadApprovalTransactionInfo :=
                ⟨eventHash, downloadChannel, [myOpinion]⟩
              { replicator with
                sharedOpinions := replicator.sharedOpinions ++
                  (channel.dnReplicatorShard.filter (· ≠ replicator.publicKey)).map
                    (·, opinionToShare) }.setEntry
                downloadChannel eventHash { value with opinionShareTimer := replicator.startTimer }

def doInitiateDownloadApprovalTransactionInfo (now : Int) (blockHash : Hash256)
    (channelId : ChannelId) : Replicator :=
  match replicator.dnChannelMap[channelId]? with
  | none => replicator
  | some channel =>
      (replicator.addOpinion now blockHash channelId
        (replicator.createMyOpinion channel)).shareDownloadOpinion channelId blockHash

def channelsOfDrive (driveKey : Key) : List ChannelId :=
  (replicator.dnChannelMap.toList.filter (·.2.driveKey = driveKey)).map Prod.fst

/-- `closeDriveChannels`. -/
def closeDriveChannels (now : Int) (blockHash : Hash256) (driveKey : Key) : Replicator :=
  (replicator.channelsOfDrive driveKey).foldl
    (fun replicator channelId =>
      replicator.doInitiateDownloadApprovalTransactionInfo now blockHash channelId) replicator

/-! ## Notifications -/

/-- `asyncDownloadApprovalTransactionHasFailedInvalidOpinions`. The opinions are given to the
    event handler, which may give them back later. -/
def onApprovalFailed (eventHash : Hash256) (channelId : ChannelId) : Replicator :=
  if replicator.isDestructing then replicator
  else
    match replicator.findEntry channelId eventHash with
    | none => replicator
    | some opinionInfo =>
        if opinionInfo.approveTransactionReceived then replicator
        else
          { replicator with
            receivedOpinions := replicator.receivedOpinions ++
              opinionInfo.opinions.toList.map (opinionInfo.singleOpinion ·) }.setEntry channelId eventHash
            { opinionInfo with
              timer := opinionInfo.timer.cancel
              opinions := .empty
              modifyApproveTransactionSent := false }

/-- `asyncDownloadApprovalTransactionHasBeenPublished`. -/
def onApprovalPublished (eventHash : Hash256) (channelId : ChannelId)
    (channelMustBeClosed : Bool) : Replicator :=
  if replicator.isDestructing then replicator
  else if channelMustBeClosed then
    { replicator with dnChannelMap := replicator.dnChannelMap.erase channelId }
  else
    match replicator.findEntry channelId eventHash with
    | none => replicator
    | some value =>
        replicator.setEntry channelId eventHash
          { value with
            timer := value.timer.cancel
            opinionShareTimer := value.opinionShareTimer.cancel
            approveTransactionReceived := true }

/-- `stop`: the timers of all entries are cancelled. -/
def stop : Replicator :=
  { replicator with
    isDestructing := true
    dnChannelMap := replicator.dnChannelMap.map fun _ channel =>
      { channel with
        downloadOpinionMap := channel.downloadOpinionMap.map fun _ value =>
          { value with
            timer := value.timer.cancel
            opinionShareTimer := value.opinionShareTimer.cancel } } }

/-! ## Runs -/

/-- What an event does. A timer expires while it is pending; it is gone with its entry. -/
def handle : ReplicatorEvent → Option Replicator
  | .addDownloadChannelInfo now channelId prepaidDownloadSize driveKey replicators clients
      willBeSyncronized =>
      some (replicator.addChannelInfo now channelId prepaidDownloadSize driveKey replicators clients
        willBeSyncronized)
  | .removeDownloadChannelInfo channelId => some (replicator.removeChannelInfo channelId)
  | .setChannelShard channelId replicatorKeys =>
      some (replicator.setChannelShard channelId replicatorKeys)
  | .setMinReplicatorsNumber number => some { replicator with minReplicatorsNumber := number }
  | .receiptsAccepted channelId uploadRequests =>
      some (replicator.receiptsAccepted channelId uploadRequests)
  | .downloadOpinionReceived now anOpinion =>
      some (replicator.onDownloadOpinionReceived now anOpinion)
  | .initiateDownloadApproval now blockHash channelId =>
      if replicator.isDestructing then some replicator
      else some (replicator.doInitiateDownloadApprovalTransactionInfo now blockHash channelId)
  | .closeDriveChannels now blockHash driveKey =>
      some (replicator.closeDriveChannels now blockHash driveKey)
  | .approvalFailedInvalidOpinions eventHash channelId =>
      some (replicator.onApprovalFailed eventHash channelId)
  | .approvalPublished eventHash channelId channelMustBeClosed =>
      some (replicator.onApprovalPublished eventHash channelId channelMustBeClosed)
  | .downloadApprovalTimerExpired channelId eventHash =>
      match replicator.findEntry channelId eventHash with
      | none => none
      | some value =>
          if value.timer = .pending then
            some ((replicator.setEntry channelId eventHash
              { value with timer := .expired }).onDownloadApprovalTimeExpired channelId eventHash)
          else none
  | .opinionShareTimerExpired channelId eventHash =>
      match replicator.findEntry channelId eventHash with
      | none => none
      | some value =>
          if value.opinionShareTimer = .pending then
            some ((replicator.setEntry channelId eventHash
              { value with opinionShareTimer := .expired }).shareDownloadOpinion channelId eventHash)
          else none
  | .stop => some replicator.stop

/-- A replicator under everything that can happen to its opinions. -/
def replicatorSystem : Transition Replicator ReplicatorEvent where
  step replicator event := if replicator.fault.isSome then none else replicator.handle event

/-- A replicator that has been started, with the channels it saved before. -/
def create (publicKey : ReplicatorKey) (minReplicatorsNumber : Nat)
    (dnChannelMapBackup : Std.TreeMap ChannelId OpinionChannel) : Replicator :=
  { publicKey, minReplicatorsNumber, dnChannelMapBackup }

/-! ## Entries -/

variable {replicator}

theorem findEntry_of_channel {channelId : ChannelId} {channel : OpinionChannel}
    (isChannel : replicator.dnChannelMap[channelId]? = some channel) (eventHash : Hash256) :
    replicator.findEntry channelId eventHash = channel.downloadOpinionMap[eventHash]? := by
  rw [findEntry, isChannel, Option.bind_some]

theorem channel_of_entry {channelId : ChannelId} {eventHash : Hash256}
    {value : DownloadOpinionMapValue}
    (isEntry : replicator.findEntry channelId eventHash = some value) :
    ∃ channel, replicator.dnChannelMap[channelId]? = some channel ∧
      channel.downloadOpinionMap[eventHash]? = some value :=
  Option.bind_eq_some_iff.mp isEntry

theorem findEntry_setEntry {channelId : ChannelId} {channel : OpinionChannel}
    (isChannel : replicator.dnChannelMap[channelId]? = some channel) (eventHash : Hash256)
    (value : DownloadOpinionMapValue) (otherId : ChannelId) (otherHash : Hash256) :
    (replicator.setEntry channelId eventHash value).findEntry otherId otherHash =
      if otherId = channelId ∧ otherHash = eventHash then some value
      else replicator.findEntry otherId otherHash := by
  unfold setEntry setChannel findEntry
  simp only [isChannel, Std.TreeMap.getElem?_insert_eq]
  by_cases sameChannel : otherId = channelId
  · subst sameChannel
    simp only [if_true, Option.bind_some, Std.TreeMap.getElem?_insert_eq, isChannel, true_and]
  · simp only [sameChannel, false_and, if_false]

theorem publicKey_setEntry (channelId : ChannelId) (eventHash : Hash256)
    (value : DownloadOpinionMapValue) :
    (replicator.setEntry channelId eventHash value).publicKey = replicator.publicKey := by
  unfold setEntry
  split <;> rfl

theorem findEntry_removeOutdated (now : Int) (channelId : ChannelId) (eventHash : Hash256) :
    (replicator.removeOutdated now).findEntry channelId eventHash =
      (replicator.findEntry channelId eventHash).filter (!·.isOutdated now) := by
  unfold removeOutdated findEntry
  rw [Std.TreeMap.getElem?_map]
  cases replicator.dnChannelMap[channelId]? with
  | none => rfl
  | some channel =>
      simp only [Option.map_some, Option.bind_some]
      exact Std.TreeMap.getElem?_filter'

theorem findEntry_addOpinion {now : Int} {channelId : ChannelId} {channel : OpinionChannel}
    (isChannel : (replicator.removeOutdated now).dnChannelMap[channelId]? = some channel)
    (blockHash : Hash256) (opinion : DownloadOpinion) (otherId : ChannelId) (otherHash : Hash256) :
    (replicator.addOpinion now blockHash channelId opinion).findEntry otherId otherHash =
      if otherId = channelId ∧ otherHash = blockHash then
        some ((replicator.removeOutdated now).collect channel
          (((replicator.removeOutdated now).findEntry channelId blockHash).getD
            { eventHash := blockHash, downloadChannelId := channelId, creationTime := now }) opinion)
      else (replicator.removeOutdated now).findEntry otherId otherHash := by
  unfold addOpinion
  simp only [isChannel]
  rw [findEntry_setEntry isChannel, findEntry_of_channel isChannel]

theorem isSome_removeOutdated (now : Int) (channelId : ChannelId) :
    ((replicator.removeOutdated now).dnChannelMap[channelId]?).isSome =
      (replicator.dnChannelMap[channelId]?).isSome := by
  unfold removeOutdated
  rw [Std.TreeMap.getElem?_map, Option.isSome_map]

theorem findEntry_of_removeOutdated {now : Int} {channelId : ChannelId} {eventHash : Hash256}
    {value : DownloadOpinionMapValue}
    (isEntry : (replicator.removeOutdated now).findEntry channelId eventHash = some value) :
    replicator.findEntry channelId eventHash = some value := by
  rw [findEntry_removeOutdated] at isEntry
  exact (Option.filter_eq_some_iff.mp isEntry).1

end Replicator

end SiriusDrive
