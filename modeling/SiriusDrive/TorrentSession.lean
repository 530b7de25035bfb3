import SiriusDrive.DriveParams
import SiriusDrive.Lib.Transition

/-! # The torrents of a session

`DefaultSession` keeps with each torrent of the torrent library what is to be told about it:
the notifications of its downloads, and the notification of whoever has it removed, which is
shared by all torrents of the request and called when the last of them is gone. The library
deletes a torrent some time after it was asked to.
-/

namespace SiriusDrive

/-- `LtClientData::FinishStatus`. -/
inductive FinishStatus where
  | torrentAdded
  | torrentFinished
  | torrentFlushed
  deriving Repr, DecidableEq

/-- `download_status::code`, the codes a session notifies. -/
inductive DownloadStatus where
  | downloadComplete
  | dnFailed
  deriving Repr, DecidableEq

/-- `DownloadContext`. The notification is the number of the call of `download`. -/
structure DownloadContext where
  downloadNotification : Nat
  infoHash : InfoHash
  downloadLimit : Nat
  saveAs : String := ""
  doNotDeleteTorrent : Bool := false
  deriving Repr, DecidableEq

/-- The limit check, which reads the limit as a signed number. -/
def DownloadContext.isLimitExceeded (context : DownloadContext) (totalSize : Nat) : Bool :=
  context.downloadLimit ≠ 0 &&
    (context.downloadLimit ≥ 2 ^ 63 || context.downloadLimit < totalSize)

/-- `LtClientData`; the notifyer is the number of the call of `removeTorrentsFromSession`. -/
structure LtClientData where
  removeNotifyer : Option Nat := none
  saveTorrentFilename : String := ""
  dnContexts : List DownloadContext := []
  uploadedDataSize : Nat := 0
  invalidMetadata : Bool := false
  isRemoved : Bool := false
  finishStatus : FinishStatus := .torrentAdded
  deriving Repr, DecidableEq

/-- A torrent of the library: `state` is `status().state`, and `beingRemoved` says that
    `remove_torrent` was called for it. The handle of a deleted torrent is not valid. -/
structure SessionTorrent where
  infoHash : InfoHash
  state : Nat
  hasMetadata : Bool := false
  beingRemoved : Bool := false
  isDeleted : Bool := false
  userdata : LtClientData := {}
  deriving Repr, DecidableEq

namespace SessionTorrent

variable (torrent : SessionTorrent)

def hasFiles : Bool := !torrent.isDeleted && 2 < torrent.state

/-- `userdata()->m_isRemoved = true`, if the handle is valid. -/
def mark : SessionTorrent :=
  if torrent.isDeleted then torrent
  else { torrent with userdata := { torrent.userdata with isRemoved := true } }

/-- `remove_torrent` of the library. -/
def remove : SessionTorrent := { torrent with beingRemoved := true }

def setNotifyer (removal : Nat) : SessionTorrent :=
  { torrent with userdata := { torrent.userdata with removeNotifyer := some removal } }

def addContext (context : DownloadContext) : SessionTorrent :=
  { torrent with
    userdata := { torrent.userdata with dnContexts := torrent.userdata.dnContexts ++ [context] } }

def setFinishStatus (finishStatus : FinishStatus) : SessionTorrent :=
  { torrent with userdata := { torrent.userdata with finishStatus } }

end SessionTorrent

/-- A function that is posted to the thread of the session. -/
inductive PostedCall where
  | endNotification (removal : Nat)
  | downloadComplete (handle : LtHandle) (dnContext : DownloadContext)
  deriving Repr, DecidableEq

inductive NotifiedCall where
  | endNotification (removal : Nat)
  | download (code : DownloadStatus) (context : DownloadContext) (downloaded : Nat)
      (errorText : String)
  deriving Repr, DecidableEq

structure TorrentSession where
  ownerIsReplicator : Bool := true
  torrents : Std.TreeMap LtHandle SessionTorrent := ∅
  posted : List PostedCall := []
  /-- The torrent files the background thread is to save. -/
  savings : List LtHandle := []
  stopping : Bool := false
  called : List NotifiedCall := []
  /-- The numbers of torrents added and of calls so far. -/
  added : LtHandle := 0
  downloads : Nat := 0
  removals : Nat := 0

namespace TorrentSession

variable (session : TorrentSession)

def setTorrent (handle : LtHandle) (torrent : SessionTorrent) : TorrentSession :=
  { session with torrents := session.torrents.insert handle torrent }

def call (calls : List NotifiedCall) : TorrentSession :=
  { session with called := session.called ++ calls }

def torrentOf (infoHash : InfoHash) : Option (LtHandle × SessionTorrent) :=
  session.torrents.toList.find? fun entry =>
    entry.2.infoHash == infoHash && !entry.2.beingRemoved

def addTorrent (torrent : SessionTorrent) : TorrentSession :=
  { session.setTorrent session.added torrent with added := session.added + 1 }

/-- `addTorrentFileToSession`; `add_torrent` gives the torrent that is there already. -/
def addTorrentFileToSession (infoHash : InfoHash) (state : Nat) : TorrentSession :=
  if (session.torrentOf infoHash).isSome then session
  else session.addTorrent { infoHash, state, hasMetadata := true }

/-- `download`, which joins the downloads of the torrent that is there already. -/
def download (infoHash : InfoHash) (downloadLimit : Nat) (saveAs : String)
    (doNotDeleteTorrent : Bool) (saveTorrentFilename : String) (state : Nat) : TorrentSession :=
  let downloadContext : DownloadContext :=
    { downloadNotification := session.downloads
      infoHash, downloadLimit, saveAs, doNotDeleteTorrent }
  let added :=
    match session.torrentOf infoHash with
    | some (handle, torrent) => session.setTorrent handle (torrent.addContext downloadContext)
    | none =>
        session.addTorrent
          { infoHash, state, userdata := { saveTorrentFilename, dnContexts := [downloadContext] } }
  { added with downloads := session.downloads + 1 }

def isValid (handle : LtHandle) : Bool := session.torrents[handle]?.any (!·.isDeleted)

/-- The torrents of a request the library knows the files of. -/
def toBeRemoved (torrents : List LtHandle) : List SessionTorrent :=
  (session.torrents.toList.filter fun entry =>
    torrents.contains entry.1 && entry.2.hasFiles).map (·.2)

/-- `removeTorrentsFromSession`. An assertion forbids a second notifyer, and the library throws
    for a handle that is not valid. -/
def removeTorrentsFromSession (torrents : List LtHandle) : Option TorrentSession :=
  if !(session.toBeRemoved torrents).isEmpty then
    if (session.toBeRemoved torrents).any (·.userdata.removeNotifyer.isSome) then none
    else
      some
        { session with
          torrents := session.torrents.map fun handle torrent =>
            if torrents.contains handle then
              if torrent.hasFiles then (torrent.mark.setNotifyer session.removals).remove
              else torrent.mark
            else torrent
          removals := session.removals + 1 }
  else if torrents.any (!session.isValid ·) then none
  else
    some
      { session with
        torrents := session.torrents.map fun handle torrent =>
          if torrents.contains handle then torrent.mark.remove else torrent
        posted := session.posted ++ [.endNotification session.removals]
        removals := session.removals + 1 }

/-- A torrent has a reference to the notifyer. -/
def isHeld (removal : Nat) : Bool :=
  session.torrents.toList.any (·.2.userdata.removeNotifyer == some removal)

/-- A reference to a notifyer is dropped; the last one calls its notification. -/
def release (removeNotifyer : Option Nat) : TorrentSession :=
  match removeNotifyer with
  | none => session
  | some removal =>
      if session.isHeld removal then session else session.call [.endNotification removal]

/-- What `onTorrentDeleted` notifies. -/
def deletionCalls (userdata : LtClientData) : List NotifiedCall :=
  if userdata.invalidMetadata then []
  else
    (userdata.dnContexts.filter (!·.doNotDeleteTorrent)).map fun context =>
      .download .downloadComplete context userdata.uploadedDataSize ""

/-- `onTorrentDeleted`, which the library calls when it has removed a torrent. A session that
    is stopping leaves the user data behind. -/
def onTorrentDeleted (handle : LtHandle) : Option TorrentSession :=
  match session.torrents[handle]? with
  | none => none
  | some torrent =>
      if torrent.beingRemoved ∧ ¬ torrent.isDeleted then
        if session.stopping then some (session.setTorrent handle { torrent with isDeleted := true })
        else
          let rest := { session with torrents := session.torrents.erase handle }
          some ((rest.call (deletionCalls torrent.userdata)).release
            torrent.userdata.removeNotifyer)
      else none

/-- `saveTorrentFile`: the notification of the completed download is posted. The user data
    must still be there. -/
def saveTorrentFile (handle : LtHandle) : Option TorrentSession :=
  match session.torrents[handle]? with
  | none => none
  | some torrent =>
      match torrent.userdata.dnContexts with
      | [] => none
      | dnContext :: _ =>
          if dnContext.doNotDeleteTorrent then
            some { session with posted := session.posted ++ [.downloadComplete handle dnContext] }
          else some session

/-- `onTorrentFinished`, which the library calls as `onCacheFlushed`. -/
def onTorrentFinished (handle : LtHandle) : Option TorrentSession :=
  match session.torrents[handle]? with
  | none => none
  | some torrent =>
      if torrent.userdata.isRemoved then some session
      else if torrent.userdata.finishStatus ≠ .torrentFinished then none
      else
        let flushed := torrent.setFinishStatus .torrentFlushed
        let session := session.setTorrent handle flushed
        match torrent.userdata.dnContexts with
        | [] => some session
        | dnContext :: _ =>
            if dnContext.doNotDeleteTorrent then
              if torrent.userdata.saveTorrentFilename = "" then
                some (session.call
                  [.download .downloadComplete dnContext torrent.userdata.uploadedDataSize ""])
              else if session.ownerIsReplicator then
                some { session with savings := session.savings ++ [handle] }
              else session.saveTorrentFile handle
            else some (session.setTorrent handle flushed.remove)

/-- The size and the pieces are accepted; the size is noted then. -/
def isPlausible (totalSize : Nat) (pieceSizeIsExpected : Bool) : Bool :=
  totalSize ≤ 256 * 1024 * 1024 * 1024 && pieceSizeIsExpected

/-- `errorText` of received metadata. -/
def metadataError (dnContexts : List DownloadContext) (totalSize : Nat)
    (pieceSizeIsExpected : Bool) : Option String :=
  if totalSize > 256 * 1024 * 1024 * 1024 then some "Max Total Size Exceeded"
  else if !pieceSizeIsExpected then some "Invalid Piece Size"
  else if dnContexts.head?.any (·.isLimitExceeded totalSize) then some "Limit Is Exceeded"
  else none

def withMetadata (torrent : SessionTorrent) (totalSize : Nat) (pieceSizeIsExpected : Bool) :
    SessionTorrent :=
  { torrent with
    hasMetadata := true
    userdata :=
      { torrent.userdata with
        uploadedDataSize :=
          if isPlausible totalSize pieceSizeIsExpected then totalSize
          else torrent.userdata.uploadedDataSize } }

/-- The alert for received metadata; the library sends one for each torrent. -/
def onMetadataReceived (handle : LtHandle) (totalSize : Nat) (pieceSizeIsExpected : Bool) :
    Option TorrentSession :=
  match session.torrents[handle]? with
  | none => some session
  | some torrent =>
      if torrent.hasMetadata then none
      else
        let received := withMetadata torrent totalSize pieceSizeIsExpected
        match metadataError torrent.userdata.dnContexts totalSize pieceSizeIsExpected with
        | none => some (session.setTorrent handle received)
        | some errorText =>
            match torrent.userdata.dnContexts with
            | [context] =>
                let rejected :=
                  { received.remove with
                    userdata := { received.userdata with invalidMetadata := true } }
                some ((session.setTorrent handle rejected).call
                  [.download .dnFailed context received.userdata.uploadedDataSize errorText])
            | _ => none

/-- The alert for a finished torrent, whose metadata came before. -/
def onFinishedAlert (handle : LtHandle) : Option TorrentSession :=
  match session.torrents[handle]? with
  | none => none
  | some torrent =>
      if torrent.hasMetadata ∧ torrent.userdata.finishStatus = .torrentAdded then
        some (session.setTorrent handle (torrent.setFinishStatus .torrentFinished))
      else none

/-- The background thread saves the next torrent file. -/
def runSaving : Option TorrentSession :=
  match session.savings with
  | [] => none
  | handle :: rest => { session with savings := rest }.saveTorrentFile handle

/-- The next posted function is run. A notification reads the user data it was posted for. -/
def runPosted : Option TorrentSession :=
  match session.posted with
  | [] => none
  | .endNotification removal :: rest =>
      some ({ session with posted := rest }.call [.endNotification removal])
  | .downloadComplete handle dnContext :: rest =>
      session.torrents[handle]?.map fun torrent =>
        { session with posted := rest }.call
          [.download .downloadComplete dnContext torrent.userdata.uploadedDataSize ""]

/-- The library reports another state of a torrent. -/
def onStateChanged (handle : LtHandle) (state : Nat) : Option TorrentSession :=
  session.torrents[handle]?.map fun torrent => session.setTorrent handle { torrent with state }

end TorrentSession

/-- What happens to a session: calls of its owner, calls and alerts of the library, and the jobs
    of the threads. -/
inductive TorrentEvent where
  | addTorrentFile (infoHash : InfoHash) (state : Nat)
  | download (infoHash : InfoHash) (downloadLimit : Nat) (saveAs : String)
      (doNotDeleteTorrent : Bool) (saveTorrentFilename : String) (state : Nat)
  | removeTorrents (torrents : List LtHandle)
  | endSession
  | stateChanged (handle : LtHandle) (state : Nat)
  | metadataReceived (handle : LtHandle) (totalSize : Nat) (pieceSizeIsExpected : Bool)
  | torrentFinished (handle : LtHandle)
  | cacheFlushed (handle : LtHandle)
  | torrentDeleted (handle : LtHandle)
  | torrentFileSaved
  | runPosted
  deriving Repr, DecidableEq

/-- A session under its events. A session that is stopping does not look at alerts. -/
def torrentSystem : Transition TorrentSession TorrentEvent where
  step session event :=
    match event with
    | .addTorrentFile infoHash state => some (session.addTorrentFileToSession infoHash state)
    | .download infoHash downloadLimit saveAs doNotDeleteTorrent saveTorrentFilename state =>
        some (session.download infoHash downloadLimit saveAs doNotDeleteTorrent saveTorrentFilename
          state)
    | .removeTorrents torrents => session.removeTorrentsFromSession torrents
    | .endSession => some { session with stopping := true }
    | .stateChanged handle state =>
        if session.isValid handle then session.onStateChanged handle state else none
    | .metadataReceived handle totalSize pieceSizeIsExpected =>
        if session.stopping then some session
        else session.onMetadataReceived handle totalSize pieceSizeIsExpected
    | .torrentFinished handle =>
        if session.stopping then some session else session.onFinishedAlert handle
    | .cacheFlushed handle =>
        if session.isValid handle then session.onTorrentFinished handle else none
    | .torrentDeleted handle => session.onTorrentDeleted handle
    | .torrentFileSaved => session.runSaving
    | .runPosted => session.runPosted

end SiriusDrive
