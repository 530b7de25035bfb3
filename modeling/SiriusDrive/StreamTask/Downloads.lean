import Mathlib.Data.List.Nodup
import SiriusDrive.UpdateDriveTaskBase.Settling

/-! # The downloads of a stream

The chunks and the finish info of a stream on their way from the session to the check
whether the stream is finished. A chunk has its entry as soon as its download is
started, so a check may only rely on the entries while nothing is being downloaded.
-/

namespace SiriusDrive

def Torrent.isChunk (torrent : Torrent) : Bool := torrent.use ≠ .finishInfo

/-- The session has neither all pieces of the torrent nor given it up. -/
def Torrent.isUnfinished (torrent : Torrent) : Bool :=
  torrent.state = .added || torrent.state = .metadataReceived

/-- The torrents after one of them has got new data. -/
def Torrent.setIn (torrents : List Torrent) (new : Torrent) : List Torrent :=
  torrents.map fun other => if other.handle = new.handle then new else other

theorem Torrent.mem_setIn {torrents : List Torrent} {new torrent : Torrent}
    (member : torrent ∈ setIn torrents new) :
    torrent = new ∨ torrent ∈ torrents ∧ torrent.handle ≠ new.handle := by
  obtain ⟨old, isOld, isTorrent⟩ := List.mem_map.mp member
  by_cases same : old.handle = new.handle
  · rw [if_pos same] at isTorrent
    exact .inl isTorrent.symm
  · rw [if_neg same] at isTorrent
    exact .inr (isTorrent ▸ ⟨isOld, same⟩)

theorem Torrent.new_mem_setIn {torrents : List Torrent} {old new : Torrent}
    (member : old ∈ torrents) (same : old.handle = new.handle) : new ∈ setIn torrents new :=
  List.mem_map.mpr ⟨old, member, if_pos same⟩

/-- What the end of a stream depends on. -/
structure StreamDownloads extends TaskDownloads where
  /-- The number of cells of `m_chunkInfoList`. -/
  cells : Nat
  finishInfoHash : Option InfoHash
  finishInfo : List FinishStreamChunkInfo

namespace StreamDownloads

variable (downloads : StreamDownloads)

/-- The drive has the file of the hash: it has been downloaded by the task, or it has been there
    before. -/
def IsDownloaded (hash : InfoHash) : Prop :=
  (∃ torrent ∈ downloads.torrents, torrent.infoHash = hash ∧ torrent.state = .finished) ∨
    downloads.recorded hash = true ∧ ∀ torrent ∈ downloads.torrents, torrent.infoHash ≠ hash

/-- The torrent is being downloaded, or its end has not been reported. -/
def IsPending (torrent : Torrent) : Prop :=
  torrent.isUnfinished = true ∨ torrent.handle ∈ downloads.saves ++ downloads.notifications

/-- No download of a chunk has been broken off. -/
def IsUnbroken : Prop :=
  ∀ torrent ∈ downloads.torrents, torrent.isChunk = true → torrent.isRemoved = false

def start (use : DownloadUse) (hash : InfoHash) : StreamDownloads :=
  { downloads with
    torrents := downloads.torrents ++
      [{ handle := downloads.nextHandle, use, infoHash := hash, downloadLimit := 0 }]
    nextHandle := downloads.nextHandle + 1
    recorded := fun other => other == hash || downloads.recorded other }

/-- What a step does to the downloads, as long as the stream is not finished by it. -/
inductive Moves (before : StreamDownloads) : StreamDownloads → Prop
  | settles {after : TaskDownloads} (base : before.toTaskDownloads.Settles after) :
      Moves before { before with toTaskDownloads := after }
  | hears (cells : Nat) (grows : before.cells ≤ cells) : Moves before { before with cells }
  | startsChunk (hash : InfoHash) (idle : before.downloading = none)
      (mayStart : before.hasSandbox = true → before.finishInfo.length < before.cells) :
      Moves before { before.start .chunk hash with downloading := some before.nextHandle }
  | parsesRecorded (hash : InfoHash) (first : before.finishInfoHash = none) :
      Moves before { before with
        finishInfoHash := some hash
        checks := before.checks ++ [.parseFinishInfoFile] }
  | startsFinishInfo (hash : InfoHash) (first : before.finishInfoHash = none) :
      Moves before { before.start .finishInfo hash with finishInfoHash := some hash }
  | receivesMetadata (torrent : Torrent) (member : torrent ∈ before.torrents)
      (isAdded : torrent.state = .added) (size : Nat) :
      Moves before { before with
        torrents := Torrent.setIn before.torrents
          { torrent with uploadedDataSize := size, state := .metadataReceived } }
  | failsChunk (torrent : Torrent) (member : torrent ∈ before.torrents)
      (isAdded : torrent.state = .added) (isChunk : torrent.isChunk = true) :
      Moves before { before with
        torrents := Torrent.setIn before.torrents { torrent with state := .failed }
        recorded := fun other => other != torrent.infoHash && before.recorded other
        downloading := none }
  | failsFinishInfo (torrent : Torrent) (member : torrent ∈ before.torrents)
      (isAdded : torrent.state = .added) (isFinishInfo : torrent.isChunk = false) :
      Moves before { before with
        torrents := Torrent.setIn before.torrents { torrent with state := .failed }
        recorded := fun other => other != torrent.infoHash && before.recorded other }
  | finishes (torrent : Torrent) (member : torrent ∈ before.torrents)
      (hasMetadata : torrent.state = .metadataReceived) :
      Moves before { before with
        torrents := Torrent.setIn before.torrents { torrent with state := .finished }
        saves := before.saves ++ [torrent.handle] }
  | saves (handle : LtHandle) (rest : List LtHandle) (isFirst : before.saves = handle :: rest) :
      Moves before { before with
        saves := rest
        notifications := before.notifications ++ [handle] }
  | notifiesChunk (torrent : Torrent) (rest : List LtHandle) (member : torrent ∈ before.torrents)
      (isFirst : before.notifications = torrent.handle :: rest) (isChunk : torrent.isChunk = true) :
      Moves before { before with
        notifications := rest
        downloading := none
        checks := before.checks ++
          if before.finishInfoHash.isSome then [.checkFinishCondition] else [] }
  | notifiesFinishInfo (torrent : Torrent) (rest : List LtHandle)
      (member : torrent ∈ before.torrents)
      (isFirst : before.notifications = torrent.handle :: rest)
      (isFinishInfo : torrent.isChunk = false) :
      Moves before { before with
        notifications := rest
        checks := before.checks ++ [.parseFinishInfoFile] }
  | checks (job : BackgroundJob) (rest : List BackgroundJob) (isFirst : before.checks = job :: rest) :
      Moves before { before with checks := rest }
  | parses (rest : List BackgroundJob) (loaded : List FinishStreamChunkInfo)
      (isFirst : before.checks = .parseFinishInfoFile :: rest) :
      Moves before { before with checks := rest, finishInfo := loaded }

/-- A check finds the stream to be finished. -/
inductive Passes (before : StreamDownloads) (finishInfo : List FinishStreamChunkInfo) :
    StreamDownloads → Prop
  | intro (job : BackgroundJob) (rest : List BackgroundJob) (isFirst : before.checks = job :: rest)
      (isKnown : job = .parseFinishInfoFile ∨ finishInfo = before.finishInfo)
      (nonempty : finishInfo ≠ []) (cells : before.cells = finishInfo.length)
      (recorded : ∀ info ∈ finishInfo, before.recorded info.chunkInfoHash = true) :
      Passes before finishInfo { before with checks := rest, finishInfo, hasSandbox := true }

theorem Passes.hasSandbox {before after : StreamDownloads} {finishInfo : List FinishStreamChunkInfo}
    (passes : before.Passes finishInfo after) : after.hasSandbox = true := by
  cases passes
  rfl

theorem Moves.hasSandbox {before after : StreamDownloads} (moves : before.Moves after) :
    after.hasSandbox = before.hasSandbox := by
  cases moves with
  | settles base => exact base.hasSandbox
  | _ => rfl

/-! ## What holds of the downloads at any time -/

/-- The torrents are told apart by their handles, each is reported at most once, and the finish
    info is parsed at most once. -/
structure Orderly : Prop where
  nodup : (downloads.torrents.map (·.handle)).Nodup
  below : ∀ torrent ∈ downloads.torrents, torrent.handle < downloads.nextHandle
  queue : (downloads.saves ++ downloads.notifications).Nodup
  finished : ∀ handle ∈ downloads.saves ++ downloads.notifications,
    ∃ torrent ∈ downloads.torrents, torrent.handle = handle ∧ torrent.state = .finished
  oneFinishInfo : ∀ torrent ∈ downloads.torrents, ∀ other ∈ downloads.torrents,
    torrent.isChunk = false → other.isChunk = false → torrent.handle = other.handle
  unasked : downloads.finishInfoHash = none → downloads.finishInfo = [] ∧
    .parseFinishInfoFile ∉ downloads.checks ∧
      ∀ torrent ∈ downloads.torrents, torrent.isChunk = true
  parsed : .parseFinishInfoFile ∈ downloads.checks ∨ downloads.finishInfo ≠ [] →
    ∀ torrent ∈ downloads.torrents, torrent.isChunk = false → ¬ downloads.IsPending torrent
  downloading : ∀ handle, downloads.downloading = some handle →
    ∃ torrent ∈ downloads.torrents, torrent.isChunk = true ∧ torrent.handle = handle

/-- As long as no download has been broken off, one chunk is being downloaded at a time, and an
    entry stands for a file that is there or is being downloaded. -/
structure Tracked : Prop where
  pending : ∀ torrent ∈ downloads.torrents, torrent.isChunk = true →
    downloads.IsPending torrent → downloads.downloading = some torrent.handle
  recorded : ∀ hash, downloads.recorded hash = true → downloads.IsDownloaded hash ∨
    ∃ torrent ∈ downloads.torrents, torrent.infoHash = hash ∧ torrent.isUnfinished = true

/-- The stream has been finished, and no check can find it to be finished again. -/
structure IsOver : Prop where
  finishInfo : downloads.finishInfo ≠ []
  noParse : .parseFinishInfoFile ∉ downloads.checks
  noChunk : downloads.finishInfo.length < downloads.cells ∨ downloads.checks = [] ∧
    ∀ torrent ∈ downloads.torrents, torrent.isChunk = true → ¬ downloads.IsPending torrent

structure Sound : Prop where
  orderly : downloads.Orderly
  tracked : downloads.IsUnbroken → downloads.Tracked
  isOver : downloads.hasSandbox = true → downloads.IsOver

variable {downloads}

theorem Orderly.eq_of_handle (orderly : downloads.Orderly) {torrent other : Torrent}
    (member : torrent ∈ downloads.torrents) (isOther : other ∈ downloads.torrents)
    (same : torrent.handle = other.handle) : torrent = other :=
  List.inj_on_of_nodup_map orderly.nodup member isOther same

theorem Orderly.isFinished (orderly : downloads.Orderly) {torrent : Torrent}
    (member : torrent ∈ downloads.torrents)
    (queued : torrent.handle ∈ downloads.saves ++ downloads.notifications) :
    torrent.state = .finished := by
  obtain ⟨other, isOther, same, finished⟩ := orderly.finished _ queued
  obtain rfl := orderly.eq_of_handle isOther member same
  exact finished

/-! ## Torrents get on -/

/-- The session has learned something about a torrent. -/
structure Evolves (before after : Torrent) : Prop where
  handle : after.handle = before.handle
  use : after.use = before.use
  infoHash : after.infoHash = before.infoHash
  isRemoved : before.isRemoved = true → after.isRemoved = true
  finished : before.state = .finished → after.state = .finished
  unfinished : after.isUnfinished = true → before.isUnfinished = true

theorem Evolves.refl (torrent : Torrent) : Evolves torrent torrent where
  handle := rfl
  use := rfl
  infoHash := rfl
  isRemoved := fun removed => removed
  finished := fun isFinished => isFinished
  unfinished := fun isUnfinished => isUnfinished

theorem Evolves.removedBy (torrent : Torrent) (handles : List LtHandle) :
    Evolves torrent (torrent.removedBy handles) := by
  unfold Torrent.removedBy
  split
  · exact { Evolves.refl torrent with isRemoved := fun _ => rfl }
  · exact .refl torrent

theorem Evolves.isChunk {before after : Torrent} (evolves : Evolves before after) :
    after.isChunk = before.isChunk := by
  unfold Torrent.isChunk
  rw [evolves.use]

theorem Orderly.evolves_setIn (orderly : downloads.Orderly) {torrent new : Torrent}
    (member : torrent ∈ downloads.torrents) (evolves : Evolves torrent new) :
    ∀ other ∈ downloads.torrents,
      Evolves other (if other.handle = new.handle then new else other) := by
  intro other isOther
  split
  · rename_i same
    obtain rfl := orderly.eq_of_handle isOther member (same.trans evolves.handle)
    exact evolves
  · exact .refl other

section Evolve

variable {f : Torrent → Torrent}

theorem IsPending.of_evolves (downloads : StreamDownloads) {torrent new : Torrent} (evolves : Evolves torrent new)
    (pending : downloads.IsPending new) : downloads.IsPending torrent := by
  rcases pending with unfinished | queued
  · exact .inl (evolves.unfinished unfinished)
  · exact .inr (evolves.handle ▸ queued)

theorem Orderly.evolve (orderly : downloads.Orderly)
    (each : ∀ torrent ∈ downloads.torrents, Evolves torrent (f torrent)) :
    { downloads with torrents := downloads.torrents.map f }.Orderly where
  nodup := by
    have sameHandles : (downloads.torrents.map f).map (·.handle) =
        downloads.torrents.map (·.handle) := by
      rw [List.map_map]
      exact List.map_congr_left fun torrent member => (each torrent member).handle
    rw [sameHandles]
    exact orderly.nodup
  below := by
    intro torrent member
    obtain ⟨old, isOld, rfl⟩ := List.mem_map.mp member
    rw [(each old isOld).handle]
    exact orderly.below old isOld
  queue := orderly.queue
  finished := by
    intro handle queued
    obtain ⟨torrent, member, isHandle, finished⟩ := orderly.finished handle queued
    have evolves := each torrent member
    exact ⟨f torrent, List.mem_map_of_mem member, evolves.handle.trans isHandle,
      evolves.finished finished⟩
  oneFinishInfo := by
    intro torrent member other isOther isFinishInfo otherFinishInfo
    obtain ⟨old, isOld, rfl⟩ := List.mem_map.mp member
    obtain ⟨older, isOlder, rfl⟩ := List.mem_map.mp isOther
    rw [(each old isOld).isChunk] at isFinishInfo
    rw [(each older isOlder).isChunk] at otherFinishInfo
    rw [(each old isOld).handle, (each older isOlder).handle]
    exact orderly.oneFinishInfo old isOld older isOlder isFinishInfo otherFinishInfo
  unasked := by
    intro first
    obtain ⟨none, noParse, chunks⟩ := orderly.unasked first
    refine ⟨none, noParse, ?_⟩
    intro torrent member
    obtain ⟨old, isOld, rfl⟩ := List.mem_map.mp member
    rw [(each old isOld).isChunk]
    exact chunks old isOld
  parsed := by
    intro parsed torrent member isFinishInfo pending
    obtain ⟨old, isOld, rfl⟩ := List.mem_map.mp member
    rw [(each old isOld).isChunk] at isFinishInfo
    exact orderly.parsed parsed old isOld isFinishInfo
      (IsPending.of_evolves downloads (each old isOld) pending)
  downloading := by
    intro handle isHandle
    obtain ⟨torrent, member, isChunk, same⟩ := orderly.downloading handle isHandle
    have evolves := each torrent member
    exact ⟨f torrent, List.mem_map_of_mem member, evolves.isChunk.trans isChunk,
      evolves.handle.trans same⟩

/-- A download that has not been broken off now has not been broken off before. -/
theorem IsUnbroken.of_evolve (each : ∀ torrent ∈ downloads.torrents, Evolves torrent (f torrent))
    (unbroken : { downloads with torrents := downloads.torrents.map f }.IsUnbroken) :
    downloads.IsUnbroken := by
  intro torrent member isChunk
  have evolves := each torrent member
  have kept := unbroken (f torrent) (List.mem_map_of_mem member) (evolves.isChunk.trans isChunk)
  cases removed : torrent.isRemoved with
  | false => rfl
  | true => exact absurd (evolves.isRemoved removed) (by simp [kept])

theorem Tracked.evolve (tracked : downloads.Tracked) {recorded : InfoHash → Bool}
    (each : ∀ torrent ∈ downloads.torrents, Evolves torrent (f torrent))
    (fewer : ∀ hash, recorded hash = true → downloads.recorded hash = true)
    (failed : ∀ torrent ∈ downloads.torrents, torrent.isUnfinished = true →
      (f torrent).state = .failed → recorded torrent.infoHash = false) :
    { downloads with torrents := downloads.torrents.map f, recorded }.Tracked where
  pending := by
    intro torrent member isChunk pending
    obtain ⟨old, isOld, rfl⟩ := List.mem_map.mp member
    have evolves := each old isOld
    rw [evolves.handle]
    exact tracked.pending old isOld (evolves.isChunk.symm.trans isChunk)
      (IsPending.of_evolves downloads evolves pending)
  recorded := by
    intro hash isRecorded
    rcases tracked.recorded hash (fewer hash isRecorded) with
      (⟨torrent, member, isHash, finished⟩ | ⟨_, foreign⟩) | ⟨torrent, member, isHash, unfinished⟩
    · have evolves := each torrent member
      exact .inl (.inl ⟨f torrent, List.mem_map_of_mem member, evolves.infoHash.trans isHash,
        evolves.finished finished⟩)
    · refine .inl (.inr ⟨isRecorded, ?_⟩)
      intro torrent member
      obtain ⟨old, isOld, rfl⟩ := List.mem_map.mp member
      rw [(each old isOld).infoHash]
      exact foreign old isOld
    · have evolves := each torrent member
      have isNew : f torrent ∈ downloads.torrents.map f := List.mem_map_of_mem member
      cases state : (f torrent).state with
      | added | metadataReceived =>
          refine .inr ⟨f torrent, isNew, evolves.infoHash.trans isHash, ?_⟩
          simp [Torrent.isUnfinished, state]
      | finished => exact .inl (.inl ⟨f torrent, isNew, evolves.infoHash.trans isHash, state⟩)
      | failed =>
          have lost := failed torrent member unfinished state
          rw [isHash] at lost
          cases isRecorded.symm.trans lost

theorem IsOver.evolve (ended : downloads.IsOver) {recorded : InfoHash → Bool}
    (each : ∀ torrent ∈ downloads.torrents, Evolves torrent (f torrent)) :
    { downloads with torrents := downloads.torrents.map f, recorded }.IsOver where
  finishInfo := ended.finishInfo
  noParse := ended.noParse
  noChunk := by
    rcases ended.noChunk with longer | ⟨noCheck, idle⟩
    · exact .inl longer
    · refine .inr ⟨noCheck, ?_⟩
      intro torrent member isChunk pending
      obtain ⟨old, isOld, rfl⟩ := List.mem_map.mp member
      exact idle old isOld ((each old isOld).isChunk.symm.trans isChunk)
        (IsPending.of_evolves downloads (each old isOld) pending)

theorem Sound.evolve (sound : downloads.Sound) {recorded : InfoHash → Bool}
    (each : ∀ torrent ∈ downloads.torrents, Evolves torrent (f torrent))
    (fewer : ∀ hash, recorded hash = true → downloads.recorded hash = true)
    (failed : ∀ torrent ∈ downloads.torrents, torrent.isUnfinished = true →
      (f torrent).state = .failed → recorded torrent.infoHash = false) :
    { downloads with torrents := downloads.torrents.map f, recorded }.Sound where
  orderly := { sound.orderly.evolve each with }
  tracked := by
    intro unbroken
    exact (sound.tracked (IsUnbroken.of_evolve each unbroken)).evolve each fewer failed
  isOver := fun hasSandbox => (sound.isOver hasSandbox).evolve each

end Evolve

end StreamDownloads

end SiriusDrive
