import SiriusDrive.StreamTask.Downloads

/-! # Sound downloads of a stream

Every step of a stream keeps its downloads sound, and so does a check that passes while
nothing is being downloaded: it is the first one, and all files are there.
-/

namespace SiriusDrive.StreamDownloads

variable {downloads : StreamDownloads}

theorem Sound.stop (sound : downloads.Sound)
    (none : downloads.IsUnbroken → ∀ torrent ∈ downloads.torrents, torrent.isChunk = true →
      ¬ downloads.IsPending torrent) :
    { downloads with downloading := Option.none }.Sound where
  orderly :=
    { sound.orderly with
      downloading := fun _ isHandle => by cases isHandle }
  tracked := fun unbroken =>
    { sound.tracked unbroken with
      pending := fun torrent member isChunk pending =>
        absurd pending (none unbroken torrent member isChunk) }
  isOver := fun hasSandbox => { sound.isOver hasSandbox with }

theorem Sound.settles (sound : downloads.Sound) {after : TaskDownloads}
    (base : downloads.toTaskDownloads.Settles after) :
    { downloads with toTaskDownloads := after }.Sound := by
  obtain ⟨torrents, nextHandle, downloading, recorded, saves, notifications, checks,
    hasSandbox⟩ := after
  obtain ⟨⟨handles, rfl, given⟩, later, fewer, rfl, rfl, rfl, rfl⟩ := base
  have each : ∀ torrent ∈ downloads.torrents, Evolves torrent (torrent.removedBy handles) :=
    fun torrent _ => .removedBy torrent handles
  have evolved := sound.evolve each fewer (by
    intro torrent _ unfinished failed
    unfold Torrent.removedBy at failed
    split at failed
    all_goals
      have isFailed : torrent.state = .failed := failed
      simp [Torrent.isUnfinished, isFailed] at unfinished)
  have waits : { downloads with
      torrents := downloads.torrents.map fun torrent => Torrent.removedBy torrent handles
      nextHandle, recorded }.Sound :=
    { evolved with
      orderly :=
        { evolved.orderly with
          below := fun torrent member => Nat.lt_of_lt_of_le (evolved.orderly.below torrent member) later }
      tracked := fun unbroken => { evolved.tracked unbroken with }
      isOver := fun hasSandbox => { evolved.isOver hasSandbox with } }
  rcases given with rfl | ⟨rfl, handle, isRemoved, isDownloading⟩
  · exact waits
  · apply waits.stop
    intro unbroken
    -- the chunk that was being downloaded is broken off
    obtain ⟨torrent, member, isChunk, isHandle⟩ := sound.orderly.downloading handle isDownloading
    have kept := unbroken _ (List.mem_map_of_mem member) ((each torrent member).isChunk.trans isChunk)
    rw [Torrent.removedBy, if_pos (isHandle ▸ isRemoved)] at kept
    cases kept

theorem Sound.hears (sound : downloads.Sound) {cells : Nat} (grows : downloads.cells ≤ cells) :
    { downloads with cells }.Sound where
  orderly := { sound.orderly with }
  tracked := fun unbroken => { sound.tracked unbroken with }
  isOver := fun hasSandbox =>
    { sound.isOver hasSandbox with
      noChunk := (sound.isOver hasSandbox).noChunk.imp_left fun longer =>
        Nat.lt_of_lt_of_le longer grows }

section Start

variable {use : DownloadUse} {hash : InfoHash}

theorem mem_start {torrent : Torrent} : torrent ∈ (downloads.start use hash).torrents ↔
    torrent ∈ downloads.torrents ∨
      torrent = { handle := downloads.nextHandle, use, infoHash := hash, downloadLimit := 0 } := by
  simp [start]

theorem IsUnbroken.of_start (unbroken : (downloads.start use hash).IsUnbroken) :
    downloads.IsUnbroken :=
  fun torrent member => unbroken torrent (mem_start.mpr (.inl member))

theorem Tracked.recorded_start (tracked : downloads.Tracked) {other : InfoHash}
    (isRecorded : (downloads.start use hash).recorded other = true) :
    (downloads.start use hash).IsDownloaded other ∨
      ∃ torrent ∈ (downloads.start use hash).torrents,
        torrent.infoHash = other ∧ torrent.isUnfinished = true := by
  by_cases same : other = hash
  · subst same
    exact .inr ⟨_, mem_start.mpr (.inr rfl), rfl, rfl⟩
  · have before : downloads.recorded other = true := by
      simpa [start, same] using isRecorded
    rcases tracked.recorded other before with
      (⟨torrent, member, isHash, finished⟩ | ⟨_, foreign⟩) | ⟨torrent, member, found⟩
    · exact .inl (.inl ⟨torrent, mem_start.mpr (.inl member), isHash, finished⟩)
    · refine .inl (.inr ⟨isRecorded, ?_⟩)
      intro torrent member
      rcases mem_start.mp member with old | rfl
      · exact foreign torrent old
      · exact fun isHash => same isHash.symm
    · exact .inr ⟨torrent, mem_start.mpr (.inl member), found⟩

theorem Orderly.nodup_start (orderly : downloads.Orderly) :
    ((downloads.start use hash).torrents.map (·.handle)).Nodup := by
  simp only [start, List.map_append, List.map_cons, List.map_nil]
  rw [List.nodup_append]
  refine ⟨orderly.nodup, List.nodup_singleton _, ?_⟩
  intro handle isOld other isNew
  obtain ⟨torrent, member, rfl⟩ := List.mem_map.mp isOld
  rw [List.mem_singleton.mp isNew]
  exact Nat.ne_of_lt (orderly.below torrent member)

theorem Orderly.below_start (orderly : downloads.Orderly) :
    ∀ torrent ∈ (downloads.start use hash).torrents,
      torrent.handle < (downloads.start use hash).nextHandle := by
  intro torrent member
  rcases mem_start.mp member with old | rfl
  · exact Nat.lt_succ_of_lt (orderly.below torrent old)
  · exact Nat.lt_succ_self _

theorem Orderly.finished_start (orderly : downloads.Orderly) :
    ∀ handle ∈ downloads.saves ++ downloads.notifications,
      ∃ torrent ∈ (downloads.start use hash).torrents,
        torrent.handle = handle ∧ torrent.state = .finished := by
  intro handle queued
  obtain ⟨torrent, member, found⟩ := orderly.finished handle queued
  exact ⟨torrent, mem_start.mpr (.inl member), found⟩

end Start

theorem Sound.startChunk (sound : downloads.Sound) (hash : InfoHash)
    (idle : downloads.downloading = none)
    (mayStart : downloads.hasSandbox = true → downloads.finishInfo.length < downloads.cells) :
    { downloads.start .chunk hash with downloading := some downloads.nextHandle }.Sound where
  orderly :=
    { nodup := sound.orderly.nodup_start
      below := sound.orderly.below_start
      queue := sound.orderly.queue
      finished := sound.orderly.finished_start
      oneFinishInfo := by
        intro torrent member other isOther isFinishInfo otherFinishInfo
        rcases mem_start.mp member with old | rfl
        · rcases mem_start.mp isOther with older | rfl
          · exact sound.orderly.oneFinishInfo torrent old other older isFinishInfo otherFinishInfo
          · cases otherFinishInfo
        · cases isFinishInfo
      unasked := by
        intro first
        obtain ⟨none, noParse, chunks⟩ := sound.orderly.unasked first
        refine ⟨none, noParse, ?_⟩
        intro torrent member
        rcases mem_start.mp member with old | rfl
        · exact chunks torrent old
        · rfl
      parsed := by
        intro parsed torrent member isFinishInfo
        rcases mem_start.mp member with old | rfl
        · exact sound.orderly.parsed parsed torrent old isFinishInfo
        · cases isFinishInfo
      downloading := by
        intro handle isHandle
        exact ⟨_, mem_start.mpr (.inr rfl), rfl, Option.some.inj isHandle⟩ }
  tracked := by
    intro unbroken
    have started : (downloads.start .chunk hash).IsUnbroken := unbroken
    have tracked := sound.tracked started.of_start
    refine ⟨?_, fun _ isRecorded => tracked.recorded_start isRecorded⟩
    intro torrent member isChunk pending
    rcases mem_start.mp member with old | rfl
    · cases idle.symm.trans (tracked.pending torrent old isChunk pending)
    · rfl
  isOver := fun hasSandbox =>
    { finishInfo := (sound.isOver hasSandbox).finishInfo
      noParse := (sound.isOver hasSandbox).noParse
      noChunk := .inl (mayStart hasSandbox) }

theorem Sound.noSandbox (sound : downloads.Sound) (first : downloads.finishInfoHash = none) :
    downloads.hasSandbox = false := by
  cases hasSandbox : downloads.hasSandbox with
  | false => rfl
  | true => exact absurd (sound.orderly.unasked first).1 (sound.isOver hasSandbox).finishInfo

theorem Sound.startFinishInfo (sound : downloads.Sound) (hash : InfoHash)
    (first : downloads.finishInfoHash = none) :
    { downloads.start .finishInfo hash with finishInfoHash := some hash }.Sound where
  orderly :=
    { nodup := sound.orderly.nodup_start
      below := sound.orderly.below_start
      queue := sound.orderly.queue
      finished := sound.orderly.finished_start
      oneFinishInfo := by
        intro torrent member other isOther isFinishInfo otherFinishInfo
        have chunks := (sound.orderly.unasked first).2.2
        rcases mem_start.mp member with old | rfl
        · cases isFinishInfo.symm.trans (chunks torrent old)
        · rcases mem_start.mp isOther with older | rfl
          · cases otherFinishInfo.symm.trans (chunks other older)
          · rfl
      unasked := fun first => by cases first
      parsed := by
        obtain ⟨none, noParse, _⟩ := sound.orderly.unasked first
        rintro (parses | known)
        · exact absurd parses noParse
        · exact absurd none known
      downloading := by
        intro handle isHandle
        obtain ⟨torrent, member, found⟩ := sound.orderly.downloading handle isHandle
        exact ⟨torrent, mem_start.mpr (.inl member), found⟩ }
  tracked := by
    intro unbroken
    have started : (downloads.start .finishInfo hash).IsUnbroken := unbroken
    have tracked := sound.tracked started.of_start
    refine ⟨?_, fun _ isRecorded => tracked.recorded_start isRecorded⟩
    intro torrent member isChunk pending
    rcases mem_start.mp member with old | rfl
    · exact tracked.pending torrent old isChunk pending
    · cases isChunk
  isOver := fun hasSandbox => by cases hasSandbox.symm.trans (sound.noSandbox first)

theorem Sound.parseRecorded (sound : downloads.Sound) (hash : InfoHash)
    (first : downloads.finishInfoHash = none) :
    { downloads with
      finishInfoHash := some hash
      checks := downloads.checks ++ [BackgroundJob.parseFinishInfoFile] }.Sound where
  orderly :=
    { sound.orderly with
      unasked := fun first => by cases first
      parsed := by
        intro _ torrent member isFinishInfo
        cases isFinishInfo.symm.trans ((sound.orderly.unasked first).2.2 torrent member) }
  tracked := fun unbroken => { sound.tracked unbroken with }
  isOver := fun hasSandbox => by cases hasSandbox.symm.trans (sound.noSandbox first)

section Torrents

variable {torrent : Torrent}

theorem evolves_added (isAdded : torrent.state = .added) (state : TorrentState) (size : Nat) :
    Evolves torrent { torrent with uploadedDataSize := size, state } :=
  { Evolves.refl torrent with
    finished := fun finished => by cases isAdded.symm.trans finished
    unfinished := fun _ => by simp [Torrent.isUnfinished, isAdded] }

theorem Sound.receiveMetadata (sound : downloads.Sound) (member : torrent ∈ downloads.torrents)
    (isAdded : torrent.state = .added) (size : Nat) :
    { downloads with
      torrents := Torrent.setIn downloads.torrents
        { torrent with uploadedDataSize := size, state := .metadataReceived } }.Sound := by
  have each := sound.orderly.evolves_setIn member
    (evolves_added isAdded .metadataReceived size)
  apply sound.evolve each (fun _ isRecorded => isRecorded)
  intro other isOther unfinished failed
  simp only at failed
  split at failed
  · cases failed
  · simp [Torrent.isUnfinished, failed] at unfinished

theorem Sound.fail (sound : downloads.Sound) (member : torrent ∈ downloads.torrents)
    (isAdded : torrent.state = .added) :
    { downloads with
      torrents := Torrent.setIn downloads.torrents { torrent with state := .failed }
      recorded := fun other => other != torrent.infoHash && downloads.recorded other }.Sound := by
  have each := sound.orderly.evolves_setIn member
    (evolves_added isAdded .failed torrent.uploadedDataSize)
  apply sound.evolve each
  · intro hash isRecorded
    exact ((Bool.and_eq_true _ _).mp isRecorded).2
  · intro other isOther unfinished failed
    simp only at failed
    split at failed
    · rename_i same
      obtain rfl := sound.orderly.eq_of_handle isOther member same
      simp
    · simp [Torrent.isUnfinished, failed] at unfinished

theorem Sound.failChunk (sound : downloads.Sound) (member : torrent ∈ downloads.torrents)
    (isAdded : torrent.state = .added) (isChunk : torrent.isChunk = true) :
    { downloads with
      torrents := Torrent.setIn downloads.torrents { torrent with state := .failed }
      recorded := fun other => other != torrent.infoHash && downloads.recorded other
      downloading := none }.Sound := by
  have evolves := evolves_added isAdded .failed torrent.uploadedDataSize
  have each := sound.orderly.evolves_setIn member evolves
  have pending : downloads.IsPending torrent := .inl (by simp [Torrent.isUnfinished, isAdded])
  apply (sound.fail member isAdded).stop
  intro unbroken other isOther otherIsChunk otherIsPending
  have tracked := sound.tracked (IsUnbroken.of_evolve each unbroken)
  have isDownloading := tracked.pending torrent member isChunk pending
  rcases Torrent.mem_setIn isOther with rfl | ⟨isOld, apart⟩
  · rcases otherIsPending with unfinished | queued
    · cases unfinished
    · cases isAdded.symm.trans (sound.orderly.isFinished member queued)
  · have same := tracked.pending other isOld otherIsChunk otherIsPending
    exact apart (Option.some.inj (same.symm.trans isDownloading))

theorem Sound.finish (sound : downloads.Sound) (member : torrent ∈ downloads.torrents)
    (hasMetadata : torrent.state = .metadataReceived) :
    { downloads with
      torrents := Torrent.setIn downloads.torrents { torrent with state := .finished }
      saves := downloads.saves ++ [torrent.handle] }.Sound := by
  have evolves : Evolves torrent { torrent with state := .finished } :=
    { Evolves.refl torrent with
      finished := fun _ => rfl
      unfinished := fun _ => by simp [Torrent.isUnfinished, hasMetadata] }
  have each := sound.orderly.evolves_setIn member evolves
  have evolved := sound.evolve each (fun _ isRecorded => isRecorded) (by
    intro other _ unfinished failed
    simp only at failed
    split at failed
    · cases failed
    · simp [Torrent.isUnfinished, failed] at unfinished)
  have pending : downloads.IsPending torrent := .inl (by simp [Torrent.isUnfinished, hasMetadata])
  have unsaved : torrent.handle ∉ downloads.saves ++ downloads.notifications := by
    intro queued
    cases hasMetadata.symm.trans (sound.orderly.isFinished member queued)
  have isNew : { torrent with state := .finished } ∈
      Torrent.setIn downloads.torrents { torrent with state := .finished } :=
    Torrent.new_mem_setIn member rfl
  -- what waits now, but for this torrent, has been waiting before
  have wasPending : ∀ other : Torrent,
      { downloads with
        torrents := Torrent.setIn downloads.torrents { torrent with state := .finished }
        saves := downloads.saves ++ [torrent.handle] }.IsPending other →
      downloads.IsPending other ∨ other.handle = torrent.handle := by
    intro other otherIsPending
    rcases otherIsPending with unfinished | queued
    · exact .inl (.inl unfinished)
    · simp only [List.mem_append, List.mem_singleton] at queued
      rcases queued with (saved | same) | notified
      · exact .inl (.inr (List.mem_append_left _ saved))
      · exact .inr same
      · exact .inl (.inr (List.mem_append_right _ notified))
  exact
    { orderly :=
        { evolved.orderly with
          queue := by
            simp only [List.append_assoc, List.singleton_append]
            exact (List.nodup_middle.mpr (List.nodup_cons.mpr ⟨unsaved, sound.orderly.queue⟩))
          finished := by
            intro handle queued
            simp only [List.mem_append, List.mem_singleton] at queued
            rcases queued with (saved | rfl) | notified
            · exact evolved.orderly.finished handle (List.mem_append_left _ saved)
            · exact ⟨_, isNew, rfl, rfl⟩
            · exact evolved.orderly.finished handle (List.mem_append_right _ notified)
          parsed := by
            intro parsed other isOther isFinishInfo otherIsPending
            rcases wasPending other otherIsPending with before | same
            · exact evolved.orderly.parsed parsed other isOther isFinishInfo before
            · rcases Torrent.mem_setIn isOther with rfl | ⟨_, apart⟩
              · exact sound.orderly.parsed parsed torrent member isFinishInfo pending
              · exact apart same }
      tracked := fun unbroken =>
        { evolved.tracked unbroken with
          pending := by
            intro other isOther isChunk otherIsPending
            rcases wasPending other otherIsPending with before | same
            · exact (evolved.tracked unbroken).pending other isOther isChunk before
            · rcases Torrent.mem_setIn isOther with rfl | ⟨_, apart⟩
              · exact (sound.tracked (IsUnbroken.of_evolve each unbroken)).pending torrent member
                  isChunk pending
              · exact absurd same apart }
      isOver := fun hasSandbox =>
        { evolved.isOver hasSandbox with
          noChunk := by
            rcases (sound.isOver hasSandbox).noChunk with longer | ⟨noCheck, idle⟩
            · exact .inl longer
            · refine .inr ⟨noCheck, ?_⟩
              intro other isOther isChunk otherIsPending
              rcases Torrent.mem_setIn isOther with rfl | ⟨isOld, apart⟩
              · exact idle torrent member isChunk pending
              · rcases wasPending other otherIsPending with before | same
                · exact idle other isOld isChunk before
                · exact apart same } }

end Torrents

section Queue

variable {handle : LtHandle} {rest : List LtHandle}

theorem Sound.save (sound : downloads.Sound) (isFirst : downloads.saves = handle :: rest) :
    { downloads with
      saves := rest
      notifications := downloads.notifications ++ [handle] }.Sound := by
  have perm : (rest ++ (downloads.notifications ++ [handle])).Perm
      (downloads.saves ++ downloads.notifications) := by
    rw [isFirst, ← List.append_assoc]
    exact List.perm_append_singleton handle _
  have samePending : ∀ torrent : Torrent,
      { downloads with
        saves := rest
        notifications := downloads.notifications ++ [handle] }.IsPending torrent →
      downloads.IsPending torrent :=
    fun torrent pending => pending.imp_right perm.mem_iff.mp
  exact
    { orderly :=
        { sound.orderly with
          queue := perm.nodup_iff.mpr sound.orderly.queue
          finished := fun other queued => sound.orderly.finished other (perm.mem_iff.mp queued)
          parsed := fun parsed torrent member isFinishInfo pending =>
            sound.orderly.parsed parsed torrent member isFinishInfo (samePending torrent pending) }
      tracked := fun unbroken =>
        { sound.tracked unbroken with
          pending := fun torrent member isChunk pending =>
            (sound.tracked unbroken).pending torrent member isChunk (samePending torrent pending) }
      isOver := fun hasSandbox =>
        { sound.isOver hasSandbox with
          noChunk := (sound.isOver hasSandbox).noChunk.imp_right fun ⟨noCheck, idle⟩ =>
            ⟨noCheck, fun torrent member isChunk pending =>
              idle torrent member isChunk (samePending torrent pending)⟩ } }

end Queue

section Notify

variable {torrent : Torrent} {rest : List LtHandle}

/-- A reported torrent is not pending any more, and what is pending then was it before. -/
theorem Orderly.reported (orderly : downloads.Orderly) (member : torrent ∈ downloads.torrents)
    (isFirst : downloads.notifications = torrent.handle :: rest) :
    downloads.IsPending torrent ∧ ¬ { downloads with notifications := rest }.IsPending torrent ∧
      ∀ other, { downloads with notifications := rest }.IsPending other →
        downloads.IsPending other := by
  have queued : torrent.handle ∈ downloads.saves ++ downloads.notifications := by simp [isFirst]
  have once : torrent.handle ∉ downloads.saves ++ rest := by
    have nodup := orderly.queue
    rw [isFirst, List.nodup_middle] at nodup
    exact (List.nodup_cons.mp nodup).1
  refine ⟨.inr queued, ?_, ?_⟩
  · rintro (unfinished | again)
    · simp [Torrent.isUnfinished, orderly.isFinished member queued] at unfinished
    · exact once again
  · intro other pending
    refine pending.imp_right fun later => ?_
    rw [isFirst]
    simp only [List.mem_append, List.mem_cons] at later ⊢
    exact later.imp_right .inr

theorem Orderly.report (orderly : downloads.Orderly) (member : torrent ∈ downloads.torrents)
    (isFirst : downloads.notifications = torrent.handle :: rest) :
    { downloads with notifications := rest }.Orderly := by
  obtain ⟨_, _, wasPending⟩ := orderly.reported member isFirst
  exact
    { orderly with
      queue := by
        have nodup := orderly.queue
        rw [isFirst, List.nodup_middle] at nodup
        exact (List.nodup_cons.mp nodup).2
      finished := by
        intro handle queued
        apply orderly.finished handle
        rw [isFirst]
        simp only [List.mem_append, List.mem_cons] at queued ⊢
        exact queued.imp_right .inr
      parsed := fun parsed other isOther isFinishInfo pending =>
        orderly.parsed parsed other isOther isFinishInfo (wasPending other pending) }

theorem Sound.notifyChunk (sound : downloads.Sound) (member : torrent ∈ downloads.torrents)
    (isFirst : downloads.notifications = torrent.handle :: rest) (isChunk : torrent.isChunk = true)
    {job : List BackgroundJob} (noParse : .parseFinishInfoFile ∉ job) :
    { downloads with
      notifications := rest
      downloading := none
      checks := downloads.checks ++ job }.Sound := by
  obtain ⟨pending, reported, wasPending⟩ := sound.orderly.reported member isFirst
  have orderly := sound.orderly.report member isFirst
  have sameParse : BackgroundJob.parseFinishInfoFile ∈ downloads.checks ++ job ↔
      .parseFinishInfoFile ∈ downloads.checks := by
    rw [List.mem_append, or_iff_left noParse]
  exact
    { orderly :=
        { orderly with
          unasked := fun first => ⟨(orderly.unasked first).1,
            fun parses => (orderly.unasked first).2.1 (sameParse.mp parses),
            (orderly.unasked first).2.2⟩
          parsed := fun parsed => orderly.parsed (parsed.imp_left sameParse.mp)
          downloading := fun _ isHandle => by cases isHandle }
      tracked := by
        intro unbroken
        have tracked := sound.tracked unbroken
        refine { tracked with pending := ?_ }
        intro other isOther otherIsChunk otherIsPending
        have isDownloading := tracked.pending torrent member isChunk pending
        have same := tracked.pending other isOther otherIsChunk (wasPending other otherIsPending)
        obtain rfl := sound.orderly.eq_of_handle isOther member
          (Option.some.inj (same.symm.trans isDownloading))
        exact absurd otherIsPending reported
      isOver := by
        intro hasSandbox
        have ended := sound.isOver hasSandbox
        refine
          { finishInfo := ended.finishInfo
            noParse := fun parses => ended.noParse (sameParse.mp parses)
            noChunk := ?_ }
        rcases ended.noChunk with longer | ⟨_, idle⟩
        · exact .inl longer
        · exact absurd pending (idle torrent member isChunk) }

theorem Sound.notifyFinishInfo (sound : downloads.Sound) (member : torrent ∈ downloads.torrents)
    (isFirst : downloads.notifications = torrent.handle :: rest)
    (isFinishInfo : torrent.isChunk = false) :
    { downloads with
      notifications := rest
      checks := downloads.checks ++ [BackgroundJob.parseFinishInfoFile] }.Sound := by
  obtain ⟨pending, reported, wasPending⟩ := sound.orderly.reported member isFirst
  have orderly := sound.orderly.report member isFirst
  exact
    { orderly :=
        { orderly with
          unasked := fun first =>
            absurd ((orderly.unasked first).2.2 torrent member) (by simp [isFinishInfo])
          parsed := by
            intro _ other isOther otherIsFinishInfo otherIsPending
            obtain rfl := sound.orderly.eq_of_handle isOther member
              (sound.orderly.oneFinishInfo other isOther torrent member otherIsFinishInfo isFinishInfo)
            exact reported otherIsPending }
      tracked := fun unbroken =>
        { sound.tracked unbroken with
          pending := fun other isOther isChunk otherIsPending =>
            (sound.tracked unbroken).pending other isOther isChunk (wasPending other otherIsPending) }
      isOver := fun hasSandbox =>
        absurd pending (sound.orderly.parsed (.inr (sound.isOver hasSandbox).finishInfo) torrent
          member isFinishInfo) }

end Notify

section Checks

variable {job : BackgroundJob} {rest : List BackgroundJob}

theorem Sound.check (sound : downloads.Sound) (isFirst : downloads.checks = job :: rest)
    {finishInfo : List FinishStreamChunkInfo}
    (isKnown : job = .parseFinishInfoFile ∨ finishInfo = downloads.finishInfo) :
    { downloads with checks := rest, finishInfo }.Sound := by
  have later : ∀ other ∈ rest, other ∈ downloads.checks := by
    intro other member
    rw [isFirst]
    exact List.mem_cons_of_mem _ member
  exact
    { orderly :=
        { sound.orderly with
          unasked := by
            intro first
            obtain ⟨none, noParse, chunks⟩ := sound.orderly.unasked first
            refine ⟨?_, fun parses => noParse (later _ parses), chunks⟩
            rcases isKnown with rfl | rfl
            · exact absurd (isFirst ▸ List.mem_cons_self) noParse
            · exact none
          parsed := by
            intro parsed
            apply sound.orderly.parsed
            rcases parsed with parses | known
            · exact .inl (later _ parses)
            · rcases isKnown with rfl | rfl
              · exact .inl (isFirst ▸ List.mem_cons_self)
              · exact .inr known }
      tracked := fun unbroken => { sound.tracked unbroken with }
      isOver := by
        intro hasSandbox
        have ended := sound.isOver hasSandbox
        obtain rfl := isKnown.resolve_left fun isParse =>
          ended.noParse (isParse ▸ isFirst ▸ List.mem_cons_self)
        refine
          { finishInfo := ended.finishInfo
            noParse := fun parses => ended.noParse (later _ parses)
            noChunk := ?_ }
        refine ended.noChunk.imp_right fun ⟨noCheck, _⟩ => ?_
        cases isFirst.symm.trans noCheck }

end Checks

/-! ## Runs -/

theorem sound_of_idle (torrents : downloads.torrents = [])
    (jobs : downloads.saves = [] ∧ downloads.notifications = [] ∧ downloads.checks = [])
    (idle : downloads.downloading = none) (unasked : downloads.finishInfo = [])
    (noSandbox : downloads.hasSandbox = false) : downloads.Sound where
  orderly :=
    { nodup := by simp [torrents]
      below := by simp [torrents]
      queue := by simp [jobs]
      finished := by simp [jobs]
      oneFinishInfo := by simp [torrents]
      unasked := fun _ => by simp [torrents, jobs, unasked]
      parsed := by simp [torrents]
      downloading := by simp [idle] }
  tracked := fun _ =>
    { pending := by simp [torrents]
      recorded := fun hash isRecorded => .inl (.inr ⟨isRecorded, by simp [torrents]⟩) }
  isOver := fun hasSandbox => by cases noSandbox.symm.trans hasSandbox

theorem Sound.moves {after : StreamDownloads} (sound : downloads.Sound)
    (moves : downloads.Moves after) : after.Sound := by
  cases moves with
  | settles base => exact sound.settles base
  | hears cells grows => exact sound.hears grows
  | startsChunk hash idle mayStart => exact sound.startChunk hash idle mayStart
  | parsesRecorded hash first => exact sound.parseRecorded hash first
  | startsFinishInfo hash first => exact sound.startFinishInfo hash first
  | receivesMetadata torrent member isAdded size => exact sound.receiveMetadata member isAdded size
  | failsChunk torrent member isAdded isChunk => exact sound.failChunk member isAdded isChunk
  | failsFinishInfo torrent member isAdded isFinishInfo => exact sound.fail member isAdded
  | finishes torrent member hasMetadata => exact sound.finish member hasMetadata
  | saves handle rest isFirst => exact sound.save isFirst
  | notifiesChunk torrent rest member isFirst isChunk =>
      apply sound.notifyChunk member isFirst isChunk
      split <;> simp
  | notifiesFinishInfo torrent rest member isFirst isFinishInfo =>
      exact sound.notifyFinishInfo member isFirst isFinishInfo
  | checks job rest isFirst => exact sound.check isFirst (.inr rfl)
  | parses rest loaded isFirst => exact sound.check isFirst (.inl rfl)

/-- A check that passes while nothing is being downloaded and no other check is waiting: it is the
    first one, all files are there, and the stream is over. -/
theorem Sound.passes {finishInfo : List FinishStreamChunkInfo} {after : StreamDownloads}
    (sound : downloads.Sound) (passes : downloads.Passes finishInfo after)
    (idle : downloads.downloading = none) (unbroken : downloads.IsUnbroken)
    (single : downloads.checks.length = 1) :
    after.Sound ∧ downloads.hasSandbox = false ∧
      ∀ info ∈ finishInfo, downloads.IsDownloaded info.chunkInfoHash := by
  obtain ⟨job, rest, isFirst, isKnown, nonempty, cells, recorded⟩ := passes
  have tracked := sound.tracked unbroken
  have checked := sound.check isFirst isKnown
  have noRest : rest = [] := by simpa [isFirst] using single
  -- the finish info has been parsed, or is parsed now
  have parsed : .parseFinishInfoFile ∈ downloads.checks ∨ downloads.finishInfo ≠ [] := by
    rcases isKnown with rfl | rfl
    · exact .inl (isFirst ▸ List.mem_cons_self)
    · exact .inr nonempty
  have noPending : ∀ torrent ∈ downloads.torrents, ¬ downloads.IsPending torrent := by
    intro torrent member pending
    cases isChunk : torrent.isChunk with
    | true => cases idle.symm.trans (tracked.pending torrent member isChunk pending)
    | false => exact sound.orderly.parsed parsed torrent member isChunk pending
  refine ⟨?_, ?_, ?_⟩
  · exact
      { orderly := { checked.orderly with }
        tracked := fun unbroken => { checked.tracked unbroken with }
        isOver := fun _ =>
          { finishInfo := nonempty
            noParse := by simp [noRest]
            noChunk := .inr ⟨noRest, fun torrent member _ => noPending torrent member⟩ } }
  · cases hasSandbox : downloads.hasSandbox with
    | false => rfl
    | true =>
        have ended := sound.isOver hasSandbox
        obtain rfl := isKnown.resolve_left fun isParse =>
          ended.noParse (isParse ▸ isFirst ▸ List.mem_cons_self)
        rcases ended.noChunk with longer | ⟨noCheck, _⟩
        · exact absurd longer (by simp [cells])
        · cases isFirst.symm.trans noCheck
  · intro info member
    rcases tracked.recorded _ (recorded info member) with isDownloaded | ⟨torrent, isTorrent, found⟩
    · exact isDownloaded
    · exact absurd (.inl found.2) (noPending torrent isTorrent)

end SiriusDrive.StreamDownloads
