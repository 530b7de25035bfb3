import SiriusDrive.TorrentSession.Dues

/-! # Downloads are notified once

A download is notified at most once, since every step moves on what is due. The limit of a
download is compared with the size of a torrent when its metadata come, and only the first
download of the torrent is looked at then.
-/

namespace SiriusDrive

namespace TorrentSession

variable {session after : TorrentSession} {handle : LtHandle} {torrent changed : SessionTorrent}

theorem keeps_self (torrent : SessionTorrent) : torrent.Keeps torrent :=
  ⟨rfl, rfl, rfl, rfl, rfl⟩

theorem keeps_mark (torrent : SessionTorrent) : torrent.Keeps torrent.mark := by
  unfold SessionTorrent.mark
  split
  · exact keeps_self torrent
  · exact ⟨rfl, rfl, rfl, rfl, rfl⟩

theorem Sound.movesOn_post_end (sound : session.Sound) (removal : Nat) :
    session.MovesOn { session with posted := session.posted ++ [.endNotification removal] } where
  sound :=
    { torrents := sound.torrents
      known := sound.known
      savings := sound.savings
      posted := by simpa using sound.posted }
  due notification := by
    simp [due_post, PostedCall.isDownload]
  fits fits := ⟨fits.torrents, fits.called⟩
  downloads := rfl

theorem Sound.removeTorrents (sound : session.Sound) {torrents : List LtHandle}
    (step : session.removeTorrentsFromSession torrents = some after) :
    session.MovesOn after := by
  unfold removeTorrentsFromSession at step
  split at step
  · split at step
    · cases step
    · have marked := sound.movesOn_map (fun handle torrent =>
          if torrents.contains handle then
            if torrent.hasFiles then (torrent.mark.setNotifyer session.removals).remove
            else torrent.mark
          else torrent) (by
        intro handle torrent
        split
        · split
          · have keeps := keeps_mark torrent
            exact ⟨keeps.1, keeps.2, keeps.3, keeps.4, keeps.5⟩
          · exact keeps_mark torrent
        · exact keeps_self torrent)
      obtain rfl := Option.some.inj step
      exact marked.trans (marked.sound.movesOn_of_same rfl rfl rfl rfl rfl rfl)
  · split at step
    · cases step
    · have marked := sound.movesOn_map (fun handle torrent =>
          if torrents.contains handle then torrent.mark.remove else torrent) (by
        intro handle torrent
        split
        · have keeps := keeps_mark torrent
          exact ⟨keeps.1, keeps.2, keeps.3, keeps.4, keeps.5⟩
        · exact keeps_self torrent)
      have posted := marked.trans (marked.sound.movesOn_post_end session.removals)
      obtain rfl := Option.some.inj step
      exact posted.trans (posted.sound.movesOn_of_same rfl rfl rfl rfl rfl rfl)

theorem Sound.stateChanged (sound : session.Sound) {state : Nat}
    (step : session.onStateChanged handle state = some after) : session.MovesOn after := by
  obtain ⟨torrent, found, rfl⟩ := Option.map_eq_some_iff.mp step
  have keeps : torrent.Keeps { torrent with state } := ⟨rfl, rfl, rfl, rfl, rfl⟩
  exact sound.movesOn_keeps found keeps

theorem Sound.finishedAlert (sound : session.Sound)
    (step : session.onFinishedAlert handle = some after) : session.MovesOn after := by
  unfold onFinishedAlert at step
  split at step
  · cases step
  · rename_i torrent found
    split at step
    · rename_i condition
      obtain ⟨hasMetadata, isAdded⟩ := condition
      obtain rfl := Option.some.inj step
      have isSound : (torrent.setFinishStatus .torrentFinished).Sound := by
        intro missing
        simp [SessionTorrent.setFinishStatus, hasMetadata] at missing
      have complete : torrent.IsComplete →
          (torrent.setFinishStatus .torrentFinished).IsComplete := by
        intro isComplete
        simp [isComplete.isFlushed] at isAdded
      have fits : torrent.Fits → (torrent.setFinishStatus .torrentFinished).Fits :=
        fun fits => ⟨fits.single, fits.fits⟩
      refine sound.movesOn_setTorrent found ⟨fun _ => isSound, List.prefix_rfl, complete⟩ fits ?_
      intro notification
      simp [SessionTorrent.owes, SessionTorrent.setFinishStatus, isAdded]
    · cases step

theorem fits_withMetadata {totalSize : Nat} {pieceSizeIsExpected : Bool} (fits : torrent.Fits)
    (accepted : metadataError torrent.userdata.dnContexts totalSize pieceSizeIsExpected = none) :
    (withMetadata torrent totalSize pieceSizeIsExpected).Fits where
  single := fits.single
  fits := by
    intro _ context member
    have small := fits.single
    have isFirst : torrent.userdata.dnContexts = [context] := by
      cases contexts : torrent.userdata.dnContexts with
      | nil => simp [withMetadata, contexts] at member
      | cons first rest =>
          simp only [withMetadata, contexts, List.length_cons] at small member
          have isNil : rest = [] := List.eq_nil_of_length_eq_zero (by omega)
          simp_all
    simp only [metadataError, isFirst] at accepted
    split at accepted
    · cases accepted
    · rename_i isSmall
      split at accepted
      · cases accepted
      · rename_i isExpected
        have isPlausible : isPlausible totalSize pieceSizeIsExpected = true := by
          simp only [Bool.not_eq_true', Bool.not_eq_false] at isExpected
          simp [TorrentSession.isPlausible, isExpected]
          omega
        have within : context.isLimitExceeded totalSize = false := by
          cases exceeded : context.isLimitExceeded totalSize with
          | true => simp [exceeded] at accepted
          | false => rfl
        simp only [DownloadContext.isLimitExceeded, Bool.and_eq_false_iff, decide_eq_false_iff_not]
          at within
        simp only [withMetadata, isPlausible, if_true]
        simp at within
        omega

/-- A torrent that was rejected owes nothing; its download is notified as failed. -/
theorem Sound.metadataReceived (sound : session.Sound) {totalSize : Nat}
    {pieceSizeIsExpected : Bool}
    (step : session.onMetadataReceived handle totalSize pieceSizeIsExpected = some after) :
    session.MovesOn after := by
  unfold onMetadataReceived at step
  split at step
  · obtain rfl := Option.some.inj step
    exact sound.movesOn_of_same rfl rfl rfl rfl rfl rfl
  · rename_i torrent found
    split at step
    · cases step
    · rename_i isMissing
      have isMissing : torrent.hasMetadata = false := by simpa using isMissing
      obtain ⟨isAdded, isValid⟩ := sound.torrents handle torrent found isMissing
      dsimp only at step
      split at step
      · rename_i accepted
        obtain rfl := Option.some.inj step
        have isSound : (withMetadata torrent totalSize pieceSizeIsExpected).Sound := by
          intro missing
          simp [withMetadata] at missing
        refine sound.movesOn_setTorrent found ⟨fun _ => isSound, List.prefix_rfl, ?_⟩
          (fits_withMetadata · accepted) fun _ => Nat.le_refl _
        intro isComplete
        exact ⟨rfl, isComplete.isValid, isComplete.isFlushed⟩
      · rename_i errorText isError
        split at step
        · rename_i context isSingle
          obtain rfl := Option.some.inj step
          let rejected : SessionTorrent :=
            { (withMetadata torrent totalSize pieceSizeIsExpected).remove with
              userdata :=
                { (withMetadata torrent totalSize pieceSizeIsExpected).userdata with
                  invalidMetadata := true } }
          have grows : torrent.userdata.dnContexts <+: rejected.userdata.dnContexts :=
            List.prefix_rfl
          have isSound : rejected.Sound := by
            intro missing
            simp [rejected, withMetadata, SessionTorrent.remove] at missing
          have notComplete : ¬ torrent.IsComplete := by
            intro isComplete
            simp [isComplete.hasMetadata] at isMissing
          constructor
          · apply Sound.call
            exact sound.setTorrent found ⟨fun _ => isSound, grows, fun isComplete =>
              absurd isComplete notComplete⟩
          · intro notification
            have moves := sound.due_setTorrent notification found grows
            have owed := owes_single notification isSingle isValid
              (by simp [isAdded])
            have owesNothing : rejected.owes notification = 0 := by
              simp [rejected, SessionTorrent.owes]
            simp only [due_call, List.countP_singleton, NotifiedCall.isDownload]
            simp only [rejected] at moves owesNothing
            omega
          · intro fits
            have isFit : rejected.Fits := by
              refine ⟨(fits.torrents handle torrent found).single, ?_⟩
              intro valid
              simp [rejected] at valid
            apply Fits.call (fits.setTorrent isFit)
            simp [NotifiedCall.WithinLimit]
          · rfl
        · cases step

/-- A torrent that stays in the session is flushed and owes the download no more. -/
theorem owes_flushed (notification : Nat) :
    (torrent.setFinishStatus .torrentFlushed).owes notification ≤ torrent.owes notification := by
  simp only [SessionTorrent.owes, SessionTorrent.setFinishStatus]
  split
  · exact Nat.le_refl _
  · apply List.countP_mono_left
    intro context _
    simp +contextual

/-- The first download of a torrent that stays in the session is owed until it is flushed. -/
theorem owes_flushed_first {dnContext : DownloadContext} {rest : List DownloadContext}
    (isFirst : torrent.userdata.dnContexts = dnContext :: rest)
    (stays : dnContext.doNotDeleteTorrent = true)
    (isValid : torrent.userdata.invalidMetadata = false)
    (notFlushed : torrent.userdata.finishStatus ≠ .torrentFlushed) (notification : Nat) :
    (torrent.setFinishStatus .torrentFlushed).owes notification +
      (if dnContext.downloadNotification == notification then 1 else 0) ≤
        torrent.owes notification := by
  have others : rest.countP (fun context =>
      context.downloadNotification == notification && !context.doNotDeleteTorrent) ≤
        rest.countP fun context => context.downloadNotification == notification := by
    apply List.countP_mono_left
    intro context _
    simp +contextual
  simp only [SessionTorrent.owes, SessionTorrent.setFinishStatus, isFirst, isValid,
    List.countP_cons]
  simp [notFlushed, stays]
  omega

theorem Sound.save (sound : session.Sound) (found : session.torrents[handle]? = some torrent)
    (isComplete : torrent.IsComplete) (nonempty : torrent.userdata.dnContexts ≠ []) :
    Sound { session with savings := session.savings ++ [handle] } where
  torrents := sound.torrents
  known := sound.known
  savings other member := by
    rcases List.mem_append.mp member with before | now
    · exact sound.savings other before
    · obtain rfl := List.mem_singleton.mp now
      refine ⟨sound.known other torrent found, ?_⟩
      intro now isNow
      obtain rfl := Option.some.inj (found.symm.trans isNow)
      exact ⟨isComplete, nonempty⟩
  posted := sound.posted

theorem Sound.post (sound : session.Sound) (found : session.torrents[handle]? = some torrent)
    (isComplete : torrent.IsComplete) {dnContext : DownloadContext}
    (isContext : dnContext ∈ torrent.userdata.dnContexts) :
    Sound { session with posted := session.posted ++ [.downloadComplete handle dnContext] } where
  torrents := sound.torrents
  known := sound.known
  savings := sound.savings
  posted other context member := by
    rcases List.mem_append.mp member with before | now
    · exact sound.posted other context before
    · obtain ⟨rfl, rfl⟩ : other = handle ∧ context = dnContext := by simpa using now
      refine ⟨sound.known other torrent found, ?_⟩
      intro now isNow
      obtain rfl := Option.some.inj (found.symm.trans isNow)
      exact ⟨isComplete, isContext⟩

/-- What is due grows by one place of a download. -/
structure Notifies (dnContext : DownloadContext) (session after : TorrentSession) : Prop where
  sound : after.Sound
  due : ∀ notification, after.due notification =
    session.due notification + if dnContext.downloadNotification == notification then 1 else 0
  fits : session.Fits → after.Fits
  downloads : after.downloads = session.downloads

theorem Sound.saveTorrentFile (sound : session.Sound)
    (found : session.torrents[handle]? = some torrent) (isComplete : torrent.IsComplete)
    {dnContext : DownloadContext} {rest : List DownloadContext}
    (isFirst : torrent.userdata.dnContexts = dnContext :: rest)
    (step : session.saveTorrentFile handle = some after) :
    after = session ∨ session.Notifies dnContext after := by
  have isContext : dnContext ∈ torrent.userdata.dnContexts := by simp [isFirst]
  simp only [TorrentSession.saveTorrentFile, found, isFirst] at step
  split at step
  · obtain rfl := Option.some.inj step
    refine Or.inr ⟨sound.post found isComplete isContext, ?_, ?_, rfl⟩
    · intro notification
      rw [due_post, PostedCall.isDownload]
    · intro fits
      exact ⟨fits.torrents, fits.called⟩
  · exact Or.inl (Option.some.inj step).symm

theorem Notifies.movesOn {mid : TorrentSession} {dnContext : DownloadContext}
    (notifies : mid.Notifies dnContext after) (moved : session.MovesOn mid)
    (paid : ∀ notification, mid.due notification +
      (if dnContext.downloadNotification == notification then 1 else 0) ≤
        session.due notification) : session.MovesOn after where
  sound := notifies.sound
  due notification := by
    have before := paid notification
    have now := notifies.due notification
    omega
  fits := notifies.fits ∘ moved.fits
  downloads := notifies.downloads.trans moved.downloads

theorem Sound.flush (sound : session.Sound) (found : session.torrents[handle]? = some torrent)
    (isFinished : torrent.userdata.finishStatus = .torrentFinished)
    (isValid : torrent.userdata.invalidMetadata = false) :
    (torrent.setFinishStatus .torrentFlushed).IsComplete ∧
      session.MovesOn (session.setTorrent handle (torrent.setFinishStatus .torrentFlushed)) := by
  have hasMetadata : torrent.hasMetadata = true := by
    by_contra missing
    have early := sound.torrents handle torrent found (by simpa using missing)
    simp [isFinished] at early
  have isComplete : (torrent.setFinishStatus .torrentFlushed).IsComplete :=
    ⟨hasMetadata, isValid, rfl⟩
  have isSound : (torrent.setFinishStatus .torrentFlushed).Sound := by
    intro missing
    simp [isComplete.hasMetadata] at missing
  exact ⟨isComplete, sound.movesOn_setTorrent found
    ⟨fun _ => isSound, List.prefix_rfl, fun _ => isComplete⟩
    (fun fits => ⟨fits.single, fits.fits⟩) owes_flushed⟩

theorem Sound.cacheFlushed (sound : session.Sound)
    (valid : ∀ torrent : SessionTorrent,
      session.torrents[handle]? = some torrent → torrent.userdata.invalidMetadata = false)
    (step : session.onTorrentFinished handle = some after) : session.MovesOn after := by
  unfold onTorrentFinished at step
  split at step
  · cases step
  · rename_i torrent found
    split at step
    · obtain rfl := Option.some.inj step
      exact sound.movesOn_of_same rfl rfl rfl rfl rfl rfl
    · split at step
      · cases step
      · rename_i isFinished
        have isFinished : torrent.userdata.finishStatus = .torrentFinished := by
          simpa using isFinished
        have isValid := valid torrent found
        obtain ⟨isComplete, moved⟩ := sound.flush found isFinished isValid
        have isNow : (session.setTorrent handle
            (torrent.setFinishStatus .torrentFlushed)).torrents[handle]? =
              some (torrent.setFinishStatus .torrentFlushed) := by
          simp [TorrentSession.setTorrent]
        dsimp only at step
        split at step
        · obtain rfl := Option.some.inj step
          exact moved
        · rename_i dnContext rest isFirst
          have isContext : dnContext ∈ torrent.userdata.dnContexts := by simp [isFirst]
          split at step
          · rename_i keepsTorrent
            have paid : ∀ notification,
                (session.setTorrent handle (torrent.setFinishStatus .torrentFlushed)).due
                    notification +
                  (if dnContext.downloadNotification == notification then 1 else 0) ≤
                    session.due notification := by
              intro notification
              have grows : torrent.userdata.dnContexts <+:
                  (torrent.setFinishStatus .torrentFlushed).userdata.dnContexts := List.prefix_rfl
              have moves := sound.due_setTorrent notification found grows
              have less := owes_flushed_first isFirst keepsTorrent isValid
                (by simp [isFinished]) notification
              omega
            split at step
            · obtain rfl := Option.some.inj step
              apply Notifies.movesOn _ moved paid
              refine ⟨moved.sound.call _, ?_, ?_, rfl⟩
              · intro notification
                simp [due_call, List.countP_singleton, NotifiedCall.isDownload]
              · intro fits
                have within := (fits.torrents handle _ isNow).fits isComplete.isValid dnContext
                  isContext
                apply fits.call
                intro call isCall
                obtain rfl := List.mem_singleton.mp isCall
                exact within
            · split at step
              · obtain rfl := Option.some.inj step
                apply Notifies.movesOn _ moved paid
                refine ⟨moved.sound.save isNow isComplete (List.ne_nil_of_mem isContext), ?_, ?_,
                  rfl⟩
                · intro notification
                  rw [due_save isNow]
                  simp [SessionTorrent.isFor, SessionTorrent.setFinishStatus, isFirst]
                · intro fits
                  exact ⟨fits.torrents, fits.called⟩
              · rcases moved.sound.saveTorrentFile isNow isComplete isFirst step with
                  rfl | notifies
                · exact moved
                · exact notifies.movesOn moved paid
          · obtain rfl := Option.some.inj step
            have removed : (torrent.setFinishStatus .torrentFlushed).Keeps
                (torrent.setFinishStatus .torrentFlushed).remove := ⟨rfl, rfl, rfl, rfl, rfl⟩
            exact moved.trans (moved.sound.movesOn_keeps isNow removed)

/-- What was due is notified when a torrent is deleted, unless it is dropped then. -/
theorem countP_deletionCalls (torrent : SessionTorrent) (notification : Nat) :
    (deletionCalls torrent.userdata).countP (·.isDownload notification) ≤
      torrent.owes notification := by
  unfold deletionCalls SessionTorrent.owes
  split
  · simp
  · rw [List.countP_map, List.countP_filter]
    apply List.countP_mono_left
    intro context _
    simp +contextual [NotifiedCall.isDownload]

theorem within_deletionCalls (fits : torrent.Fits) :
    ∀ call ∈ deletionCalls torrent.userdata, call.WithinLimit := by
  unfold deletionCalls
  split
  · simp
  · rename_i isValid
    intro call member
    obtain ⟨context, isContext, rfl⟩ := List.mem_map.mp member
    exact fits.fits (by simpa using isValid) context (List.mem_filter.mp isContext).1

theorem erase_lookUp {other : LtHandle} {now : SessionTorrent}
    (isNow : (session.torrents.erase handle)[other]? = some now) :
    session.torrents[other]? = some now := by
  rw [Std.TreeMap.getElem?_erase_eq] at isNow
  split at isNow
  · cases isNow
  · exact isNow

theorem Sound.erase (sound : session.Sound) (handle : LtHandle) :
    Sound { session with torrents := session.torrents.erase handle } := by
  refine sound.of_lookUp ?_ (List.Subset.refl _) (List.Subset.refl _) (Nat.le_refl _)
  intro other now isNow
  exact Or.inl ⟨now, erase_lookUp isNow, follows_self now⟩

/-- The end notification of a removal is no notification of a download. -/
theorem Sound.movesOn_release (sound : session.Sound) (removeNotifyer : Option Nat) :
    session.MovesOn (session.release removeNotifyer) := by
  unfold release
  split
  · exact sound.movesOn_of_same rfl rfl rfl rfl rfl rfl
  · rename_i removal
    split
    · exact sound.movesOn_of_same rfl rfl rfl rfl rfl rfl
    · have called : session.MovesOn (session.call [.endNotification removal]) := by
        refine ⟨sound.call _, ?_, ?_, rfl⟩
        · intro notification
          simp [due_call, NotifiedCall.isDownload]
        · intro fits
          apply fits.call
          simp [NotifiedCall.WithinLimit]
      exact called.trans (called.sound.movesOn_of_same rfl rfl rfl rfl rfl rfl)

theorem Sound.torrentDeleted (sound : session.Sound)
    (step : session.onTorrentDeleted handle = some after) : session.MovesOn after := by
  unfold onTorrentDeleted at step
  split at step
  · cases step
  · rename_i torrent found
    split at step
    · split at step
      · obtain rfl := Option.some.inj step
        have keeps : torrent.Keeps { torrent with isDeleted := true } :=
          ⟨rfl, rfl, rfl, rfl, rfl⟩
        exact sound.movesOn_keeps found keeps
      · obtain rfl := Option.some.inj step
        have erased := sound.erase handle
        have called : session.MovesOn
            (TorrentSession.call { session with torrents := session.torrents.erase handle }
              (deletionCalls torrent.userdata)) := by
          refine ⟨erased.call _, ?_, ?_, rfl⟩
          · intro notification
            have dropped := due_erase notification found
            have paid := countP_deletionCalls torrent notification
            rw [due_call]
            omega
          · intro fits
            have rest : Fits { session with torrents := session.torrents.erase handle } :=
              ⟨fun other now isNow => fits.torrents other now (erase_lookUp isNow), fits.called⟩
            exact rest.call (within_deletionCalls (fits.torrents handle torrent found))
        exact called.trans (called.sound.movesOn_release _)
    · cases step

theorem Sound.runSaving (sound : session.Sound) (step : session.runSaving = some after) :
    session.MovesOn after := by
  unfold TorrentSession.runSaving at step
  split at step
  · cases step
  · rename_i handle rest isNext
    have isSound : Sound { session with savings := rest } :=
      sound.of_same rfl (by simp [isNext]) (List.Subset.refl _) rfl
    have less : ∀ notification, due { session with savings := rest } notification +
        (if session.isFor notification handle then 1 else 0) = session.due notification := by
      intro notification
      have same : isFor { session with savings := rest } notification =
          session.isFor notification := rfl
      simp only [due, same, isNext, List.countP_cons]
      omega
    have moved : session.MovesOn { session with savings := rest } := by
      refine ⟨isSound, ?_, fun fits => ⟨fits.torrents, fits.called⟩, rfl⟩
      intro notification
      have less := less notification
      omega
    cases found : session.torrents[handle]? with
    | none => simp [TorrentSession.saveTorrentFile, found] at step
    | some torrent =>
        obtain ⟨isComplete, nonempty⟩ :=
          (sound.savings handle (by simp [isNext])).2 torrent found
        obtain ⟨dnContext, others, isFirst⟩ := List.exists_cons_of_ne_nil nonempty
        rcases isSound.saveTorrentFile found isComplete isFirst step with rfl | notifies
        · exact moved
        · apply notifies.movesOn moved
          intro notification
          have less := less notification
          have isFor : session.isFor notification handle =
              (dnContext.downloadNotification == notification) := by
            simp [isFor, found, SessionTorrent.isFor, isFirst]
          rw [isFor] at less
          exact Nat.le_of_eq less

theorem Sound.runPosted (sound : session.Sound) (step : session.runPosted = some after) :
    session.MovesOn after := by
  have less : ∀ {first : PostedCall} {rest : List PostedCall}, session.posted = first :: rest →
      Sound { session with posted := rest } ∧ ∀ notification,
        due { session with posted := rest } notification +
          (if first.isDownload notification then 1 else 0) = session.due notification := by
    intro first rest isNext
    constructor
    · exact sound.of_same rfl (List.Subset.refl _) (by simp [isNext]) rfl
    · intro notification
      have same : isFor { session with posted := rest } notification =
          session.isFor notification := rfl
      simp only [due, same, isNext, List.countP_cons]
      omega
  unfold TorrentSession.runPosted at step
  split at step
  · cases step
  · rename_i removal rest isNext
    obtain ⟨isSound, less⟩ := less isNext
    obtain rfl := Option.some.inj step
    refine ⟨isSound.call _, ?_, ?_, rfl⟩
    · intro notification
      have less := less notification
      simp only [due_call, List.countP_singleton, NotifiedCall.isDownload, Bool.false_eq_true,
        if_false]
      omega
    · intro fits
      have before : Fits { session with posted := rest } := ⟨fits.torrents, fits.called⟩
      apply before.call
      simp [NotifiedCall.WithinLimit]
  · rename_i handle dnContext rest isNext
    obtain ⟨isSound, less⟩ := less isNext
    obtain ⟨torrent, found, rfl⟩ := Option.map_eq_some_iff.mp step
    obtain ⟨isComplete, isContext⟩ :=
      (sound.posted handle dnContext (by simp [isNext])).2 torrent found
    refine ⟨isSound.call _, ?_, ?_, rfl⟩
    · intro notification
      have less := less notification
      rw [PostedCall.isDownload] at less
      simp only [due_call, List.countP_singleton, NotifiedCall.isDownload]
      omega
    · intro fits
      have within := (fits.torrents handle torrent found).fits isComplete.isValid dnContext
        isContext
      have before : Fits { session with posted := rest } := ⟨fits.torrents, fits.called⟩
      apply before.call
      intro call isCall
      obtain rfl := List.mem_singleton.mp isCall
      exact within

/-! ## Downloads are started -/

theorem Sound.isNew (sound : session.Sound) : session.torrents[session.added]? = none := by
  cases found : session.torrents[session.added]? with
  | none => rfl
  | some torrent => exact absurd (sound.known session.added torrent found) (Nat.lt_irrefl _)

theorem Sound.addTorrent (sound : session.Sound) (isSound : torrent.Sound) :
    (session.addTorrent torrent).Sound := by
  refine sound.of_lookUp ?_ (List.Subset.refl _) (List.Subset.refl _) (Nat.le_succ _)
  intro other now isNow
  rw [TorrentSession.addTorrent, TorrentSession.setTorrent, Std.TreeMap.getElem?_insert_eq]
    at isNow
  split at isNow
  · rename_i isAdded
    subst isAdded
    obtain rfl := Option.some.inj isNow
    exact Or.inr ⟨Nat.le_refl _, Nat.lt_succ_self _, isSound⟩
  · exact Or.inl ⟨now, isNow, follows_self now⟩

theorem Fits.addTorrent (fits : session.Fits) (isFit : torrent.Fits) :
    (session.addTorrent torrent).Fits :=
  let set : (session.setTorrent session.added torrent).Fits := fits.setTorrent isFit
  ⟨set.torrents, set.called⟩

theorem Sound.addTorrentFile (sound : session.Sound) (infoHash : InfoHash) (state : Nat) :
    session.MovesOn (session.addTorrentFileToSession infoHash state) := by
  unfold addTorrentFileToSession
  split
  · exact sound.movesOn_of_same rfl rfl rfl rfl rfl rfl
  · constructor
    · apply sound.addTorrent
      simp [SessionTorrent.Sound]
    · intro notification
      rw [due_addTorrent sound.isNew fun handle member => (sound.savings handle member).1]
      simp [SessionTorrent.owes]
    · intro fits
      exact fits.addTorrent ⟨by simp, by simp⟩
    · rfl

theorem torrentOf_eq_some {infoHash : InfoHash}
    (found : session.torrentOf infoHash = some (handle, torrent)) :
    session.torrents[handle]? = some torrent := by
  apply Std.TreeMap.mem_toList_iff_getElem?_eq_some.mp
  exact List.mem_of_find?_eq_some found

theorem owes_singleton_le (isFor stays isFlushed : Bool) :
    (if (isFor && !(stays && isFlushed)) = true then 1 else 0) ≤
      if isFor = true then 1 else 0 := by
  revert isFor stays isFlushed
  decide

theorem Sound.download (sound : session.Sound) (infoHash : InfoHash) (downloadLimit : Nat)
    (saveAs : String) (doNotDeleteTorrent : Bool) (saveTorrentFilename : String) (state : Nat) :
    let started := session.download infoHash downloadLimit saveAs doNotDeleteTorrent
      saveTorrentFilename state
    started.Sound ∧ ∀ notification, started.due notification ≤
      session.due notification + if session.downloads == notification then 1 else 0 := by
  dsimp only [TorrentSession.download]
  generalize isContext : (⟨session.downloads, infoHash, downloadLimit, saveAs,
    doNotDeleteTorrent⟩ : DownloadContext) = context
  have number : context.downloadNotification = session.downloads := by
    rw [← isContext]
  have counts : ∀ {after : TorrentSession}, (after.Sound ∧ ∀ notification,
      after.due notification ≤ session.due notification +
        if session.downloads == notification then 1 else 0) →
      Sound { after with downloads := session.downloads + 1 } ∧ ∀ notification,
        due { after with downloads := session.downloads + 1 } notification ≤
          session.due notification + if session.downloads == notification then 1 else 0 := by
    intro after ⟨isSound, less⟩
    exact ⟨isSound.of_same rfl (List.Subset.refl _) (List.Subset.refl _) rfl, less⟩
  apply counts
  split
  · rename_i handle torrent isThere
    have found := torrentOf_eq_some isThere
    have grows : torrent.userdata.dnContexts <+:
        (torrent.addContext context).userdata.dnContexts := List.prefix_append _ _
    have isSound : (torrent.addContext context).Sound := sound.torrents handle torrent found
    constructor
    · exact sound.setTorrent found ⟨fun _ => isSound, grows, fun isComplete =>
        ⟨isComplete.hasMetadata, isComplete.isValid, isComplete.isFlushed⟩⟩
    · intro notification
      have moves := sound.due_setTorrent notification found grows
      have more : (torrent.addContext context).owes notification ≤ torrent.owes notification +
          if session.downloads == notification then 1 else 0 := by
        have one := owes_singleton_le (session.downloads == notification) context.doNotDeleteTorrent
          (decide (torrent.userdata.finishStatus = .torrentFlushed))
        simp only [SessionTorrent.owes, SessionTorrent.addContext, List.countP_append,
          List.countP_singleton, number]
        split
        · exact Nat.zero_le _
        · exact Nat.add_le_add_left one _
      omega
  · constructor
    · apply sound.addTorrent
      simp [SessionTorrent.Sound]
    · intro notification
      rw [due_addTorrent sound.isNew fun handle member => (sound.savings handle member).1]
      simp [SessionTorrent.owes, number, List.countP_singleton]

/-! ## Runs -/

theorem Sound.step (sound : session.Sound) {event : TorrentEvent}
    (valid : session.FlushesValid event) (step : torrentSystem.step session event = some after) :
    session.MovesOn after ∨
      ∃ infoHash downloadLimit saveAs doNotDeleteTorrent saveTorrentFilename state,
        event = .download infoHash downloadLimit saveAs doNotDeleteTorrent saveTorrentFilename
          state ∧
        after = session.download infoHash downloadLimit saveAs doNotDeleteTorrent
          saveTorrentFilename state := by
  have stays : ∀ {after}, some session = some after → session.MovesOn after := by
    intro after isSame
    obtain rfl := Option.some.inj isSame
    exact sound.movesOn_of_same rfl rfl rfl rfl rfl rfl
  cases event with
  | addTorrentFile infoHash state =>
      obtain rfl := Option.some.inj step
      exact Or.inl (sound.addTorrentFile infoHash state)
  | download infoHash downloadLimit saveAs doNotDeleteTorrent saveTorrentFilename state =>
      exact Or.inr ⟨_, _, _, _, _, _, rfl, (Option.some.inj step).symm⟩
  | removeTorrents torrents => exact Or.inl (sound.removeTorrents step)
  | endSession =>
      obtain rfl := Option.some.inj step
      exact Or.inl (sound.movesOn_of_same rfl rfl rfl rfl rfl rfl)
  | stateChanged handle state =>
      simp only [torrentSystem, Option.ite_none_right_eq_some] at step
      exact Or.inl (sound.stateChanged step.2)
  | metadataReceived handle totalSize pieceSizeIsExpected =>
      simp only [torrentSystem] at step
      split at step
      · exact Or.inl (stays step)
      · exact Or.inl (sound.metadataReceived step)
  | torrentFinished handle =>
      simp only [torrentSystem] at step
      split at step
      · exact Or.inl (stays step)
      · exact Or.inl (sound.finishedAlert step)
  | cacheFlushed handle =>
      simp only [torrentSystem, Option.ite_none_right_eq_some] at step
      refine Or.inl (sound.cacheFlushed ?_ step.2)
      intro torrent found
      simpa [FlushesValid, found] using valid
  | torrentDeleted handle => exact Or.inl (sound.torrentDeleted step)
  | torrentFileSaved => exact Or.inl (sound.runSaving step)
  | runPosted => exact Or.inl (sound.runPosted step)

/-- Every download that was started is due at one place at most. -/
structure DueOnce (session : TorrentSession) : Prop where
  sound : session.Sound
  due : ∀ notification,
    session.due notification ≤ if notification < session.downloads then 1 else 0

theorem DueOnce.step (once : session.DueOnce) {event : TorrentEvent}
    (valid : session.FlushesValid event) (step : torrentSystem.step session event = some after) :
    after.DueOnce := by
  rcases once.sound.step valid step with moves | ⟨_, _, _, _, _, _, -, rfl⟩
  · refine ⟨moves.sound, ?_⟩
    intro notification
    rw [moves.downloads]
    exact Nat.le_trans (moves.due notification) (once.due notification)
  · obtain ⟨isSound, starts⟩ := once.sound.download _ _ _ _ _ _
    refine ⟨isSound, ?_⟩
    intro notification
    have before := once.due notification
    have now := starts notification
    change _ ≤ if notification < session.downloads + 1 then 1 else 0
    simp only [beq_iff_eq] at now
    split at before
    · split at now
      · omega
      · split
        · omega
        · omega
    · split at now
      · split
        · omega
        · omega
      · split
        · omega
        · omega

theorem fits_download (fits : session.Fits) {infoHash : InfoHash} (downloadLimit : Nat)
    (saveAs : String) (doNotDeleteTorrent : Bool) (saveTorrentFilename : String) (state : Nat)
    (isNew : session.torrentOf infoHash = none) :
    (session.download infoHash downloadLimit saveAs doNotDeleteTorrent saveTorrentFilename
      state).Fits := by
  simp only [TorrentSession.download, isNew]
  have isFit : SessionTorrent.Fits
      { infoHash, state
        userdata :=
          { saveTorrentFilename
            dnContexts := [{ downloadNotification := session.downloads, infoHash, downloadLimit,
                             saveAs, doNotDeleteTorrent }] } } := by
    constructor
    · simp
    · simp
  have added := fits.addTorrent isFit
  exact ⟨added.torrents, added.called⟩

theorem sound_new : Sound {} := by
  constructor <;> simp

theorem dueOnce_new : DueOnce {} := by
  refine ⟨sound_new, ?_⟩
  simp [due]

theorem dueOnce_of_run {events : List TorrentEvent}
    (valid : torrentSystem.Meets (FlushesValid · ·) {} events)
    (run : torrentSystem.exec {} events = some session) : session.DueOnce :=
  torrentSystem.invariant (fun _ _ _ once valid step => once.step valid step) dueOnce_new valid run

/-- Each download is notified at most once, as complete or as failed, however often its torrent
    is reported finished, flushed, removed or deleted, and whatever else is downloaded with it. -/
theorem notified_atMostOnce {events : List TorrentEvent}
    (valid : torrentSystem.Meets (FlushesValid · ·) {} events)
    (run : torrentSystem.exec {} events = some session) (notification : Nat) :
    session.called.countP (·.isDownload notification) ≤ 1 := by
  have once := (dueOnce_of_run valid run).due notification
  simp only [due] at once
  split at once
  · omega
  · omega

/-- The torrent file of a download is to be saved, and the download is reported when it is. -/
def sampleDownload : List TorrentEvent :=
  [.download 7 100 "saved" true "torrent" 0, .metadataReceived 0 90 true, .torrentFinished 0,
    .cacheFlushed 0, .torrentFileSaved, .runPosted, .stateChanged 0 5, .removeTorrents [0],
    .torrentDeleted 0]

theorem meets_sampleDownload :
    torrentSystem.Meets (fun session event => session.FlushesValid event ∧
      session.StartsAnew event) {} sampleDownload := by
  decide +kernel

theorem notified_atMostOnce_sample : ∃ session,
    torrentSystem.exec {} sampleDownload = some session ∧
    session.called.countP (·.isDownload 0) ≤ 1 := by
  have runs : (torrentSystem.exec {} sampleDownload).isSome := by decide +kernel
  obtain ⟨session, run⟩ := Option.isSome_iff_exists.mp runs
  exact ⟨session, run, notified_atMostOnce
    (meets_sampleDownload.mono fun _ _ both => both.1) run 0⟩

/-- If every download has a torrent of its own, a download that is reported complete is within
    its limit. -/
theorem complete_withinLimit {events : List TorrentEvent}
    (meets : torrentSystem.Meets (fun session event =>
      session.FlushesValid event ∧ session.StartsAnew event) {} events)
    (run : torrentSystem.exec {} events = some session)
    {context : DownloadContext} {downloaded : Nat} {errorText : String}
    (isCalled : .download .downloadComplete context downloaded errorText ∈ session.called) :
    context.downloadLimit = 0 ∨ downloaded ≤ context.downloadLimit := by
  have holds : session.Sound ∧ session.Fits := by
    apply torrentSystem.invariant (I := fun session => session.Sound ∧ session.Fits) _
      ⟨sound_new, by constructor <;> simp⟩ meets run
    intro session event after ⟨sound, fits⟩ ⟨valid, startsAnew⟩ step
    rcases sound.step valid step with moves | ⟨_, _, _, _, _, _, rfl, rfl⟩
    · exact ⟨moves.sound, moves.fits fits⟩
    · exact ⟨(sound.download _ _ _ _ _ _).1,
        fits_download fits _ _ _ _ _ (by simpa [StartsAnew] using startsAnew)⟩
  exact holds.2.called _ isCalled

theorem complete_withinLimit_sample : ∃ session context downloaded,
    torrentSystem.exec {} sampleDownload = some session ∧
    .download .downloadComplete context downloaded "" ∈ session.called ∧
    (context.downloadLimit = 0 ∨ downloaded ≤ context.downloadLimit) := by
  have runs : (torrentSystem.exec {} sampleDownload).any (·.called.any fun call =>
      call == .download .downloadComplete ⟨0, 7, 100, "saved", true⟩ 90 "") = true := by
    decide +kernel
  obtain ⟨session, run, isCalled⟩ := (Option.any_eq_true _ _).mp runs
  have isCalled :
      .download .downloadComplete ⟨0, 7, 100, "saved", true⟩ 90 "" ∈ session.called := by
    simpa using isCalled
  exact ⟨session, _, _, run, isCalled, complete_withinLimit meets_sampleDownload run isCalled⟩

end TorrentSession

end SiriusDrive
