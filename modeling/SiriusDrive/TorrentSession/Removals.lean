import SiriusDrive.TorrentSession.Notifications

/-! # The end of removals

Whoever has torrents removed is notified once: a removal is held by its torrents, or posted, or
it was called. Torrents without files are left out of a request that has others with files; they
are marked as removed all the same, and stay in the session.
-/

namespace SiriusDrive

namespace TorrentSession

variable {session after : TorrentSession} {handle : LtHandle} {torrent changed : SessionTorrent}
  {removal : Nat}

theorem isHeld_iff : session.isHeld removal = true ↔
    ∃ (handle : LtHandle) (torrent : SessionTorrent), session.torrents[handle]? = some torrent ∧
      torrent.userdata.removeNotifyer = some removal := by
  simp only [isHeld, List.any_eq_true, beq_iff_eq]
  constructor
  · intro ⟨entry, member, holds⟩
    exact ⟨entry.1, entry.2, Std.TreeMap.mem_toList_iff_getElem?_eq_some.mp member, holds⟩
  · intro ⟨handle, torrent, found, holds⟩
    exact ⟨(handle, torrent), Std.TreeMap.mem_toList_iff_getElem?_eq_some.mpr found, holds⟩

theorem isHeld_congr (torrents : after.torrents = session.torrents) (removal : Nat) :
    after.isHeld removal = session.isHeld removal := by
  simp only [isHeld, torrents]

def ends (session : TorrentSession) (removal : Nat) : Nat :=
  (session.isHeld removal).toNat + session.posted.count (.endNotification removal) +
    session.called.count (.endNotification removal)

/-- Every removal that was asked for has its end notification at one place, and the torrents
    that hold one are being removed. -/
structure EndsOnce (session : TorrentSession) : Prop where
  known : ∀ (handle : LtHandle) (torrent : SessionTorrent),
    session.torrents[handle]? = some torrent → handle < session.added
  removing : ∀ (handle : LtHandle) (torrent : SessionTorrent),
    session.torrents[handle]? = some torrent → torrent.userdata.removeNotifyer.isSome = true →
    torrent.beingRemoved = true
  ends : ∀ removal, session.ends removal = if removal < session.removals then 1 else 0

/-- A step that leaves the notifyers of the torrents alone. -/
structure KeepsEnds (session after : TorrentSession) : Prop where
  torrents : ∀ (handle : LtHandle) (torrent : SessionTorrent),
    session.torrents[handle]? = some torrent →
    ∃ now : SessionTorrent, after.torrents[handle]? = some now ∧
      now.userdata.removeNotifyer = torrent.userdata.removeNotifyer ∧
      (torrent.beingRemoved = true → now.beingRemoved = true)
  newTorrents : ∀ (handle : LtHandle) (now : SessionTorrent),
    after.torrents[handle]? = some now → session.torrents[handle]? = none →
    handle < after.added ∧ now.userdata.removeNotifyer = none
  posted : ∀ removal, after.posted.count (.endNotification removal) =
    session.posted.count (.endNotification removal)
  called : ∀ removal, after.called.count (.endNotification removal) =
    session.called.count (.endNotification removal)
  added : session.added ≤ after.added
  removals : after.removals = session.removals

/-- A step that changes no torrent but one, and leaves the calls that were made. -/
structure Touches (handle : LtHandle) (session after : TorrentSession) : Prop where
  others : ∀ other ≠ handle, after.torrents[other]? = session.torrents[other]?
  calls : session.called <+: after.called

/-- A step on one torrent that is about no removal. -/
structure Quiet (handle : LtHandle) (session after : TorrentSession) : Prop extends
    session.KeepsEnds after, Touches handle session after

theorem Touches.trans {mid : TorrentSession} (first : Touches handle session mid)
    (second : Touches handle mid after) : Touches handle session after where
  others other apart := (second.others other apart).trans (first.others other apart)
  calls := first.calls.trans second.calls

theorem KeepsEnds.trans {mid : TorrentSession} (first : session.KeepsEnds mid)
    (second : mid.KeepsEnds after) : session.KeepsEnds after where
  torrents handle torrent found := by
    obtain ⟨between, foundBetween, same, removed⟩ := first.torrents handle torrent found
    obtain ⟨now, foundNow, sameNow, removedNow⟩ := second.torrents handle between foundBetween
    exact ⟨now, foundNow, sameNow.trans same, removedNow ∘ removed⟩
  newTorrents handle now foundNow missing := by
    cases between : mid.torrents[handle]? with
    | none => exact second.newTorrents handle now foundNow between
    | some torrent =>
        obtain ⟨isKnown, noNotifyer⟩ := first.newTorrents handle torrent between missing
        obtain ⟨same, isSame, notifyer, -⟩ := second.torrents handle torrent between
        obtain rfl := Option.some.inj (isSame.symm.trans foundNow)
        exact ⟨Nat.lt_of_lt_of_le isKnown second.added, notifyer.trans noNotifyer⟩
  posted removal := (second.posted removal).trans (first.posted removal)
  called removal := (second.called removal).trans (first.called removal)
  added := Nat.le_trans first.added second.added
  removals := second.removals.trans first.removals

theorem Quiet.trans {mid : TorrentSession} (first : Quiet handle session mid)
    (second : Quiet handle mid after) : Quiet handle session after :=
  ⟨first.1.trans second.1, first.2.trans second.2⟩

theorem KeepsEnds.isHeld (keeps : session.KeepsEnds after) (removal : Nat) :
    after.isHeld removal = session.isHeld removal := by
  apply Bool.eq_iff_iff.mpr
  rw [isHeld_iff, isHeld_iff]
  constructor
  · intro ⟨handle, now, foundNow, holds⟩
    cases found : session.torrents[handle]? with
    | none =>
        obtain ⟨-, noNotifyer⟩ := keeps.newTorrents handle now foundNow found
        rw [noNotifyer] at holds
        cases holds
    | some torrent =>
        obtain ⟨same, isSame, notifyer, -⟩ := keeps.torrents handle torrent found
        obtain rfl := Option.some.inj (isSame.symm.trans foundNow)
        exact ⟨handle, torrent, found, notifyer.symm.trans holds⟩
  · intro ⟨handle, torrent, found, holds⟩
    obtain ⟨now, foundNow, notifyer, -⟩ := keeps.torrents handle torrent found
    exact ⟨handle, now, foundNow, notifyer.trans holds⟩

theorem EndsOnce.keeps (once : session.EndsOnce) (keeps : session.KeepsEnds after) :
    after.EndsOnce where
  known handle now foundNow := by
    cases found : session.torrents[handle]? with
    | none => exact (keeps.newTorrents handle now foundNow found).1
    | some torrent => exact Nat.lt_of_lt_of_le (once.known handle torrent found) keeps.added
  removing handle now foundNow holds := by
    cases found : session.torrents[handle]? with
    | none =>
        rw [(keeps.newTorrents handle now foundNow found).2] at holds
        cases holds
    | some torrent =>
        obtain ⟨same, isSame, notifyer, removed⟩ := keeps.torrents handle torrent found
        obtain rfl := Option.some.inj (isSame.symm.trans foundNow)
        rw [notifyer] at holds
        exact removed (once.removing handle torrent found holds)
  ends removal := by
    simp only [TorrentSession.ends, keeps.isHeld, keeps.posted, keeps.called, keeps.removals]
    exact once.ends removal

theorem EndsOnce.move (once : session.EndsOnce) (torrents : after.torrents = session.torrents)
    (added : after.added = session.added) (removals : after.removals = session.removals)
    (moved : ∀ removal, after.posted.count (.endNotification removal) +
      after.called.count (.endNotification removal) =
        session.posted.count (.endNotification removal) +
          session.called.count (.endNotification removal)) : after.EndsOnce where
  known := by simpa only [torrents, added] using once.known
  removing := by simpa only [torrents] using once.removing
  ends removal := by
    have before := once.ends removal
    have moved := moved removal
    simp only [TorrentSession.ends, isHeld_congr torrents, removals] at before ⊢
    omega

theorem quiet_of_same (torrents : after.torrents = session.torrents)
    (posted : ∀ removal, after.posted.count (.endNotification removal) =
      session.posted.count (.endNotification removal))
    (called : ∀ removal, after.called.count (.endNotification removal) =
      session.called.count (.endNotification removal))
    (calls : session.called <+: after.called) (added : after.added = session.added)
    (removals : after.removals = session.removals) : Quiet handle session after where
  torrents handle torrent found := ⟨torrent, torrents ▸ found, rfl, id⟩
  newTorrents handle now foundNow missing := by
    rw [torrents, missing] at foundNow
    cases foundNow
  posted := posted
  called := called
  added := Nat.le_of_eq added.symm
  removals := removals
  others other _ := by rw [torrents]
  calls := calls

theorem quiet_refl : Quiet handle session session :=
  quiet_of_same rfl (fun _ => rfl) (fun _ => rfl) List.prefix_rfl rfl rfl

theorem keepsEnds_map (change : LtHandle → SessionTorrent → SessionTorrent)
    (keeps : ∀ handle torrent,
      (change handle torrent).userdata.removeNotifyer = torrent.userdata.removeNotifyer ∧
      (torrent.beingRemoved = true → (change handle torrent).beingRemoved = true)) :
    session.KeepsEnds { session with torrents := session.torrents.map change } where
  torrents handle torrent found :=
    ⟨change handle torrent, by simp [found], keeps handle torrent⟩
  newTorrents handle now foundNow missing := by simp [missing] at foundNow
  posted _ := rfl
  called _ := rfl
  added := Nat.le_refl _
  removals := rfl

theorem quiet_call {calls : List NotifiedCall}
    (downloads : ∀ removal, .endNotification removal ∉ calls) :
    Quiet handle session (session.call calls) := by
  have called : ∀ removal, (session.call calls).called.count (.endNotification removal) =
      session.called.count (.endNotification removal) := by
    intro removal
    simp [call, List.count_eq_zero_of_not_mem (downloads removal)]
  exact quiet_of_same rfl (fun _ => rfl) called (List.prefix_append _ _) rfl rfl

theorem quiet_setTorrent (found : session.torrents[handle]? = some torrent)
    (notifyer : changed.userdata.removeNotifyer = torrent.userdata.removeNotifyer)
    (removed : torrent.beingRemoved = true → changed.beingRemoved = true) :
    Quiet handle session (session.setTorrent handle changed) := by
  have isNow : (session.setTorrent handle changed).torrents[handle]? = some changed := by
    simp [setTorrent]
  have others : ∀ other ≠ handle,
      (session.setTorrent handle changed).torrents[other]? = session.torrents[other]? := by
    intro other apart
    rw [setTorrent, Std.TreeMap.getElem?_insert_eq, if_neg apart]
  refine ⟨⟨?_, ?_, fun _ => rfl, fun _ => rfl, Nat.le_refl _, rfl⟩, others, List.prefix_rfl⟩
  · intro other before foundBefore
    by_cases isHandle : other = handle
    · subst isHandle
      obtain rfl := Option.some.inj (found.symm.trans foundBefore)
      exact ⟨changed, isNow, notifyer, removed⟩
    · exact ⟨before, (others other isHandle).trans foundBefore, rfl, id⟩
  · intro other now foundNow missing
    by_cases isHandle : other = handle
    · subst isHandle
      rw [found] at missing
      cases missing
    · rw [others other isHandle, missing] at foundNow
      cases foundNow

theorem quiet_addTorrent
    (known : ∀ (handle : LtHandle) (torrent : SessionTorrent),
      session.torrents[handle]? = some torrent → handle < session.added)
    (noNotifyer : torrent.userdata.removeNotifyer = none) :
    Quiet session.added session (session.addTorrent torrent) := by
  have others : ∀ other ≠ session.added,
      (session.addTorrent torrent).torrents[other]? = session.torrents[other]? := by
    intro other apart
    rw [addTorrent, setTorrent, Std.TreeMap.getElem?_insert_eq, if_neg apart]
  refine ⟨⟨?_, ?_, fun _ => rfl, fun _ => rfl, Nat.le_succ _, rfl⟩, others, List.prefix_rfl⟩
  · intro other before found
    exact ⟨before, (others other (Nat.ne_of_lt (known other before found))).trans found, rfl, id⟩
  · intro other now foundNow missing
    by_cases isAdded : other = session.added
    · subst isAdded
      simp only [addTorrent, setTorrent, Std.TreeMap.getElem?_insert_self,
        Option.some.injEq] at foundNow
      exact ⟨Nat.lt_succ_self _, foundNow ▸ noNotifyer⟩
    · rw [others other isAdded, missing] at foundNow
      cases foundNow

/-! ## What the functions do -/

theorem quiet_addTorrentFile
    (known : ∀ (handle : LtHandle) (torrent : SessionTorrent),
      session.torrents[handle]? = some torrent → handle < session.added)
    (infoHash : InfoHash) (state : Nat) :
    Quiet session.added session (session.addTorrentFileToSession infoHash state) := by
  unfold addTorrentFileToSession
  split
  · exact quiet_refl
  · exact quiet_addTorrent known rfl

theorem quiet_download
    (known : ∀ (handle : LtHandle) (torrent : SessionTorrent),
      session.torrents[handle]? = some torrent → handle < session.added)
    (infoHash : InfoHash) (downloadLimit : Nat) (saveAs : String) (doNotDeleteTorrent : Bool)
    (saveTorrentFilename : String) (state : Nat) :
    Quiet (((session.torrentOf infoHash).map (·.1)).getD session.added) session
      (session.download infoHash downloadLimit saveAs doNotDeleteTorrent saveTorrentFilename
        state) := by
  have numbered : ∀ {handle : LtHandle} {added : TorrentSession}, Quiet handle session added →
      Quiet handle session { added with downloads := session.downloads + 1 } := fun quiet =>
    quiet.trans (quiet_of_same rfl (fun _ => rfl) (fun _ => rfl) List.prefix_rfl rfl rfl)
  unfold TorrentSession.download
  apply numbered
  cases isThere : session.torrentOf infoHash with
  | none => exact quiet_addTorrent known rfl
  | some entry => exact quiet_setTorrent (torrentOf_eq_some isThere) rfl id

theorem quiet_stateChanged {state : Nat}
    (step : session.onStateChanged handle state = some after) : Quiet handle session after := by
  obtain ⟨torrent, found, rfl⟩ := Option.map_eq_some_iff.mp step
  exact quiet_setTorrent found rfl id

theorem quiet_finishedAlert (step : session.onFinishedAlert handle = some after) :
    Quiet handle session after := by
  unfold onFinishedAlert at step
  split at step
  · cases step
  · rename_i torrent found
    split at step
    · obtain rfl := Option.some.inj step
      exact quiet_setTorrent found rfl id
    · cases step

theorem quiet_metadataReceived {totalSize : Nat} {pieceSizeIsExpected : Bool}
    (step : session.onMetadataReceived handle totalSize pieceSizeIsExpected = some after) :
    Quiet handle session after := by
  unfold onMetadataReceived at step
  split at step
  · obtain rfl := Option.some.inj step
    exact quiet_refl
  · rename_i torrent found
    split at step
    · cases step
    · dsimp only at step
      split at step
      · obtain rfl := Option.some.inj step
        exact quiet_setTorrent found rfl id
      · split at step
        · obtain rfl := Option.some.inj step
          apply Quiet.trans _ (quiet_call (by simp))
          exact quiet_setTorrent found rfl fun _ => rfl
        · cases step

theorem quiet_saveTorrentFile {other : LtHandle}
    (step : session.saveTorrentFile other = some after) : Quiet handle session after := by
  unfold saveTorrentFile at step
  split at step
  · cases step
  · split at step
    · cases step
    · split at step
      · obtain rfl := Option.some.inj step
        exact quiet_of_same rfl (by simp) (fun _ => rfl) List.prefix_rfl rfl rfl
      · obtain rfl := Option.some.inj step
        exact quiet_refl

theorem quiet_cacheFlushed (step : session.onTorrentFinished handle = some after) :
    Quiet handle session after := by
  unfold onTorrentFinished at step
  split at step
  · cases step
  · rename_i torrent found
    split at step
    · obtain rfl := Option.some.inj step
      exact quiet_refl
    · split at step
      · cases step
      · have flushed : Quiet handle session
            (session.setTorrent handle (torrent.setFinishStatus .torrentFlushed)) :=
          quiet_setTorrent found rfl id
        dsimp only at step
        split at step
        · obtain rfl := Option.some.inj step
          exact flushed
        · split at step
          · split at step
            · obtain rfl := Option.some.inj step
              exact flushed.trans (quiet_call (by simp))
            · split at step
              · obtain rfl := Option.some.inj step
                exact flushed.trans
                  (quiet_of_same rfl (fun _ => rfl) (fun _ => rfl) List.prefix_rfl rfl rfl)
              · exact flushed.trans (quiet_saveTorrentFile step)
          · obtain rfl := Option.some.inj step
            have isNow : (session.setTorrent handle
                (torrent.setFinishStatus .torrentFlushed)).torrents[handle]? =
                  some (torrent.setFinishStatus .torrentFlushed) := by
              simp [setTorrent]
            exact flushed.trans (quiet_setTorrent isNow rfl fun _ => rfl)

theorem quiet_runSaving (step : session.runSaving = some after) : Quiet handle session after := by
  unfold runSaving at step
  split at step
  · cases step
  · rename_i rest _
    have less : Quiet handle session { session with savings := rest } :=
      quiet_of_same rfl (fun _ => rfl) (fun _ => rfl) List.prefix_rfl rfl rfl
    exact less.trans (quiet_saveTorrentFile step)

theorem mark_removeNotifyer (torrent : SessionTorrent) :
    torrent.mark.userdata.removeNotifyer = torrent.userdata.removeNotifyer := by
  unfold SessionTorrent.mark
  split <;> rfl

theorem mark_beingRemoved (torrent : SessionTorrent) :
    torrent.mark.beingRemoved = torrent.beingRemoved := by
  unfold SessionTorrent.mark
  split <;> rfl

theorem mem_toBeRemoved {torrents : List LtHandle} : torrent ∈ session.toBeRemoved torrents ↔
    ∃ handle ∈ torrents,
      session.torrents[handle]? = some torrent ∧ torrent.hasFiles = true := by
  simp only [toBeRemoved, List.mem_map, List.mem_filter, Bool.and_eq_true, List.contains_iff_mem]
  constructor
  · intro ⟨entry, ⟨member, isAsked, hasFiles⟩, isTorrent⟩
    subst isTorrent
    exact ⟨entry.1, isAsked, Std.TreeMap.mem_toList_iff_getElem?_eq_some.mp member, hasFiles⟩
  · intro ⟨handle, isAsked, found, hasFiles⟩
    exact ⟨(handle, torrent),
      ⟨Std.TreeMap.mem_toList_iff_getElem?_eq_some.mpr found, isAsked, hasFiles⟩, rfl⟩

theorem isHeld_removeTorrents {torrents : List LtHandle}
    (someFiles : session.toBeRemoved torrents ≠ [])
    (noneHeld : ∀ torrent ∈ session.toBeRemoved torrents,
      torrent.userdata.removeNotifyer = none)
    (isMapped : after.torrents = session.torrents.map fun handle torrent =>
      if torrents.contains handle then
        if torrent.hasFiles then (torrent.mark.setNotifyer session.removals).remove
        else torrent.mark
      else torrent) :
    after.isHeld removal = true ↔
      removal = session.removals ∨ session.isHeld removal = true := by
  rw [isHeld_iff, isHeld_iff]
  constructor
  · intro ⟨handle, now, foundNow, holds⟩
    rw [isMapped] at foundNow
    obtain ⟨torrent, found, isNow⟩ : ∃ torrent : SessionTorrent,
        session.torrents[handle]? = some torrent ∧ _ = now := by
      simpa using foundNow
    split at isNow
    · split at isNow
      · subst isNow
        exact Or.inl (Option.some.inj holds).symm
      · subst isNow
        rw [mark_removeNotifyer] at holds
        exact Or.inr ⟨handle, torrent, found, holds⟩
    · subst isNow
      exact Or.inr ⟨handle, torrent, found, holds⟩
  · intro asked
    rcases asked with rfl | ⟨handle, torrent, found, holds⟩
    · obtain ⟨torrent, member⟩ := List.exists_mem_of_ne_nil _ someFiles
      obtain ⟨handle, isAsked, found, hasFiles⟩ := mem_toBeRemoved.mp member
      refine ⟨handle, (torrent.mark.setNotifyer session.removals).remove, ?_, rfl⟩
      simp [isMapped, found, isAsked, hasFiles]
    · have noFiles : ¬ (handle ∈ torrents ∧ torrent.hasFiles = true) := by
        intro ⟨isAsked, hasFiles⟩
        have noNotifyer := noneHeld torrent
          (mem_toBeRemoved.mpr ⟨handle, isAsked, found, hasFiles⟩)
        rw [noNotifyer] at holds
        cases holds
      by_cases isAsked : handle ∈ torrents
      · have hasNone : torrent.hasFiles = false := by
          simpa [isAsked] using noFiles
        refine ⟨handle, torrent.mark, ?_, (mark_removeNotifyer torrent).trans holds⟩
        simp [isMapped, found, isAsked, hasNone]
      · refine ⟨handle, torrent, ?_, holds⟩
        simp [isMapped, found, isAsked]

theorem beingRemoved_removeTorrents {torrents : List LtHandle} (handle : LtHandle)
    (removing : torrent.userdata.removeNotifyer.isSome = true → torrent.beingRemoved = true) :
    let now := if torrents.contains handle then
      if torrent.hasFiles then (torrent.mark.setNotifyer removal).remove else torrent.mark
      else torrent
    now.userdata.removeNotifyer.isSome = true → now.beingRemoved = true := by
  dsimp only
  split
  · split
    · intro _
      rfl
    · rw [mark_removeNotifyer, mark_beingRemoved]
      exact removing
  · exact removing

theorem EndsOnce.post (once : session.EndsOnce) :
    EndsOnce { session with
      posted := session.posted ++ [.endNotification session.removals]
      removals := session.removals + 1 } where
  known := once.known
  removing := once.removing
  ends removal := by
    have before := once.ends removal
    have held : isHeld { session with
        posted := session.posted ++ [.endNotification session.removals]
        removals := session.removals + 1 } removal = session.isHeld removal := rfl
    simp only [TorrentSession.ends] at before ⊢
    rw [held, List.count_append, List.count_singleton]
    by_cases isNew : removal = session.removals
    · subst isNew
      simp only [Nat.lt_irrefl, if_false] at before
      simp only [beq_self_eq_true, if_true, Nat.lt_succ_self]
      omega
    · have apart : (PostedCall.endNotification session.removals == .endNotification removal) =
          false := by
        simpa using Ne.symm isNew
      have sameBound : removal < session.removals + 1 ↔ removal < session.removals := by omega
      simp only [apart, Bool.false_eq_true, if_false, sameBound]
      omega

theorem EndsOnce.removeTorrents (once : session.EndsOnce) {torrents : List LtHandle}
    (step : session.removeTorrentsFromSession torrents = some after) : after.EndsOnce := by
  unfold removeTorrentsFromSession at step
  split at step
  · rename_i someFiles
    split at step
    · cases step
    · rename_i noneHeld
      have isAfter := (Option.some.inj step).symm
      have someFiles : session.toBeRemoved torrents ≠ [] := by simpa using someFiles
      have noneHeld : ∀ torrent ∈ session.toBeRemoved torrents,
          torrent.userdata.removeNotifyer = none := by
        simpa using noneHeld
      have lookUp : ∀ {handle : LtHandle} {now : SessionTorrent},
          after.torrents[handle]? = some now → ∃ torrent : SessionTorrent,
            session.torrents[handle]? = some torrent ∧ (if torrents.contains handle then
              if torrent.hasFiles then (torrent.mark.setNotifyer session.removals).remove
              else torrent.mark
            else torrent) = now := by
        intro handle now isNow
        simpa [isAfter] using isNow
      constructor
      · intro handle now isNow
        obtain ⟨torrent, found, -⟩ := lookUp isNow
        simpa [isAfter] using once.known handle torrent found
      · intro handle now isNow
        obtain ⟨torrent, found, rfl⟩ := lookUp isNow
        exact beingRemoved_removeTorrents handle (once.removing handle torrent found)
      · intro removal
        have before := once.ends removal
        have held : after.isHeld removal = true ↔
            removal = session.removals ∨ session.isHeld removal = true :=
          isHeld_removeTorrents someFiles noneHeld (by rw [isAfter])
        have removals : after.removals = session.removals + 1 := by rw [isAfter]
        have posted : after.posted = session.posted := by rw [isAfter]
        have called : after.called = session.called := by rw [isAfter]
        simp only [TorrentSession.ends, removals, posted, called] at before ⊢
        by_cases isNew : removal = session.removals
        · subst isNew
          have isHeld : after.isHeld session.removals = true := held.mpr (Or.inl rfl)
          simp only [Nat.lt_irrefl, if_false] at before
          simp only [isHeld, Bool.toNat_true, Nat.lt_succ_self, if_true]
          omega
        · have same : after.isHeld removal = session.isHeld removal := by
            apply Bool.eq_iff_iff.mpr
            simpa [isNew] using held
          rw [same, before]
          have sameBound : removal < session.removals + 1 ↔ removal < session.removals := by omega
          simp only [sameBound]
  · split at step
    · cases step
    · obtain rfl := Option.some.inj step
      have marked := once.keeps (keepsEnds_map (fun handle torrent =>
          if torrents.contains handle then torrent.mark.remove else torrent) (by
        intro handle torrent
        split
        · exact ⟨mark_removeNotifyer torrent, fun _ => rfl⟩
        · exact ⟨rfl, id⟩))
      exact marked.post

theorem isHeld_erase (found : session.torrents[handle]? = some torrent) :
    session.isHeld removal = true ↔
      isHeld { session with torrents := session.torrents.erase handle } removal = true ∨
        torrent.userdata.removeNotifyer = some removal := by
  rw [isHeld_iff, isHeld_iff]
  constructor
  · intro ⟨other, before, foundBefore, holds⟩
    by_cases isHandle : other = handle
    · subst isHandle
      obtain rfl := Option.some.inj (found.symm.trans foundBefore)
      exact Or.inr holds
    · refine Or.inl ⟨other, before, ?_, holds⟩
      simpa [Std.TreeMap.getElem?_erase_eq, isHandle] using foundBefore
  · intro held
    rcases held with ⟨other, now, foundNow, holds⟩ | holds
    · rw [Std.TreeMap.getElem?_erase_eq] at foundNow
      split at foundNow
      · cases foundNow
      · exact ⟨other, now, foundNow, holds⟩
    · exact ⟨handle, torrent, found, holds⟩

theorem EndsOnce.release (once : session.EndsOnce)
    (found : session.torrents[handle]? = some torrent) :
    EndsOnce (TorrentSession.release { session with torrents := session.torrents.erase handle }
      torrent.userdata.removeNotifyer) := by
  obtain ⟨rest, isRest⟩ : ∃ rest : TorrentSession,
      rest = { session with torrents := session.torrents.erase handle } := ⟨_, rfl⟩
  have drops : ∀ removal, session.isHeld removal = true ↔
      rest.isHeld removal = true ∨ torrent.userdata.removeNotifyer = some removal := by
    intro removal
    rw [isRest]
    exact isHeld_erase found
  have lookUp : ∀ {other : LtHandle} {now : SessionTorrent}, rest.torrents[other]? = some now →
      session.torrents[other]? = some now := by
    intro other now isNow
    rw [isRest, Std.TreeMap.getElem?_erase_eq] at isNow
    split at isNow
    · cases isNow
    · exact isNow
  have known : ∀ (other : LtHandle) (now : SessionTorrent), rest.torrents[other]? = some now →
      other < rest.added := by
    intro other now isNow
    simpa [isRest] using once.known other now (lookUp isNow)
  have removing : ∀ (other : LtHandle) (now : SessionTorrent),
      rest.torrents[other]? = some now → now.userdata.removeNotifyer.isSome = true → now.beingRemoved = true :=
    fun other now isNow => once.removing other now (lookUp isNow)
  have posted : rest.posted = session.posted := by rw [isRest]
  have called : rest.called = session.called := by rw [isRest]
  have removals : rest.removals = session.removals := by rw [isRest]
  have stays : (∀ removal, rest.isHeld removal = session.isHeld removal) → rest.EndsOnce := by
    intro same
    refine ⟨known, removing, ?_⟩
    intro removal
    have before := once.ends removal
    simpa only [TorrentSession.ends, same, posted, called, removals] using before
  rw [← isRest]
  unfold TorrentSession.release
  split
  · rename_i isNone
    apply stays
    intro removal
    apply Bool.eq_iff_iff.mpr
    simp [drops, isNone]
  · rename_i ended isSome
    split
    · rename_i isHeld
      apply stays
      intro removal
      apply Bool.eq_iff_iff.mpr
      rw [drops, isSome]
      constructor
      · exact Or.inl
      · intro held
        rcases held with held | isEnded
        · exact held
        · exact Option.some.inj isEnded ▸ isHeld
    · rename_i isHeld
      refine ⟨known, removing, ?_⟩
      intro removal
      have before := once.ends removal
      have held : (rest.call [.endNotification ended]).isHeld removal = rest.isHeld removal := rfl
      have calls : (rest.call [.endNotification ended]).called =
          session.called ++ [.endNotification ended] := by
        rw [call, called]
      have same : (rest.call [.endNotification ended]).posted = session.posted := posted
      have bound : (rest.call [.endNotification ended]).removals = session.removals := removals
      simp only [TorrentSession.ends] at before ⊢
      rw [held, calls, same, bound, List.count_append, List.count_singleton]
      by_cases isEnded : removal = ended
      · subst isEnded
        have was : session.isHeld removal = true := (drops removal).mpr (Or.inr isSome)
        simp only [was, Bool.toNat_true] at before
        simp only [isHeld, Bool.toNat_false, beq_self_eq_true, if_true]
        omega
      · have apart : (NotifiedCall.endNotification ended == .endNotification removal) = false := by
          simpa using Ne.symm isEnded
        have was : rest.isHeld removal = session.isHeld removal := by
          apply Bool.eq_iff_iff.mpr
          simp [drops, isSome, Ne.symm isEnded]
        simp only [apart, was, Bool.false_eq_true, if_false]
        omega

theorem EndsOnce.torrentDeleted (once : session.EndsOnce)
    (step : session.onTorrentDeleted handle = some after) : after.EndsOnce := by
  unfold onTorrentDeleted at step
  split at step
  · cases step
  · rename_i torrent found
    split at step
    · split at step
      · obtain rfl := Option.some.inj step
        have set : Quiet handle session
            (session.setTorrent handle { torrent with isDeleted := true }) :=
          quiet_setTorrent found rfl id
        exact once.keeps set.toKeepsEnds
      · obtain rfl := Option.some.inj step
        have noEnds : ∀ removal, .endNotification removal ∉ deletionCalls torrent.userdata := by
          intro removal
          unfold deletionCalls
          split
          · simp
          · simp
        have called := once.keeps (@quiet_call session handle _ noEnds).toKeepsEnds
        exact called.release found
    · cases step

theorem EndsOnce.runPosted (once : session.EndsOnce) (step : session.runPosted = some after) :
    after.EndsOnce := by
  unfold TorrentSession.runPosted at step
  split at step
  · cases step
  · rename_i removal rest isNext
    obtain rfl := Option.some.inj step
    refine once.move ?_ ?_ ?_ ?_
    · rfl
    · rfl
    · rfl
    intro other
    simp only [call, isNext, List.count_cons, List.count_append, List.count_nil]
    have same : (PostedCall.endNotification removal == .endNotification other) =
        (NotifiedCall.endNotification removal == .endNotification other) := by
      apply Bool.eq_iff_iff.mpr
      simp
    rw [same]
    omega
  · rename_i handle dnContext rest isNext
    obtain ⟨torrent, found, rfl⟩ := Option.map_eq_some_iff.mp step
    have less : Quiet handle session { session with posted := rest } :=
      quiet_of_same rfl (by simp [isNext]) (fun _ => rfl) List.prefix_rfl rfl rfl
    exact once.keeps (less.toKeepsEnds.trans (@quiet_call _ handle _ (by simp)).toKeepsEnds)

/-! ## Runs -/

theorem EndsOnce.step (once : session.EndsOnce) {event : TorrentEvent}
    (step : torrentSystem.step session event = some after) : after.EndsOnce := by
  cases event with
  | addTorrentFile infoHash state =>
      obtain rfl := Option.some.inj step
      exact once.keeps (quiet_addTorrentFile once.known infoHash state).toKeepsEnds
  | download infoHash downloadLimit saveAs doNotDeleteTorrent saveTorrentFilename state =>
      obtain rfl := Option.some.inj step
      exact once.keeps (quiet_download once.known _ _ _ _ _ _).toKeepsEnds
  | removeTorrents torrents => exact once.removeTorrents step
  | endSession =>
      obtain rfl := Option.some.inj step
      exact once.move rfl rfl rfl fun _ => rfl
  | stateChanged handle state =>
      simp only [torrentSystem, Option.ite_none_right_eq_some] at step
      exact once.keeps (quiet_stateChanged step.2).toKeepsEnds
  | metadataReceived handle totalSize pieceSizeIsExpected =>
      simp only [torrentSystem] at step
      split at step
      · exact Option.some.inj step ▸ once
      · exact once.keeps (quiet_metadataReceived step).toKeepsEnds
  | torrentFinished handle =>
      simp only [torrentSystem] at step
      split at step
      · exact Option.some.inj step ▸ once
      · exact once.keeps (quiet_finishedAlert step).toKeepsEnds
  | cacheFlushed handle =>
      simp only [torrentSystem, Option.ite_none_right_eq_some] at step
      exact once.keeps (quiet_cacheFlushed step.2).toKeepsEnds
  | torrentDeleted handle => exact once.torrentDeleted step
  | torrentFileSaved => exact once.keeps (@quiet_runSaving _ _ 0 step).toKeepsEnds
  | runPosted => exact once.runPosted step

theorem endsOnce_new : EndsOnce {} where
  known := by simp
  removing := by simp
  ends removal := by simp [TorrentSession.ends, isHeld]

theorem endsOnce_of_run {events : List TorrentEvent}
    (run : torrentSystem.exec {} events = some session) : session.EndsOnce :=
  torrentSystem.invariant_of_step (fun _ _ _ once step => once.step step) endsOnce_new run

/-- The end notification of a removal is called at most once, and it was called as soon as it is
    not posted any more and held by none of the torrents that are being removed. -/
theorem endNotification_called {events : List TorrentEvent}
    (run : torrentSystem.exec {} events = some session) (removal : Nat) :
    session.called.count (.endNotification removal) ≤ 1 ∧
      (.endNotification removal ∈ session.called ↔ removal < session.removals ∧
        .endNotification removal ∉ session.posted ∧
        ∀ (handle : LtHandle) (torrent : SessionTorrent),
          session.torrents[handle]? = some torrent → torrent.beingRemoved = true →
          torrent.userdata.removeNotifyer ≠ some removal) := by
  have once := endsOnce_of_run run
  have ends := once.ends removal
  have noneHeld : session.isHeld removal = false ↔
      ∀ (handle : LtHandle) (torrent : SessionTorrent),
        session.torrents[handle]? = some torrent → torrent.beingRemoved = true →
        torrent.userdata.removeNotifyer ≠ some removal := by
    rw [← Bool.not_eq_true, isHeld_iff]
    constructor
    · intro noneHeld handle torrent found _ holds
      exact noneHeld ⟨handle, torrent, found, holds⟩
    · intro noneHeld ⟨handle, torrent, found, holds⟩
      have removing := once.removing handle torrent found (by simp [holds])
      exact noneHeld handle torrent found removing holds
  rw [← noneHeld, ← List.count_pos_iff, ← List.count_eq_zero]
  simp only [TorrentSession.ends] at ends
  have held : session.isHeld removal = false ↔ (session.isHeld removal).toNat = 0 := by
    cases session.isHeld removal <;> simp
  rw [held]
  split at ends
  · omega
  · omega

/-- One of two torrents has files; its deletion ends the first request. A request for the other
    torrent is ended by a posted function. -/
theorem endNotification_called_sample : ∃ session, torrentSystem.exec {}
      [.addTorrentFile 1 5, .addTorrentFile 2 0, .removeTorrents [0, 1], .torrentDeleted 0,
        .removeTorrents [1], .runPosted] = some session ∧
    (.endNotification 1 ∈ session.called ↔ 1 < session.removals ∧
      .endNotification 1 ∉ session.posted ∧
      ∀ (handle : LtHandle) (torrent : SessionTorrent),
        session.torrents[handle]? = some torrent → torrent.beingRemoved = true →
        torrent.userdata.removeNotifyer ≠ some 1) := by
  have runs : (torrentSystem.exec {}
      [.addTorrentFile 1 5, .addTorrentFile 2 0, .removeTorrents [0, 1], .torrentDeleted 0,
        .removeTorrents [1], .runPosted]).isSome := by decide +kernel
  obtain ⟨session, run⟩ := Option.isSome_iff_exists.mp runs
  exact ⟨session, run, (endNotification_called run 1).2⟩

/-! ## A torrent that is left out of a request -/

/-- The torrent was marked as removed, but it is not being removed, and it still owes the
    notification; or the download was notified as failed. -/
def LeftOut (session : TorrentSession) (handle : LtHandle) (notification : Nat) : Prop :=
  (∃ torrent : SessionTorrent, session.torrents[handle]? = some torrent ∧
    torrent.userdata.isRemoved = true ∧ torrent.beingRemoved = false ∧
    0 < torrent.owes notification) ∨
  ∃ context downloaded errorText, context.downloadNotification = notification ∧
    .download .dnFailed context downloaded errorText ∈ session.called

/-- No other request has the torrent. -/
def NotAsked (handle : LtHandle) : TorrentEvent → Bool
  | .removeTorrents torrents => !torrents.contains handle
  | _ => true

theorem touches_release (removeNotifyer : Option Nat) :
    Touches handle session (session.release removeNotifyer) := by
  unfold release
  split
  · exact quiet_refl.toTouches
  · split
    · exact quiet_refl.toTouches
    · exact ⟨fun _ _ => rfl, List.prefix_append _ _⟩

theorem touches_torrentDeleted (step : session.onTorrentDeleted handle = some after) :
    Touches handle session after := by
  unfold onTorrentDeleted at step
  split at step
  · cases step
  · rename_i torrent found
    split at step
    · split at step
      · obtain rfl := Option.some.inj step
        have set : Quiet handle session
            (session.setTorrent handle { torrent with isDeleted := true }) :=
          quiet_setTorrent found rfl id
        exact set.toTouches
      · obtain rfl := Option.some.inj step
        have erased : Touches handle session
            (TorrentSession.call { session with torrents := session.torrents.erase handle }
              (deletionCalls torrent.userdata)) := by
          refine ⟨?_, List.prefix_append _ _⟩
          intro other apart
          simp only [call, Std.TreeMap.getElem?_erase_eq, if_neg apart]
        exact erased.trans (touches_release _)
    · cases step

theorem touches_runPosted (step : session.runPosted = some after) :
    Touches handle session after := by
  unfold runPosted at step
  split at step
  · cases step
  · obtain rfl := Option.some.inj step
    exact ⟨fun _ _ => rfl, List.prefix_append _ _⟩
  · obtain ⟨torrent, -, rfl⟩ := Option.map_eq_some_iff.mp step
    exact ⟨fun _ _ => rfl, List.prefix_append _ _⟩

theorem removeTorrents_frame {torrents : List LtHandle}
    (step : session.removeTorrentsFromSession torrents = some after) :
    after.called = session.called ∧
      ∀ handle ∉ torrents, after.torrents[handle]? = session.torrents[handle]? := by
  unfold removeTorrentsFromSession at step
  split at step
  · split at step
    · cases step
    · obtain rfl := Option.some.inj step
      refine ⟨rfl, ?_⟩
      intro handle notAsked
      simp [notAsked]
  · split at step
    · cases step
    · obtain rfl := Option.some.inj step
      refine ⟨rfl, ?_⟩
      intro handle notAsked
      simp [notAsked]

/-! ## It stays left out -/

theorem LeftOut.touches {notification : Nat} {other : LtHandle}
    (leftOut : session.LeftOut handle notification) (touches : Touches other session after)
    (apart : ∀ torrent : SessionTorrent, session.torrents[handle]? = some torrent →
      handle ≠ other) :
    after.LeftOut handle notification := by
  rcases leftOut with ⟨torrent, found, isRemoved, notRemoving, owes⟩ |
    ⟨context, downloaded, errorText, isFor, isCalled⟩
  · have isNow := (touches.others handle (apart torrent found)).trans found
    exact Or.inl ⟨torrent, isNow, isRemoved, notRemoving, owes⟩
  · exact Or.inr ⟨context, downloaded, errorText, isFor, touches.calls.subset isCalled⟩

/-- A step that touches the torrent leaves it left out, since it is marked. -/
theorem LeftOut.acts {other : LtHandle} {notification : Nat}
    (leftOut : session.LeftOut handle notification) (touches : Touches other session after)
    (stays : ∀ torrent : SessionTorrent, handle = other → session.torrents[handle]? = some torrent →
      torrent.userdata.isRemoved = true → torrent.beingRemoved = false →
      0 < torrent.owes notification → after.LeftOut handle notification) :
    after.LeftOut handle notification := by
  by_cases isSame : handle = other
  · rcases leftOut with ⟨torrent, found, isRemoved, notRemoving, owes⟩ |
      ⟨context, downloaded, errorText, isFor, isCalled⟩
    · exact stays torrent isSame found isRemoved notRemoving owes
    · exact Or.inr ⟨context, downloaded, errorText, isFor, touches.calls.subset isCalled⟩
  · exact leftOut.touches touches fun _ _ => isSame

theorem leftOut_setTorrent {notification : Nat} (changed : SessionTorrent)
    (isRemoved : torrent.userdata.isRemoved = true) (notRemoving : torrent.beingRemoved = false)
    (owes : 0 < torrent.owes notification)
    (sameMark : changed.userdata.isRemoved = torrent.userdata.isRemoved)
    (sameRemoving : changed.beingRemoved = torrent.beingRemoved)
    (more : torrent.owes notification ≤ changed.owes notification) :
    (session.setTorrent handle changed).LeftOut handle notification :=
  Or.inl ⟨changed, by simp [setTorrent], sameMark.trans isRemoved,
    sameRemoving.trans notRemoving, Nat.lt_of_lt_of_le owes more⟩

theorem LeftOut.step {notification : Nat} (leftOut : session.LeftOut handle notification)
    (sound : session.Sound) {event : TorrentEvent} (notAsked : NotAsked handle event = true)
    (step : torrentSystem.step session event = some after) :
    after.LeftOut handle notification := by
  have same : ∀ {after}, some session = some after → after.LeftOut handle notification := by
    intro after isSame
    exact Option.some.inj isSame ▸ leftOut
  have notAdded : ∀ torrent : SessionTorrent, session.torrents[handle]? = some torrent →
      handle ≠ session.added :=
    fun torrent found => Nat.ne_of_lt (sound.known handle torrent found)
  cases event with
  | addTorrentFile infoHash state =>
      obtain rfl := Option.some.inj step
      unfold addTorrentFileToSession
      split
      · exact leftOut
      · exact leftOut.touches (quiet_addTorrent sound.known rfl).toTouches notAdded
  | download infoHash downloadLimit saveAs doNotDeleteTorrent saveTorrentFilename state =>
      obtain rfl := Option.some.inj step
      unfold TorrentSession.download
      dsimp only
      generalize (⟨session.downloads, infoHash, downloadLimit, saveAs, doNotDeleteTorrent⟩ :
        DownloadContext) = context
      split
      · rename_i other joined isThere
        have isJoined := torrentOf_eq_some isThere
        have quiet : Quiet other session
            (session.setTorrent other (joined.addContext context)) :=
          quiet_setTorrent isJoined rfl id
        have touches := quiet.toTouches
        have joins : (session.setTorrent other (joined.addContext context)).LeftOut handle
            notification := by
          apply leftOut.acts touches
          intro torrent isSame found isRemoved notRemoving owes
          subst isSame
          obtain rfl := Option.some.inj (found.symm.trans isJoined)
          apply leftOut_setTorrent (torrent.addContext context) isRemoved notRemoving owes rfl rfl
          simp only [SessionTorrent.owes, SessionTorrent.addContext, List.countP_append]
          split
          · exact Nat.le_refl _
          · exact Nat.le_add_right _ _
        exact joins
      · have started : (session.addTorrent
            { infoHash, state
              userdata := { saveTorrentFilename, dnContexts := [context] } }).LeftOut handle
                notification :=
          leftOut.touches (quiet_addTorrent sound.known rfl).toTouches notAdded
        exact started
  | removeTorrents torrents =>
      have notAsked : handle ∉ torrents := by simpa [NotAsked] using notAsked
      obtain ⟨called, others⟩ := removeTorrents_frame step
      rcases leftOut with ⟨torrent, found, marked⟩ | failed
      · exact Or.inl ⟨torrent, (others handle notAsked).trans found, marked⟩
      · exact Or.inr (called ▸ failed)
  | endSession =>
      obtain rfl := Option.some.inj step
      exact leftOut
  | stateChanged other state =>
      simp only [torrentSystem, Option.ite_none_right_eq_some] at step
      have touches := (quiet_stateChanged step.2).toTouches
      apply leftOut.acts touches
      intro torrent isSame found isRemoved notRemoving owes
      subst isSame
      simp only [onStateChanged, found, Option.map_some, Option.some.injEq] at step
      obtain ⟨-, rfl⟩ := step
      exact leftOut_setTorrent { torrent with state } isRemoved notRemoving owes rfl rfl
        (Nat.le_refl _)
  | metadataReceived other totalSize pieceSizeIsExpected =>
      simp only [torrentSystem] at step
      split at step
      · exact same step
      · have touches := (quiet_metadataReceived step).toTouches
        apply leftOut.acts touches
        intro torrent isSame found isRemoved notRemoving owes
        subst isSame
        simp only [onMetadataReceived, found] at step
        split at step
        · cases step
        · split at step
          · obtain rfl := Option.some.inj step
            exact leftOut_setTorrent _ isRemoved notRemoving owes rfl rfl (Nat.le_refl _)
          · split at step
            · rename_i context isSingle
              obtain rfl := Option.some.inj step
              have isFor : context.downloadNotification = notification := by
                by_contra apart
                simp [SessionTorrent.owes, isSingle, apart] at owes
              exact Or.inr ⟨context, _, _, isFor,
                List.mem_append_right _ (List.mem_singleton_self _)⟩
            · cases step
  | torrentFinished other =>
      simp only [torrentSystem] at step
      split at step
      · exact same step
      · have touches := (quiet_finishedAlert step).toTouches
        apply leftOut.acts touches
        intro torrent isSame found isRemoved notRemoving owes
        subst isSame
        simp only [onFinishedAlert, found, Option.ite_none_right_eq_some] at step
        obtain ⟨⟨-, isAdded⟩, step⟩ := step
        obtain rfl := Option.some.inj step
        apply leftOut_setTorrent (torrent.setFinishStatus .torrentFinished) isRemoved
          notRemoving owes rfl rfl
        simp [SessionTorrent.owes, SessionTorrent.setFinishStatus, isAdded]
  | cacheFlushed other =>
      simp only [torrentSystem, Option.ite_none_right_eq_some] at step
      have touches := (quiet_cacheFlushed step.2).toTouches
      apply leftOut.acts touches
      intro torrent isSame found isRemoved _ _
      subst isSame
      simp only [onTorrentFinished, found, isRemoved, if_true] at step
      exact same step.2
  | torrentDeleted other =>
      have touches := touches_torrentDeleted step
      apply leftOut.acts touches
      intro torrent isSame found _ notRemoving _
      subst isSame
      simp [torrentSystem, onTorrentDeleted, found, notRemoving] at step
  | torrentFileSaved =>
      exact leftOut.touches (quiet_runSaving step).toTouches fun _ _ => Nat.ne_of_lt (Nat.lt_succ_self _)
  | runPosted =>
      exact leftOut.touches (touches_runPosted step) fun _ _ => Nat.ne_of_lt (Nat.lt_succ_self _)

/-- If a torrent of the request has files, those without are marked only. -/
theorem torrents_of_someFiles {torrents : List LtHandle}
    (someFiles : session.toBeRemoved torrents ≠ []) (isAsked : handle ∈ torrents)
    (found : session.torrents[handle]? = some torrent)
    (step : session.removeTorrentsFromSession torrents = some after) :
    after.torrents[handle]? = some
      (if torrent.hasFiles then (torrent.mark.setNotifyer session.removals).remove
        else torrent.mark) := by
  unfold removeTorrentsFromSession at step
  split at step
  · split at step
    · cases step
    · obtain rfl := Option.some.inj step
      simp [found, isAsked]
  · rename_i noneFiles
    simp [someFiles] at noneFiles

/-- A torrent without files is marked only, if another torrent of the request has files. -/
theorem leftOut_of_removeTorrents {torrents : List LtHandle} {notification : Nat}
    (someFiles : session.toBeRemoved torrents ≠ []) (isAsked : handle ∈ torrents)
    (found : session.torrents[handle]? = some torrent) (isValid : torrent.isDeleted = false)
    (noFiles : torrent.hasFiles = false) (notRemoving : torrent.beingRemoved = false)
    (owes : 0 < torrent.owes notification)
    (step : session.removeTorrentsFromSession torrents = some after) :
    ∃ marked : SessionTorrent, after.torrents[handle]? = some marked ∧
      marked.userdata.isRemoved = true ∧ marked.beingRemoved = false ∧
      0 < marked.owes notification := by
  have isMarked : torrent.mark.userdata.isRemoved = true := by
    simp [SessionTorrent.mark, isValid]
  have isNow := torrents_of_someFiles someFiles isAsked found step
  rw [noFiles] at isNow
  refine ⟨torrent.mark, isNow, isMarked, ?_, ?_⟩
  · rw [mark_beingRemoved, notRemoving]
  · rwa [(keeps_mark torrent).owes]

/-- A torrent that owes a notification or a download that failed: nothing is complete. -/
theorem LeftOut.notComplete {notification : Nat} (leftOut : session.LeftOut handle notification)
    (once : session.DueOnce) {context : DownloadContext} {downloaded : Nat} {errorText : String}
    (isFor : context.downloadNotification = notification) :
    .download .downloadComplete context downloaded errorText ∉ session.called := by
  intro isCalled
  have due := once.due notification
  have atMostOne : session.due notification ≤ 1 := by
    split at due
    · exact due
    · omega
  simp only [TorrentSession.due] at atMostOne
  rcases leftOut with ⟨torrent, found, -, -, owes⟩ |
    ⟨failed, downloadedThen, text, isForToo, isFailed⟩
  · have weight := Std.TreeMap.le_sumOf
      (Std.TreeMap.mem_toList_iff_getElem?_eq_some.mpr found)
      fun _ torrent => torrent.owes notification
    have counted : 0 < session.called.countP (·.isDownload notification) := by
      rw [List.countP_pos_iff]
      exact ⟨_, isCalled, by simp [NotifiedCall.isDownload, isFor]⟩
    omega
  · have both : (session.called.filter (·.isDownload notification)).length ≤ 1 := by
      rw [← List.countP_eq_length_filter]
      omega
    have complete : NotifiedCall.download .downloadComplete context downloaded errorText ∈
        session.called.filter (·.isDownload notification) := by
      simp [isCalled, NotifiedCall.isDownload, isFor]
    have rejected : NotifiedCall.download .dnFailed failed downloadedThen text ∈
        session.called.filter (·.isDownload notification) := by
      simp [isFailed, NotifiedCall.isDownload, isForToo]
    obtain ⟨single, isSingle⟩ : ∃ single,
        session.called.filter (·.isDownload notification) = [single] := by
      apply List.length_eq_one_iff.mp
      have some := List.length_pos_of_mem complete
      omega
    rw [isSingle, List.mem_singleton] at complete rejected
    simp [← complete] at rejected

/-- If a request for the removal of torrents has torrents with files, and another one without,
    those with files are removed and the other one is marked only. Its download is never reported
    complete, unless another request has it. -/
theorem leftOut_neverComplete {first rest : List TorrentEvent} {torrents : List LtHandle}
    {notification : Nat} {last : TorrentSession}
    (validBefore : torrentSystem.Meets (FlushesValid · ·) {} first)
    (before : torrentSystem.exec {} first = some session)
    (valid : torrentSystem.Meets (FlushesValid · ·) session (.removeTorrents torrents :: rest))
    (run : torrentSystem.exec session (.removeTorrents torrents :: rest) = some last)
    (someFiles : session.toBeRemoved torrents ≠ []) (isAsked : handle ∈ torrents)
    (found : session.torrents[handle]? = some torrent) (isValid : torrent.isDeleted = false)
    (noFiles : torrent.hasFiles = false) (notRemoving : torrent.beingRemoved = false)
    (owes : 0 < torrent.owes notification)
    (notAsked : ∀ event ∈ rest, NotAsked handle event = true) :
    (∃ after, torrentSystem.step session (.removeTorrents torrents) = some after ∧
      (∃ marked : SessionTorrent, after.torrents[handle]? = some marked ∧
        marked.userdata.isRemoved = true ∧ marked.beingRemoved = false ∧
        0 < marked.owes notification) ∧
      ∀ (other : LtHandle) (removed : SessionTorrent), other ∈ torrents →
        session.torrents[other]? = some removed → removed.hasFiles = true →
        ∃ leaving : SessionTorrent, after.torrents[other]? = some leaving ∧
          leaving.beingRemoved = true) ∧
    ∀ (context : DownloadContext) (downloaded : Nat) (errorText : String),
      context.downloadNotification = notification →
        .download .downloadComplete context downloaded errorText ∉ last.called := by
  obtain ⟨after, step, later⟩ := (torrentSystem.exec_cons_iff).mp run
  have marked := leftOut_of_removeTorrents someFiles isAsked found isValid noFiles notRemoving
    owes step
  refine ⟨⟨after, step, marked, ?_⟩, ?_⟩
  · intro other removed isAlsoAsked isThere hasFiles
    have isNow := torrents_of_someFiles someFiles isAlsoAsked isThere step
    rw [if_pos hasFiles] at isNow
    exact ⟨_, isNow, rfl⟩
  · intro context downloaded errorText isFor
    have once := (dueOnce_of_run validBefore before).step valid.1 step
    have holds : last.DueOnce ∧ last.LeftOut handle notification := by
      apply torrentSystem.invariant (I := fun session =>
        session.DueOnce ∧ session.LeftOut handle notification) _ ⟨once, Or.inl marked⟩
        ((valid.2 after step).and (Transition.meets_of_forall notAsked)) later
      intro session event next ⟨once, leftOut⟩ ⟨valid, notAsked⟩ step
      exact ⟨once.step valid step, leftOut.step once.sound notAsked step⟩
    exact holds.2.notComplete holds.1 isFor

/-- A download is finished and flushed after a request that has it together with a torrent file. -/
theorem leftOut_neverComplete_sample : ∃ session after last,
    torrentSystem.exec {} [.addTorrentFile 1 5, .download 2 0 "" false "" 0] = some session ∧
    torrentSystem.step session (.removeTorrents [0, 1]) = some after ∧
    (∃ marked : SessionTorrent, after.torrents[1]? = some marked ∧
      marked.userdata.isRemoved = true ∧ marked.beingRemoved = false ∧ 0 < marked.owes 0) ∧
    torrentSystem.exec session [.removeTorrents [0, 1], .torrentDeleted 0,
      .metadataReceived 1 90 true, .torrentFinished 1, .cacheFlushed 1] = some last ∧
    .download .downloadComplete ⟨0, 2, 0, "", false⟩ 90 "" ∉ last.called := by
  have runs : ((torrentSystem.exec {} [.addTorrentFile 1 5, .download 2 0 "" false "" 0]).any
      fun session => !(session.toBeRemoved [0, 1]).isEmpty &&
        session.torrents[1]? == some
          { infoHash := 2, state := 0, userdata := { dnContexts := [⟨0, 2, 0, "", false⟩] } } &&
        (torrentSystem.exec session [.removeTorrents [0, 1], .torrentDeleted 0,
          .metadataReceived 1 90 true, .torrentFinished 1, .cacheFlushed 1]).isSome &&
        decide (torrentSystem.Meets (FlushesValid · ·) session [.removeTorrents [0, 1],
          .torrentDeleted 0, .metadataReceived 1 90 true, .torrentFinished 1,
          .cacheFlushed 1])) = true := by
    decide +kernel
  obtain ⟨session, before, holds⟩ := (Option.any_eq_true _ _).mp runs
  simp only [Bool.and_eq_true, decide_eq_true_eq, beq_iff_eq] at holds
  obtain ⟨⟨⟨someFiles, found⟩, isSome⟩, valid⟩ := holds
  obtain ⟨last, run⟩ := Option.isSome_iff_exists.mp isSome
  have someFiles : session.toBeRemoved [0, 1] ≠ [] := by simpa using someFiles
  have owes : 0 < SessionTorrent.owes 0
      { infoHash := 2, state := 0, userdata := { dnContexts := [⟨0, 2, 0, "", false⟩] } } := by
    decide
  obtain ⟨⟨after, step, marked, -⟩, neverComplete⟩ := leftOut_neverComplete (by decide +kernel)
    before valid run someFiles (by decide) found rfl rfl rfl owes (by decide)
  exact ⟨session, after, last, before, step, marked, run, neverComplete _ _ _ rfl⟩

end TorrentSession

end SiriusDrive
