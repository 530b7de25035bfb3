import SiriusDrive.RcptSyncronizer

/-! # The retry timer of a synchronization

Every request for receipts starts a timer that repeats it. The callback starts the
timer of the next repetition and then cancels it, so a second loss is final.
-/

namespace SiriusDrive

namespace RcptSyncronizer

/-- Each channel in synchronization waits for its timer. -/
def AllRetry (syncronizer : RcptSyncronizer) : Prop :=
  ∀ channelId channelSyncInfo,
    syncronizer.syncChannelMap[(channelId : ChannelId)]? = some channelSyncInfo →
    channelSyncInfo.syncTimeoutTimer = .pending

variable {syncronizer : RcptSyncronizer}

theorem AllRetry.of_map {after : RcptSyncronizer} (all : syncronizer.AllRetry)
    (same : after.syncChannelMap = syncronizer.syncChannelMap) : after.AllRetry := by
  unfold AllRetry
  rw [same]
  exact all

theorem AllRetry.requestOpinons (all : syncronizer.AllRetry) (channelId : ChannelId)
    (channelSyncInfo : ChannelSyncInfo) :
    (syncronizer.requestOpinons channelId channelSyncInfo).AllRetry := by
  intro other info present
  rw [getElem?_requestOpinons] at present
  split_ifs at present with isOwn
  · obtain rfl := Option.some.inj present
    rfl
  · exact all other info present

theorem AllRetry.startSync (all : syncronizer.AllRetry) (channelId : ChannelId) (drive : Key)
    (consensusThreshould : Nat) :
    (syncronizer.startSync channelId drive consensusThreshould).AllRetry := by
  unfold RcptSyncronizer.startSync
  split
  · exact all.requestOpinons _ _
  · exact all.requestOpinons _ _

theorem AllRetry.accpeptOpinion (all : syncronizer.AllRetry) (channelId : ChannelId)
    (replicatorKey : ReplicatorKey) : (syncronizer.accpeptOpinion channelId replicatorKey).AllRetry := by
  unfold RcptSyncronizer.accpeptOpinion
  cases found : syncronizer.syncChannelMap[channelId]? with
  | none => exact all
  | some channelSyncInfo =>
      have pending := all channelId channelSyncInfo found
      simp only
      split_ifs with complete
      · intro other info present
        simp only [Std.TreeMap.getElem?_erase_eq] at present
        split_ifs at present with isOwn
        exact all other info present
      · intro other info present
        simp only [Std.TreeMap.getElem?_insert_eq] at present
        split_ifs at present with isOwn
        · obtain rfl := Option.some.inj present
          exact pending
        · exact all other info present

theorem not_allRetry_syncTimeout (channelId : ChannelId) (channelSyncInfo : ChannelSyncInfo) :
    ¬ (syncronizer.syncTimeout channelId channelSyncInfo).AllRetry := by
  intro all
  have present : (syncronizer.syncTimeout channelId channelSyncInfo).syncChannelMap[channelId]? =
      some { channelSyncInfo with
        syncTimeoutTimer := channelSyncInfo.syncTimeoutTimer.cancel } := by
    simp only [RcptSyncronizer.syncTimeout, Std.TreeMap.getElem?_insert_eq, if_true]
  have pending := all channelId _ present
  simp at pending

/-- The timer of a channel in synchronization fires. -/
def Expires (syncronizer : RcptSyncronizer) (event : SyncEvent) : Prop :=
  ∃ channelId channelSyncInfo, event = .syncTimeout channelId ∧
    syncronizer.syncChannelMap[channelId]? = some channelSyncInfo

theorem AllRetry.step (all : syncronizer.AllRetry) {event : SyncEvent} {after : RcptSyncronizer}
    (keeps : ¬ syncronizer.Expires event) (step : syncSystem.step syncronizer event = some after) :
    after.AllRetry := by
  cases event with
  | startSync channelId drive consensusThreshould =>
      obtain rfl := Option.some.inj step
      exact all.startSync channelId drive consensusThreshould
  | accpeptOpinion channelId replicatorKey =>
      obtain rfl := Option.some.inj step
      exact all.accpeptOpinion channelId replicatorKey
  | syncTimeout channelId =>
      simp only [syncSystem] at step
      split at step
      · rename_i channelSyncInfo found
        exact absurd ⟨channelId, channelSyncInfo, rfl, found⟩ keeps
      · simp at step
  | setAllReplicators drive replicators =>
      obtain rfl := Option.some.inj step
      exact all.of_map rfl

end RcptSyncronizer

/-- In a run of the synchronizer every channel in synchronization waits for its retry timer
    exactly as long as no such timer has expired. -/
theorem channels_wait_for_retry_iff (replicatorKey : ReplicatorKey)
    (allReplicators : Std.TreeMap Key (List ReplicatorKey)) (events : List SyncEvent) :
    syncSystem.Always RcptSyncronizer.AllRetry { replicatorKey, allReplicators } events ↔
      syncSystem.Meets (fun syncronizer event => ¬ syncronizer.Expires event)
        { replicatorKey, allReplicators } events := by
  have free (syncronizer : RcptSyncronizer) (events : List SyncEvent) :
      syncSystem.Meets (fun _ _ => True) syncronizer events := by
    apply Transition.meets_of_forall (P := fun _ => True)
    intro event _
    trivial
  apply Transition.always_iff_meets (E := fun _ _ => True) (I := RcptSyncronizer.AllRetry)
  · exact fun _ all => all
  · intro syncronizer event after all _ keeps step
    exact all.step keeps step
  · intro syncronizer event all _ expires
    obtain ⟨channelId, channelSyncInfo, rfl, found⟩ := not_not.mp expires
    refine ⟨syncronizer.syncTimeout channelId channelSyncInfo, ?_,
      RcptSyncronizer.not_allRetry_syncTimeout channelId channelSyncInfo⟩
    simp only [syncSystem, found, all channelId channelSyncInfo found, if_true]
  · intro channelId channelSyncInfo present
    simp at present
  · exact free _ events

/-- The first retry is the last one. -/
theorem second_retry_is_cancelled :
    ¬ syncSystem.Always RcptSyncronizer.AllRetry
      { replicatorKey := 1, allReplicators := (∅ : Std.TreeMap Key (List ReplicatorKey)).insert 7 [2] }
      [.startSync 4 7 1, .syncTimeout 4] := by
  rintro ⟨-, started⟩
  obtain ⟨-, expired⟩ := started _ rfl
  exact RcptSyncronizer.not_allRetry_syncTimeout _ _ (expired _ rfl)

end SiriusDrive
