import SiriusDrive.Lib.MapLookup
import SiriusDrive.Lib.Transition
import SiriusDrive.Types

/-! # Synchronizing the receipts of a new channel

A replicator that joins a download channel asks the other replicators of the
drive for the receipts they have, until enough of them have answered. The
channels in synchronization are kept in an ordered map.
-/

namespace SiriusDrive

structure ChannelSyncInfo where
  /-- The public key of the drive. -/
  drive : Key
  responseSet : Std.TreeSet ReplicatorKey := ∅
  consensusThreshould : Nat
  syncTimeoutTimer : Timer := .unset

/-- A "get_dn_rcpts" message. -/
structure DnRcptsRequest where
  receiver : ReplicatorKey
  replicatorKey : ReplicatorKey
  driveKey : Key
  channelId : ChannelId
  deriving Repr, DecidableEq

structure RcptSyncronizer where
  replicatorKey : ReplicatorKey
  syncChannelMap : Std.TreeMap ChannelId ChannelSyncInfo := ∅
  /-- `getAllReplicators` of the drives. -/
  allReplicators : Std.TreeMap Key (List ReplicatorKey) := ∅
  /-- All requests so far. -/
  sent : List DnRcptsRequest := []

namespace RcptSyncronizer

variable (syncronizer : RcptSyncronizer)

/-- `requestOpinons`, for an entry of the map. -/
def requestOpinons (channelId : ChannelId) (channelSyncInfo : ChannelSyncInfo) : RcptSyncronizer :=
  let replicators := (syncronizer.allReplicators[channelSyncInfo.drive]?).getD []
  { syncronizer with
    sent := syncronizer.sent ++ replicators.map fun receiver =>
      { receiver, replicatorKey := syncronizer.replicatorKey, driveKey := channelSyncInfo.drive,
        channelId }
    syncChannelMap := syncronizer.syncChannelMap.insert channelId
      { channelSyncInfo with syncTimeoutTimer := .pending } }

/-- `startSync`. The entry from `lower_bound` is taken whatever its key is. -/
def startSync (channelId : ChannelId) (drive : Key) (consensusThreshould : Nat) :
    RcptSyncronizer :=
  match syncronizer.syncChannelMap.lowerBound channelId with
  | some (found, channelSyncInfo) => syncronizer.requestOpinons found channelSyncInfo
  | none => syncronizer.requestOpinons channelId { drive, consensusThreshould }

/-- The callback of the timer, which cancels the timer it has just started. -/
def syncTimeout (channelId : ChannelId) (channelSyncInfo : ChannelSyncInfo) : RcptSyncronizer :=
  let requested := syncronizer.requestOpinons channelId channelSyncInfo
  { requested with
    syncChannelMap := requested.syncChannelMap.insert channelId
      { channelSyncInfo with syncTimeoutTimer := channelSyncInfo.syncTimeoutTimer.cancel } }

def accpeptOpinion (channelId : ChannelId) (replicatorKey : ReplicatorKey) : RcptSyncronizer :=
  match syncronizer.syncChannelMap[channelId]? with
  | none => syncronizer
  | some channelSyncInfo =>
      let responseSet := channelSyncInfo.responseSet.insert replicatorKey
      if responseSet.size ≥ channelSyncInfo.consensusThreshould then
        { syncronizer with syncChannelMap := syncronizer.syncChannelMap.erase channelId }
      else
        { syncronizer with
          syncChannelMap :=
            syncronizer.syncChannelMap.insert channelId { channelSyncInfo with responseSet } }

end RcptSyncronizer

/-! ## Runs -/

inductive SyncEvent where
  | startSync (channelId : ChannelId) (drive : Key) (consensusThreshould : Nat)
  | accpeptOpinion (channelId : ChannelId) (replicatorKey : ReplicatorKey)
  | syncTimeout (channelId : ChannelId)
  | setAllReplicators (drive : Key) (replicators : List ReplicatorKey)
  deriving Repr, DecidableEq

namespace SyncEvent

def channelId? : SyncEvent → Option ChannelId
  | .startSync channelId _ _ | .accpeptOpinion channelId _ | .syncTimeout channelId => some channelId
  | .setAllReplicators _ _ => none

end SyncEvent

/-- A synchronizer under its calls and timers. -/
def syncSystem : Transition RcptSyncronizer SyncEvent where
  step syncronizer
    | .startSync channelId drive consensusThreshould =>
        some (syncronizer.startSync channelId drive consensusThreshould)
    | .accpeptOpinion channelId replicatorKey =>
        some (syncronizer.accpeptOpinion channelId replicatorKey)
    | .syncTimeout channelId =>
        match syncronizer.syncChannelMap[channelId]? with
        | some channelSyncInfo =>
            if channelSyncInfo.syncTimeoutTimer = .pending then
              some (syncronizer.syncTimeout channelId channelSyncInfo)
            else none
        | none => none
    | .setAllReplicators drive replicators =>
        some { syncronizer with
          allReplicators := syncronizer.allReplicators.insert drive replicators }

namespace RcptSyncronizer

/-! ## One channel at a time -/

/-- Nothing but the entry of a channel is changed, and receipts are requested for
    this channel only. -/
structure OnlyFor (channelId : Option ChannelId) (before after : RcptSyncronizer) : Prop where
  others : ∀ other : ChannelId, some other ≠ channelId →
    after.syncChannelMap[other]? = before.syncChannelMap[other]?
  requests : ∃ requests, after.sent = before.sent ++ requests ∧
    ∀ request ∈ requests, some request.channelId = channelId

/-- After `startSync` the channel is in the map, with the drive and the threshold
    that are given or were there. -/
def Synchronizes (channelId : ChannelId) (drive : Key) (consensusThreshould : Nat)
    (before after : RcptSyncronizer) : Prop :=
  ∃ channelSyncInfo, after.syncChannelMap[channelId]? = some channelSyncInfo ∧
    ((channelSyncInfo.drive = drive ∧ channelSyncInfo.consensusThreshould = consensusThreshould) ∨
      ∃ earlier, before.syncChannelMap[channelId]? = some earlier ∧
        channelSyncInfo.drive = earlier.drive ∧
        channelSyncInfo.consensusThreshould = earlier.consensusThreshould)

/-- The channel is in synchronization already, or comes after all that are. -/
def FindsOwn (channelId : ChannelId) (syncronizer : RcptSyncronizer) : Prop :=
  (∃ channelSyncInfo, syncronizer.syncChannelMap[channelId]? = some channelSyncInfo) ∨
    ∀ other channelSyncInfo, syncronizer.syncChannelMap[other]? = some channelSyncInfo →
      other < channelId

variable {syncronizer : RcptSyncronizer} {channelId : ChannelId}

theorem onlyFor_insert (channelSyncInfo : ChannelSyncInfo) (requests : List DnRcptsRequest)
    (own : ∀ request ∈ requests, request.channelId = channelId) :
    OnlyFor (some channelId) syncronizer { syncronizer with
      syncChannelMap := syncronizer.syncChannelMap.insert channelId channelSyncInfo
      sent := syncronizer.sent ++ requests } := by
  refine ⟨?_, requests, rfl, ?_⟩
  · intro other apart
    simp only [Std.TreeMap.getElem?_insert_eq]
    rw [if_neg (fun same => apart (congrArg some same))]
  · intro request member
    exact congrArg some (own request member)

theorem onlyFor_requestOpinons (channelSyncInfo : ChannelSyncInfo) :
    OnlyFor (some channelId) syncronizer
      (syncronizer.requestOpinons channelId channelSyncInfo) := by
  unfold requestOpinons
  apply onlyFor_insert
  intro request member
  obtain ⟨receiver, -, rfl⟩ := List.mem_map.mp member
  rfl

variable (syncronizer channelId) in
theorem getElem?_requestOpinons (channelSyncInfo : ChannelSyncInfo) (other : ChannelId) :
    (syncronizer.requestOpinons channelId channelSyncInfo).syncChannelMap[other]? =
      if other = channelId then some { channelSyncInfo with syncTimeoutTimer := .pending }
      else syncronizer.syncChannelMap[other]? :=
  Std.TreeMap.getElem?_insert_eq _ _ _ _

theorem onlyFor_syncTimeout (channelSyncInfo : ChannelSyncInfo) :
    OnlyFor (some channelId) syncronizer (syncronizer.syncTimeout channelId channelSyncInfo) := by
  have requested : OnlyFor (some channelId) syncronizer
      (syncronizer.requestOpinons channelId channelSyncInfo) := onlyFor_requestOpinons channelSyncInfo
  refine ⟨?_, requested.requests⟩
  intro other apart
  unfold syncTimeout
  simp only [Std.TreeMap.getElem?_insert_eq]
  rw [if_neg (fun same => apart (congrArg some same))]
  exact requested.others other apart

theorem onlyFor_accpeptOpinion (replicatorKey : ReplicatorKey) :
    OnlyFor (some channelId) syncronizer (syncronizer.accpeptOpinion channelId replicatorKey) := by
  unfold accpeptOpinion
  cases syncronizer.syncChannelMap[channelId]? with
  | none => exact ⟨fun _ _ => rfl, [], (List.append_nil _).symm, by simp⟩
  | some channelSyncInfo =>
      simp only
      split
      · refine ⟨?_, [], (List.append_nil _).symm, by simp⟩
        intro other apart
        simp only [Std.TreeMap.getElem?_erase_eq]
        rw [if_neg (fun same => apart (congrArg some same))]
      · refine ⟨?_, [], (List.append_nil _).symm, by simp⟩
        intro other apart
        simp only [Std.TreeMap.getElem?_insert_eq]
        rw [if_neg (fun same => apart (congrArg some same))]

/-- `startSync` is right exactly if it finds the entry of the channel, or none. -/
theorem startSync_iff (drive : Key) (consensusThreshould : Nat) :
    (Synchronizes channelId drive consensusThreshould syncronizer
        (syncronizer.startSync channelId drive consensusThreshould) ∧
      OnlyFor (some channelId) syncronizer
        (syncronizer.startSync channelId drive consensusThreshould)) ↔
    syncronizer.FindsOwn channelId := by
  unfold startSync
  cases found : syncronizer.syncChannelMap.lowerBound channelId with
  | none =>
      have below := Std.TreeMap.lowerBound_eq_none.mp found
      have inserted := syncronizer.getElem?_requestOpinons channelId { drive, consensusThreshould } channelId
      rw [if_pos rfl] at inserted
      refine iff_of_true ⟨⟨_, inserted, .inl ⟨rfl, rfl⟩⟩, onlyFor_requestOpinons _⟩ (.inr ?_)
      intro other channelSyncInfo present
      exact compareOfLessAndEq_eq_lt.mp (below other channelSyncInfo present)
  | some entry =>
      obtain ⟨key, channelSyncInfo⟩ := entry
      have present := Std.TreeMap.getElem?_of_lowerBound found
      simp only
      cases own : syncronizer.syncChannelMap[channelId]? with
      | some earlier =>
          rw [Std.TreeMap.lowerBound_of_getElem? own] at found
          obtain ⟨rfl, rfl⟩ := Prod.mk.inj (Option.some.inj found)
          have inserted := syncronizer.getElem?_requestOpinons channelId earlier channelId
          rw [if_pos rfl] at inserted
          exact iff_of_true ⟨⟨_, inserted, .inr ⟨earlier, own, rfl, rfl⟩⟩, onlyFor_requestOpinons _⟩
            (.inl ⟨earlier, own⟩)
      | none =>
          have apart : channelId ≠ key := by
            rintro rfl
            rw [own] at present
            simp at present
          apply iff_of_false
          · rintro ⟨⟨info, isInfo, -⟩, -⟩
            rw [getElem?_requestOpinons, if_neg apart, own] at isInfo
            simp at isInfo
          · rintro (⟨info, isInfo⟩ | below)
            · rw [own] at isInfo
              simp at isInfo
            · have none_ : syncronizer.syncChannelMap.lowerBound channelId = none := by
                apply Std.TreeMap.lowerBound_eq_none.mpr
                intro other info isInfo
                exact compareOfLessAndEq_eq_lt.mpr (below other info isInfo)
              rw [none_] at found
              simp at found

end RcptSyncronizer

/-- What a step of the synchronizer should do. -/
def SyncEvent.Right (before : RcptSyncronizer) (event : SyncEvent) (after : RcptSyncronizer) :
    Prop :=
  (∀ channelId drive consensusThreshould,
      event = .startSync channelId drive consensusThreshould →
      RcptSyncronizer.Synchronizes channelId drive consensusThreshould before after) ∧
    RcptSyncronizer.OnlyFor event.channelId? before after

/-- In a run of the synchronizer every call is for its own channel only, and starts
    the synchronization it should start, exactly if each `startSync` is for a channel
    which is in the map or greater than all channels in the map. -/
theorem synchronizes_own_channel_iff (syncronizer : RcptSyncronizer) (events : List SyncEvent) :
    syncSystem.Meets (fun before event => ∀ after, syncSystem.step before event = some after →
        event.Right before after) syncronizer events ↔
      syncSystem.Meets (fun before event => ∀ channelId drive consensusThreshould,
        event = .startSync channelId drive consensusThreshould → before.FindsOwn channelId)
        syncronizer events := by
  apply Transition.meets_iff_of_invariant (I := fun _ => True) _ _ events trivial
  · intro before event _
    constructor
    · rintro right channelId drive consensusThreshould rfl
      obtain ⟨starts, only⟩ := right _ rfl
      exact (RcptSyncronizer.startSync_iff drive consensusThreshould).mp
        ⟨starts channelId drive consensusThreshould rfl, only⟩
    · intro finds after step
      cases event with
      | startSync channelId drive consensusThreshould =>
          obtain rfl := Option.some.inj step
          obtain ⟨starts, only⟩ := (RcptSyncronizer.startSync_iff drive consensusThreshould).mpr
            (finds channelId drive consensusThreshould rfl)
          refine ⟨?_, only⟩
          intro _ _ _ same
          obtain ⟨rfl, rfl, rfl⟩ := SyncEvent.startSync.inj same
          exact starts
      | accpeptOpinion channelId replicatorKey =>
          obtain rfl := Option.some.inj step
          refine ⟨?_, RcptSyncronizer.onlyFor_accpeptOpinion replicatorKey⟩
          intro _ _ _ same
          cases same
      | syncTimeout channelId =>
          constructor
          · intro _ _ _ same
            cases same
          · simp only [syncSystem] at step
            split at step
            · split at step
              · obtain rfl := Option.some.inj step
                exact RcptSyncronizer.onlyFor_syncTimeout _
              · simp at step
            · simp at step
      | setAllReplicators drive replicators =>
          obtain rfl := Option.some.inj step
          refine ⟨?_, fun _ _ => rfl, [], (List.append_nil _).symm, by simp⟩
          intro _ _ _ same
          cases same
  · intro before event after _ _ _
    trivial

/-- A channel that is joined while a greater one is in synchronization is not
    synchronized; the receipts of the other channel are requested once more. -/
theorem smaller_channel_not_synchronized :
    let start : RcptSyncronizer := { replicatorKey := 1, allReplicators :=
      (∅ : Std.TreeMap Key (List ReplicatorKey)).insert 7 [1, 2] }
    let joined := (start.startSync 5 7 3).startSync 4 7 3
    joined.syncChannelMap[(4 : ChannelId)]?.isNone = true ∧
      joined.sent.map (·.channelId) = [5, 5, 5, 5] := by
  decide +kernel

end SiriusDrive
