import SiriusDrive.DownloadOpinions

/-! # Sharing the own opinion

The own opinion about an event is shared again and again until the approval is published.
An approval that has failed takes all opinions away, the own one too, while the timer that
shares it goes on. The opinions come back from outside, and if the timer is faster the
assertions of `shareDownloadOpinion` fail.
-/

namespace SiriusDrive

namespace Replicator

/-- The events of channels whose own opinion is away. -/
abbrev AwayOpinions := List (ChannelId × Hash256)

/-- A failed approval takes the own opinion away, and it comes back when it is formed or received
    again. -/
def recordAway (replicator : Replicator) (away : AwayOpinions) : ReplicatorEvent → AwayOpinions
  | .approvalFailedInvalidOpinions eventHash channelId =>
      if (replicator.findEntry channelId eventHash).any (!·.approveTransactionReceived) then
        (channelId, eventHash) :: away
      else away
  | .downloadOpinionReceived _ anOpinion =>
      if anOpinion.opinions.map (·.replicatorKey) = [replicator.publicKey] then
        away.filter (· ≠ (anOpinion.downloadChannelId, anOpinion.blockHash))
      else away
  | .initiateDownloadApproval _ blockHash channelId => away.filter (· ≠ (channelId, blockHash))
  | .closeDriveChannels _ blockHash driveKey =>
      away.filter fun entry =>
        !(entry.2 = blockHash && (replicator.channelsOfDrive driveKey).contains entry.1)
  | _ => away

def awaySystem : Transition (Replicator × AwayOpinions) ReplicatorEvent where
  step state event :=
    (replicatorSystem.step state.1 event).map (·, state.1.recordAway state.2 event)

/-- The timer of an event does not expire while the own opinion is away. -/
def SharesInTime (state : Replicator × AwayOpinions) : ReplicatorEvent → Prop
  | .opinionShareTimerExpired channelId eventHash =>
      ∀ value, state.1.findEntry channelId eventHash = some value →
        value.opinionShareTimer = .pending → (channelId, eventHash) ∉ state.2
  | _ => True

/-- The own opinion about an event that is being shared is there unless it is away, and nothing
    is shared by a replicator that is stopped. -/
structure SharesOwn (replicator : Replicator) (away : AwayOpinions) : Prop where
  own : ∀ channelId eventHash value, replicator.findEntry channelId eventHash = some value →
    value.opinionShareTimer = .pending → replicator.isDestructing = false ∧
      ((value.opinions.map[replicator.publicKey]?).isSome = true ↔ (channelId, eventHash) ∉ away)
  unbroken : replicator.fault = none

variable {replicator after : Replicator} {away : AwayOpinions}

/-- Entries that are being shared were shared before, with the own opinion or without it. -/
theorem SharesOwn.of_entries (shares : replicator.SharesOwn away)
    (publicKey : after.publicKey = replicator.publicKey) (unbroken : after.fault = replicator.fault)
    (destructing : after.isDestructing = replicator.isDestructing)
    (entries : ∀ channelId eventHash value, after.findEntry channelId eventHash = some value →
      value.opinionShareTimer = .pending → ∃ before,
        replicator.findEntry channelId eventHash = some before ∧
        before.opinionShareTimer = .pending ∧ value.opinions = before.opinions) :
    after.SharesOwn away where
  own := by
    intro channelId eventHash value isEntry pending
    obtain ⟨before, isBefore, wasPending, same⟩ := entries channelId eventHash value isEntry pending
    rw [publicKey, same, destructing]
    exact shares.own channelId eventHash before isBefore wasPending
  unbroken := unbroken.trans shares.unbroken

theorem SharesOwn.of_stopped (shares : replicator.SharesOwn away)
    (stopped : replicator.isDestructing = true) (later : AwayOpinions) :
    replicator.SharesOwn later where
  own := by
    intro channelId eventHash value isEntry pending
    have going := (shares.own channelId eventHash value isEntry pending).1
    simp [stopped] at going
  unbroken := shares.unbroken

/-- Whether the own opinion about an event is away does not matter if it has no entry. -/
theorem SharesOwn.of_none {later : AwayOpinions} (shares : replicator.SharesOwn away)
    {channelId : ChannelId} {eventHash : Hash256}
    (others : ∀ entry, entry ≠ (channelId, eventHash) → (entry ∈ later ↔ entry ∈ away))
    (noEntry : replicator.findEntry channelId eventHash = none) : replicator.SharesOwn later := by
  refine ⟨?_, shares.unbroken⟩
  intro otherId otherHash other isEntry pending
  have apart : (otherId, otherHash) ≠ (channelId, eventHash) := by
    rintro ⟨⟩
    simp [noEntry] at isEntry
  rw [others _ apart]
  exact shares.own otherId otherHash other isEntry pending

/-- The entry of one event is changed, and whether its own opinion is away. -/
theorem SharesOwn.setEntry {later : AwayOpinions} (shares : replicator.SharesOwn away)
    {channelId : ChannelId} {eventHash : Hash256} {value : DownloadOpinionMapValue}
    (others : ∀ entry, entry ≠ (channelId, eventHash) → (entry ∈ later ↔ entry ∈ away))
    (own : value.opinionShareTimer = .pending → replicator.isDestructing = false ∧
      ((value.opinions.map[replicator.publicKey]?).isSome = true ↔
        (channelId, eventHash) ∉ later)) :
    (replicator.setEntry channelId eventHash value).SharesOwn later := by
  cases isChannel : replicator.dnChannelMap[channelId]? with
  | none =>
      have same : replicator.setEntry channelId eventHash value = replicator := by
        simp only [Replicator.setEntry, isChannel]
      rw [same]
      exact shares.of_none others (by rw [findEntry, isChannel, Option.bind_none])
  | some channel =>
      have unchanged : (replicator.setEntry channelId eventHash value).publicKey =
          replicator.publicKey ∧
          (replicator.setEntry channelId eventHash value).isDestructing =
            replicator.isDestructing ∧
          (replicator.setEntry channelId eventHash value).fault = replicator.fault := by
        simp only [Replicator.setEntry, isChannel]
        exact ⟨rfl, rfl, rfl⟩
      refine ⟨?_, unchanged.2.2.trans shares.unbroken⟩
      intro otherId otherHash other isEntry pending
      rw [findEntry_setEntry isChannel] at isEntry
      rw [unchanged.1, unchanged.2.1]
      split at isEntry
      · rename_i same
        obtain ⟨rfl, rfl⟩ := same
        obtain rfl := Option.some.inj isEntry
        exact own pending
      · rename_i apart
        have differs : (otherId, otherHash) ≠ (channelId, eventHash) := by
          rintro ⟨⟩
          exact apart ⟨rfl, rfl⟩
        rw [others _ differs]
        exact shares.own otherId otherHash other isEntry pending

theorem SharesOwn.removeOutdated (shares : replicator.SharesOwn away) (now : Int) :
    (replicator.removeOutdated now).SharesOwn away := by
  refine shares.of_entries rfl rfl rfl ?_
  intro channelId eventHash value isEntry pending
  exact ⟨value, findEntry_of_removeOutdated isEntry, pending, rfl⟩

theorem mem_filter_ne {entry removed : ChannelId × Hash256} (apart : entry ≠ removed) :
    entry ∈ away.filter (· ≠ removed) ↔ entry ∈ away := by
  rw [List.mem_filter]
  simp [apart]

def awayAfter (replicator : Replicator) (away : AwayOpinions) (channelId : ChannelId)
    (blockHash : Hash256) (opinion : DownloadOpinion) : AwayOpinions :=
  if opinion.replicatorKey = replicator.publicKey then away.filter (· ≠ (channelId, blockHash))
  else away

theorem mem_awayAfter {channelId : ChannelId} {blockHash : Hash256} {opinion : DownloadOpinion}
    {entry : ChannelId × Hash256} (apart : entry ≠ (channelId, blockHash)) :
    entry ∈ replicator.awayAfter away channelId blockHash opinion ↔ entry ∈ away := by
  unfold awayAfter
  split
  · exact mem_filter_ne apart
  · exact Iff.rfl

theorem publicKey_addOpinion (replicator : Replicator) (now : Int) (blockHash : Hash256)
    (channelId : ChannelId) (opinion : DownloadOpinion) :
    (replicator.addOpinion now blockHash channelId opinion).publicKey = replicator.publicKey := by
  unfold Replicator.addOpinion
  cases isChannel : (replicator.removeOutdated now).dnChannelMap[channelId]? with
  | none =>
      simp only [isChannel]
      rfl
  | some channel =>
      simp only [Replicator.setEntry, isChannel]
      rfl

theorem isSome_collect (channel : OpinionChannel) (value : DownloadOpinionMapValue)
    (opinion : DownloadOpinion) :
    ((replicator.collect channel value opinion).opinions.map[opinion.replicatorKey]?).isSome =
      true := by
  simp only [collect, DownloadOpinionSet.insert, Std.TreeMap.getElem?_insert_eq, if_true]
  rfl

theorem SharesOwn.addOpinion (shares : replicator.SharesOwn away) (now : Int)
    (blockHash : Hash256) (channelId : ChannelId) (opinion : DownloadOpinion) :
    (replicator.addOpinion now blockHash channelId opinion).SharesOwn
      (replicator.awayAfter away channelId blockHash opinion) := by
  have purged := shares.removeOutdated now
  unfold Replicator.addOpinion
  cases isChannel : (replicator.removeOutdated now).dnChannelMap[channelId]? with
  | none =>
      simp only [isChannel]
      exact purged.of_none (fun entry apart => mem_awayAfter apart)
        (by rw [findEntry, isChannel, Option.bind_none])
  | some channel =>
      simp only [isChannel]
      refine purged.setEntry (fun entry apart => mem_awayAfter apart) ?_
      intro pending
      cases isEntry : channel.downloadOpinionMap[blockHash]? with
      | none => simp [isEntry, collect] at pending
      | some value =>
          rw [isEntry] at pending
          rw [Option.getD_some] at pending ⊢
          obtain ⟨going, before⟩ := purged.own channelId blockHash value
            ((findEntry_of_channel isChannel blockHash).trans isEntry) pending
          refine ⟨going, ?_⟩
          have sameKey : (replicator.removeOutdated now).publicKey = replicator.publicKey := rfl
          rw [sameKey] at before ⊢
          simp only [collect, DownloadOpinionSet.insert, Std.TreeMap.getElem?_insert_eq]
          unfold awayAfter
          by_cases isOwn : opinion.replicatorKey = replicator.publicKey
          · rw [if_pos isOwn, if_pos isOwn.symm]
            simp
          · rw [if_neg isOwn, if_neg (Ne.symm isOwn)]
            exact before

theorem SharesOwn.shareDownloadOpinion (shares : replicator.SharesOwn away) {channelId : ChannelId}
    {eventHash : Hash256} {value : DownloadOpinionMapValue}
    (isEntry : replicator.findEntry channelId eventHash = some value)
    (own : (value.opinions.map[replicator.publicKey]?).isSome = true)
    (back : (channelId, eventHash) ∉ away) :
    (replicator.shareDownloadOpinion channelId eventHash).SharesOwn away := by
  obtain ⟨channel, isChannel, isValue⟩ := channel_of_entry isEntry
  obtain ⟨myOpinion, isOpinion⟩ := Option.isSome_iff_exists.mp own
  unfold Replicator.shareDownloadOpinion
  simp only [isChannel, isValue, isOpinion]
  apply @SharesOwn.setEntry _ away
  · exact shares.of_entries rfl rfl rfl fun _ _ value isEntry pending => ⟨value, isEntry, pending, rfl⟩
  · exact fun _ _ => Iff.rfl
  · intro pending
    refine ⟨?_, iff_of_true own back⟩
    simp only [startTimer] at pending
    split at pending
    · cases pending
    · rename_i going
      simpa using going

theorem shareDownloadOpinion_fails {channelId : ChannelId} {eventHash : Hash256}
    {value : DownloadOpinionMapValue}
    (isEntry : replicator.findEntry channelId eventHash = some value)
    (noOwn : ¬ (value.opinions.map[replicator.publicKey]?).isSome = true) :
    (replicator.shareDownloadOpinion channelId eventHash).fault ≠ none := by
  obtain ⟨channel, isChannel, isValue⟩ := channel_of_entry isEntry
  have noOpinion : value.opinions.map[replicator.publicKey]? = none := by simpa using noOwn
  unfold Replicator.shareDownloadOpinion
  simp only [isChannel, isValue, noOpinion]
  simp

theorem SharesOwn.doInitiate (shares : replicator.SharesOwn away) (now : Int) (blockHash : Hash256)
    (channelId : ChannelId) :
    (replicator.doInitiateDownloadApprovalTransactionInfo now blockHash channelId).SharesOwn
      (away.filter (· ≠ (channelId, blockHash))) := by
  unfold doInitiateDownloadApprovalTransactionInfo
  cases isChannel : replicator.dnChannelMap[channelId]? with
  | none =>
      simp only
      exact shares.of_none (fun entry apart => mem_filter_ne apart)
        (by rw [findEntry, isChannel, Option.bind_none])
  | some channel =>
      simp only
      have added := shares.addOpinion now blockHash channelId (replicator.createMyOpinion channel)
      have isOwn : (replicator.createMyOpinion channel).replicatorKey = replicator.publicKey := rfl
      rw [awayAfter, if_pos isOwn] at added
      obtain ⟨left, isLeft⟩ : ∃ left,
          (replicator.removeOutdated now).dnChannelMap[channelId]? = some left := by
        rw [← Option.isSome_iff_exists, isSome_removeOutdated, isChannel]
        rfl
      have isEntry := findEntry_addOpinion isLeft blockHash (replicator.createMyOpinion channel)
        channelId blockHash
      rw [if_pos ⟨rfl, rfl⟩] at isEntry
      refine added.shareDownloadOpinion isEntry ?_ (by simp)
      rw [publicKey_addOpinion, ← isOwn]
      exact isSome_collect _ _ _

theorem filter_closing (channelIds : List ChannelId) (blockHash : Hash256) (channelId : ChannelId)
    (away : AwayOpinions) :
    ((away.filter (· ≠ (channelId, blockHash))).filter fun entry =>
        !(entry.2 = blockHash && channelIds.contains entry.1)) =
      away.filter fun entry =>
        !(entry.2 = blockHash && (channelId :: channelIds).contains entry.1) := by
  rw [List.filter_filter]
  congr 1
  funext ⟨otherId, otherHash⟩
  by_cases sameHash : otherHash = blockHash
  · by_cases sameChannel : otherId = channelId
    · simp [sameHash, sameChannel]
    · simp [sameHash, sameChannel]
  · simp [sameHash]

theorem SharesOwn.closeDriveChannels (shares : replicator.SharesOwn away) (now : Int)
    (blockHash : Hash256) (driveKey : Key) :
    (replicator.closeDriveChannels now blockHash driveKey).SharesOwn
      (away.filter fun entry =>
        !(entry.2 = blockHash && (replicator.channelsOfDrive driveKey).contains entry.1)) := by
  unfold Replicator.closeDriveChannels
  generalize replicator.channelsOfDrive driveKey = channelIds
  induction channelIds generalizing replicator away with
  | nil => simpa using shares
  | cons channelId channelIds ih =>
      rw [List.foldl_cons, ← filter_closing]
      exact ih (shares.doInitiate now blockHash channelId)

theorem SharesOwn.onApprovalFailed (shares : replicator.SharesOwn away) (eventHash : Hash256)
    (channelId : ChannelId) :
    (replicator.onApprovalFailed eventHash channelId).SharesOwn
      (replicator.recordAway away (.approvalFailedInvalidOpinions eventHash channelId)) := by
  have others (entry : ChannelId × Hash256) (apart : entry ≠ (channelId, eventHash)) :
      entry ∈ (channelId, eventHash) :: away ↔ entry ∈ away := by
    simp [apart]
  have noEntry (isNone : replicator.findEntry channelId eventHash = none) :
      replicator.recordAway away (.approvalFailedInvalidOpinions eventHash channelId) = away := by
    simp only [recordAway, isNone, Option.any_none, Bool.false_eq_true, if_false]
  unfold Replicator.onApprovalFailed
  by_cases destructing : replicator.isDestructing = true
  · rw [if_pos destructing]
    exact shares.of_stopped destructing _
  · rw [if_neg destructing]
    split
    · rename_i isNone
      rw [noEntry isNone]
      exact shares
    · rename_i value isEntry
      have record : replicator.recordAway away (.approvalFailedInvalidOpinions eventHash channelId) =
          if value.approveTransactionReceived then away else (channelId, eventHash) :: away := by
        simp only [recordAway, isEntry, Option.any_some]
        cases value.approveTransactionReceived <;> rfl
      rw [record]
      split
      · exact shares
      · apply @SharesOwn.setEntry _ away
        · exact shares.of_entries rfl rfl rfl fun _ _ value isEntry pending =>
            ⟨value, isEntry, pending, rfl⟩
        · exact others
        · intro _
          refine ⟨by simpa using destructing, ?_⟩
          simp [DownloadOpinionSet.empty]

theorem SharesOwn.eraseChannel (shares : replicator.SharesOwn away) (channelId : ChannelId) :
    SharesOwn { replicator with dnChannelMap := replicator.dnChannelMap.erase channelId } away := by
  refine shares.of_entries rfl rfl rfl ?_
  intro otherId otherHash value isEntry pending
  refine ⟨value, ?_, pending, rfl⟩
  unfold findEntry at isEntry ⊢
  rw [Std.TreeMap.getElem?_erase_eq] at isEntry
  split at isEntry
  · cases isEntry
  · exact isEntry

theorem SharesOwn.onApprovalPublished (shares : replicator.SharesOwn away) (eventHash : Hash256)
    (channelId : ChannelId) (channelMustBeClosed : Bool) :
    (replicator.onApprovalPublished eventHash channelId channelMustBeClosed).SharesOwn away := by
  unfold Replicator.onApprovalPublished
  split
  · exact shares
  · split
    · exact shares.eraseChannel channelId
    · split
      · exact shares
      · apply shares.setEntry (fun _ _ => Iff.rfl)
        intro pending
        cases pending

theorem SharesOwn.addChannelInfo (shares : replicator.SharesOwn away) (now : Int)
    (channelId : ChannelId) (prepaidDownloadSize : Nat) (driveKey : Key)
    (replicatorsList : List ReplicatorKey) (clients : List ClientKey) (willBeSyncronized : Bool) :
    (replicator.addChannelInfo now channelId prepaidDownloadSize driveKey replicatorsList clients
      willBeSyncronized).SharesOwn away := by
  unfold Replicator.addChannelInfo
  split
  · exact shares
  · split
    · exact shares
    · refine shares.of_entries rfl rfl rfl ?_
      intro otherId otherHash value isEntry pending
      unfold findEntry at isEntry ⊢
      simp only [Std.TreeMap.getElem?_insert_eq] at isEntry
      split at isEntry
      · exfalso
        simp only [Option.bind_some] at isEntry
        cases backup : replicator.dnChannelMapBackup[channelId]? with
        | none => simp [backup] at isEntry
        | some channel =>
            simp only [backup, Std.TreeMap.getElem?_map] at isEntry
            obtain ⟨saved, -, rfl⟩ := Option.map_eq_some_iff.mp isEntry
            cases pending
      · exact ⟨value, isEntry, pending, rfl⟩

theorem SharesOwn.removeChannelInfo (shares : replicator.SharesOwn away) (channelId : ChannelId) :
    (replicator.removeChannelInfo channelId).SharesOwn away := by
  unfold Replicator.removeChannelInfo
  split
  · exact shares
  · exact shares.eraseChannel channelId

theorem SharesOwn.setChannel (shares : replicator.SharesOwn away) {channelId : ChannelId}
    {channel later : OpinionChannel} (isChannel : replicator.dnChannelMap[channelId]? = some channel)
    (same : later.downloadOpinionMap = channel.downloadOpinionMap) :
    (replicator.setChannel channelId later).SharesOwn away := by
  refine shares.of_entries rfl rfl rfl ?_
  intro otherId otherHash value isEntry pending
  refine ⟨value, ?_, pending, rfl⟩
  unfold findEntry Replicator.setChannel at isEntry
  simp only [Std.TreeMap.getElem?_insert_eq] at isEntry
  split at isEntry
  · rename_i isSame
    rw [isSame, findEntry_of_channel isChannel, ← same]
    exact isEntry
  · exact isEntry

theorem SharesOwn.setChannelShard (shares : replicator.SharesOwn away) (channelId : ChannelId)
    (replicatorKeys : List ReplicatorKey) :
    (replicator.setChannelShard channelId replicatorKeys).SharesOwn away := by
  unfold Replicator.setChannelShard
  split
  · exact shares
  · rename_i channel isChannel
    exact shares.setChannel isChannel rfl

theorem SharesOwn.receiptsAccepted (shares : replicator.SharesOwn away) (channelId : ChannelId)
    (uploadRequests : Std.TreeMap ReplicatorKey ReplicatorUploadRequestInfo) :
    (replicator.receiptsAccepted channelId uploadRequests).SharesOwn away := by
  unfold Replicator.receiptsAccepted
  split
  · exact shares
  · rename_i channel isChannel
    exact shares.setChannel isChannel rfl

theorem SharesOwn.stop (shares : replicator.SharesOwn away) : replicator.stop.SharesOwn away where
  own := by
    intro channelId eventHash value isEntry pending
    exfalso
    unfold findEntry Replicator.stop at isEntry
    simp only [Std.TreeMap.getElem?_map, Option.bind_map] at isEntry
    obtain ⟨channel, -, isValue⟩ := Option.bind_eq_some_iff.mp isEntry
    simp only [Function.comp, Std.TreeMap.getElem?_map] at isValue
    obtain ⟨before, -, rfl⟩ := Option.map_eq_some_iff.mp isValue
    cases pending
  unbroken := shares.unbroken

theorem SharesOwn.onDownloadOpinionReceived (shares : replicator.SharesOwn away) (now : Int)
    (anOpinion : DownloadApprovalTransactionInfo) :
    (replicator.onDownloadOpinionReceived now anOpinion).SharesOwn
      (replicator.recordAway away (.downloadOpinionReceived now anOpinion)) := by
  unfold Replicator.onDownloadOpinionReceived
  split
  · rename_i stopped
    exact shares.of_stopped stopped _
  · split
    · rename_i opinion isSingle
      have record : replicator.recordAway away (.downloadOpinionReceived now anOpinion) =
          replicator.awayAfter away anOpinion.downloadChannelId anOpinion.blockHash opinion := by
        simp [recordAway, awayAfter, isSingle]
      rw [record]
      exact shares.addOpinion now _ _ opinion
    · rename_i notSingle
      have record : replicator.recordAway away (.downloadOpinionReceived now anOpinion) = away := by
        unfold recordAway
        simp only
        rw [if_neg]
        intro isOwn
        cases isList : anOpinion.opinions with
        | nil => simp [isList] at isOwn
        | cons opinion others =>
            have single : opinion.replicatorKey = replicator.publicKey ∧ others = [] := by
              simpa [isList] using isOwn
            exact notSingle opinion (single.2 ▸ isList)
      rw [record]
      exact shares

theorem SharesOwn.downloadTimer (shares : replicator.SharesOwn away) {channelId : ChannelId}
    {eventHash : Hash256} {value : DownloadOpinionMapValue}
    (isEntry : replicator.findEntry channelId eventHash = some value) :
    ((replicator.setEntry channelId eventHash
      { value with timer := .expired }).onDownloadApprovalTimeExpired channelId
        eventHash).SharesOwn away := by
  obtain ⟨channel, isChannel, -⟩ := channel_of_entry isEntry
  have started : (replicator.setEntry channelId eventHash
      { value with timer := .expired }).SharesOwn away :=
    shares.setEntry (fun _ _ => Iff.rfl) (shares.own channelId eventHash value isEntry)
  have isExpired := findEntry_setEntry isChannel eventHash { value with timer := .expired } channelId
    eventHash
  rw [if_pos ⟨rfl, rfl⟩] at isExpired
  unfold onDownloadApprovalTimeExpired
  simp only [isExpired]
  split
  · exact started
  · apply @SharesOwn.setEntry _ away
    · exact started.of_entries rfl rfl rfl fun _ _ value isEntry pending =>
        ⟨value, isEntry, pending, rfl⟩
    · exact fun _ _ => Iff.rfl
    · intro pending
      exact started.own channelId eventHash { value with timer := .expired } isExpired pending

theorem SharesOwn.shareTimer (shares : replicator.SharesOwn away) {channelId : ChannelId}
    {eventHash : Hash256} {value : DownloadOpinionMapValue}
    (isEntry : replicator.findEntry channelId eventHash = some value)
    (pending : value.opinionShareTimer = .pending) (back : (channelId, eventHash) ∉ away) :
    ((replicator.setEntry channelId eventHash
      { value with opinionShareTimer := .expired }).shareDownloadOpinion channelId
        eventHash).SharesOwn away := by
  obtain ⟨channel, isChannel, -⟩ := channel_of_entry isEntry
  have started : (replicator.setEntry channelId eventHash
      { value with opinionShareTimer := .expired }).SharesOwn away :=
    shares.setEntry (fun _ _ => Iff.rfl) (fun isPending => by cases isPending)
  have isExpired := findEntry_setEntry isChannel eventHash
    { value with opinionShareTimer := .expired } channelId eventHash
  rw [if_pos ⟨rfl, rfl⟩] at isExpired
  have own := (shares.own channelId eventHash value isEntry pending).2.mpr back
  refine started.shareDownloadOpinion isExpired ?_ back
  rw [publicKey_setEntry]
  exact own

/-- Every step keeps the own opinions that are being shared, if no timer is too fast. -/
theorem SharesOwn.step {event : ReplicatorEvent} (shares : replicator.SharesOwn away)
    (inTime : SharesInTime (replicator, away) event) (handled : replicator.handle event = some after) :
    after.SharesOwn (replicator.recordAway away event) := by
  cases event with
  | addDownloadChannelInfo =>
      obtain rfl := Option.some.inj handled
      exact shares.addChannelInfo _ _ _ _ _ _ _
  | removeDownloadChannelInfo channelId =>
      obtain rfl := Option.some.inj handled
      exact shares.removeChannelInfo channelId
  | setChannelShard channelId replicatorKeys =>
      obtain rfl := Option.some.inj handled
      exact shares.setChannelShard channelId replicatorKeys
  | setMinReplicatorsNumber number =>
      obtain rfl := Option.some.inj handled
      exact shares.of_entries rfl rfl rfl fun _ _ value isEntry pending =>
        ⟨value, isEntry, pending, rfl⟩
  | receiptsAccepted channelId uploadRequests =>
      obtain rfl := Option.some.inj handled
      exact shares.receiptsAccepted channelId uploadRequests
  | downloadOpinionReceived now anOpinion =>
      obtain rfl := Option.some.inj handled
      exact shares.onDownloadOpinionReceived now anOpinion
  | initiateDownloadApproval now blockHash channelId =>
      simp only [handle] at handled
      split at handled
      · rename_i stopped
        obtain rfl := Option.some.inj handled
        exact shares.of_stopped stopped _
      · obtain rfl := Option.some.inj handled
        exact shares.doInitiate now blockHash channelId
  | closeDriveChannels now blockHash driveKey =>
      obtain rfl := Option.some.inj handled
      exact shares.closeDriveChannels now blockHash driveKey
  | approvalFailedInvalidOpinions eventHash channelId =>
      obtain rfl := Option.some.inj handled
      exact shares.onApprovalFailed eventHash channelId
  | approvalPublished eventHash channelId channelMustBeClosed =>
      obtain rfl := Option.some.inj handled
      exact shares.onApprovalPublished eventHash channelId channelMustBeClosed
  | downloadApprovalTimerExpired channelId eventHash =>
      simp only [handle] at handled
      split at handled
      · cases handled
      · rename_i value isEntry
        split at handled
        · obtain rfl := Option.some.inj handled
          exact shares.downloadTimer isEntry
        · cases handled
  | opinionShareTimerExpired channelId eventHash =>
      simp only [handle] at handled
      split at handled
      · cases handled
      · rename_i value isEntry
        split at handled
        · rename_i pending
          obtain rfl := Option.some.inj handled
          exact shares.shareTimer isEntry pending (inTime value isEntry pending)
        · cases handled
  | stop =>
      obtain rfl := Option.some.inj handled
      exact shares.stop

/-- A timer that expires while the own opinion is away finds nothing to share. -/
theorem SharesOwn.misses {event : ReplicatorEvent} (shares : replicator.SharesOwn away)
    (late : ¬ SharesInTime (replicator, away) event) :
    ∃ after, replicatorSystem.step replicator event = some after ∧ after.fault ≠ none := by
  cases event with
  | opinionShareTimerExpired channelId eventHash =>
      unfold SharesInTime at late
      push Not at late
      obtain ⟨value, isEntry, pending, isAway⟩ := late
      obtain ⟨channel, isChannel, -⟩ := channel_of_entry isEntry
      have noOwn : ¬ (value.opinions.map[replicator.publicKey]?).isSome = true := fun own =>
        (shares.own channelId eventHash value isEntry pending).2.mp own isAway
      have isExpired := findEntry_setEntry isChannel eventHash
        { value with opinionShareTimer := .expired } channelId eventHash
      rw [if_pos ⟨rfl, rfl⟩] at isExpired
      refine ⟨_, ?_, shareDownloadOpinion_fails isExpired ?_⟩
      · simp [replicatorSystem, shares.unbroken, handle, isEntry, pending]
      · rw [publicKey_setEntry]
        exact noOwn
  | _ => exact absurd trivial late

/-- In every run of a replicator the assertions of `shareDownloadOpinion` hold if and only if no
    timer that shares an opinion expires between a failure of the approval, which takes the own
    opinion away, and the return of the own opinion. -/
theorem shared_opinions_are_there_iff (publicKey : ReplicatorKey) (minReplicatorsNumber : Nat)
    (dnChannelMapBackup : Std.TreeMap ChannelId OpinionChannel) (events : List ReplicatorEvent) :
    awaySystem.Always (fun state => state.1.fault = none)
        (create publicKey minReplicatorsNumber dnChannelMapBackup, []) events ↔
      awaySystem.Meets SharesInTime
        (create publicKey minReplicatorsNumber dnChannelMapBackup, []) events := by
  apply Transition.always_iff_meets (E := fun _ _ => True)
    (I := fun state => state.1.SharesOwn state.2)
  · exact fun state shares => shares.unbroken
  · rintro ⟨replicator, away⟩ event state shares - inTime step
    obtain ⟨after, stepped, rfl⟩ := Option.map_eq_some_iff.mp step
    simp only [replicatorSystem] at stepped
    split at stepped
    · cases stepped
    · exact shares.step inTime stepped
  · rintro ⟨replicator, away⟩ event shares - late
    obtain ⟨after, stepped, broken⟩ := shares.misses late
    exact ⟨_, Option.map_eq_some_iff.mpr ⟨after, stepped, rfl⟩, broken⟩
  · constructor
    · intro channelId eventHash value isEntry
      simp [create, findEntry] at isEntry
    · rfl
  · exact Transition.meets_of_forall fun _ _ => trivial

/-! ## A sample replicator -/

def sampleReplicator : Replicator := create 1 0 ∅

/-- A channel of three replicators is added, and its downloads are to be paid. -/
def untilShared : List ReplicatorEvent :=
  [.addDownloadChannelInfo 0 40 100 70 [1, 2, 3] [101] false, .initiateDownloadApproval 0 50 40]

/-- The approval fails, and the own opinion is shared before it is back. -/
theorem shared_opinion_is_away :
    ¬ awaySystem.Always (fun state => state.1.fault = none) (sampleReplicator, [])
      (untilShared ++ [.approvalFailedInvalidOpinions 50 40, .opinionShareTimerExpired 40 50]) := by
  decide +kernel

end Replicator

end SiriusDrive
