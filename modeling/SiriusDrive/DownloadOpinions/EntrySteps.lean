import SiriusDrive.DownloadOpinions

/-! # What happens to the entry of an event

For one channel and one event: the entry is created by its first opinion and grows with
the others, fails, is published, expires, and is gone with its channel or when it is
outdated.
-/

namespace SiriusDrive

namespace DownloadOpinionMapValue

/-- Opinions are added, and the timer is started once there are `needed` ones. -/
structure Grows (needed : Nat) (start : Timer) (before after : DownloadOpinionMapValue) : Prop where
  sent : after.modifyApproveTransactionSent = before.modifyApproveTransactionSent
  received : after.approveTransactionReceived = before.approveTransactionReceived
  creationTime : after.creationTime = before.creationTime
  size : before.opinions.size ≤ after.opinions.size
  timer : after.timer = before.timer ∨ after.timer = start ∧ needed ≤ after.opinions.size

/-- A pending timer has been started with the opinions that are needed. -/
structure IsNew (needed : Nat) (start : Timer) (value : DownloadOpinionMapValue) : Prop where
  timer : value.timer = .unset ∨ value.timer = start ∧ needed ≤ value.opinions.size

variable {needed : Nat} {start : Timer} {before middle after : DownloadOpinionMapValue}

theorem Grows.refl (value : DownloadOpinionMapValue) : Grows needed start value value :=
  ⟨rfl, rfl, rfl, Nat.le_refl _, .inl rfl⟩

theorem Grows.trans (first : Grows needed start before middle)
    (second : Grows needed start middle after) : Grows needed start before after where
  sent := second.sent.trans first.sent
  received := second.received.trans first.received
  creationTime := second.creationTime.trans first.creationTime
  size := first.size.trans second.size
  timer := by
    rcases second.timer with same | started
    · rcases first.timer with unchanged | ⟨isStart, enough⟩
      · exact .inl (same.trans unchanged)
      · exact .inr ⟨same.trans isStart, enough.trans second.size⟩
    · exact .inr started

theorem IsNew.grows (isNew : IsNew needed start before) (grows : Grows needed start before after) :
    IsNew needed start after where
  timer := by
    rcases grows.timer with same | started
    · rcases isNew.timer with unset | ⟨isStart, enough⟩
      · exact .inl (same.trans unset)
      · exact .inr ⟨same.trans isStart, enough.trans grows.size⟩
    · exact .inr started

theorem Grows.isOutdated (grows : Grows needed start before after) (now : Int) :
    after.isOutdated now = before.isOutdated now := by
  unfold DownloadOpinionMapValue.isOutdated
  rw [grows.creationTime]

end DownloadOpinionMapValue

open DownloadOpinionMapValue (Grows IsNew)

/-- What opinions that are added at some time make of an entry: an outdated one is removed
    first. -/
inductive EntryGrows (needed : Nat) (start : Timer) (now : Int) :
    Option DownloadOpinionMapValue → Option DownloadOpinionMapValue → Prop
  | absent : EntryGrows needed start now none none
  | created {after : DownloadOpinionMapValue} (isNew : IsNew needed start after) :
      EntryGrows needed start now none (some after)
  | grown {before after : DownloadOpinionMapValue} (grows : Grows needed start before after) :
      EntryGrows needed start now (some before) (some after)
  | purged {before : DownloadOpinionMapValue} (outdated : before.isOutdated now = true) :
      EntryGrows needed start now (some before) none
  | replaced {before after : DownloadOpinionMapValue} (outdated : before.isOutdated now = true)
      (isNew : IsNew needed start after) : EntryGrows needed start now (some before) (some after)

theorem EntryGrows.refl {needed : Nat} {start : Timer} {now : Int}
    (entry : Option DownloadOpinionMapValue) : EntryGrows needed start now entry entry := by
  cases entry with
  | none => exact .absent
  | some value => exact .grown (.refl value)

theorem EntryGrows.trans {needed : Nat} {start : Timer} {now : Int}
    {before middle after : Option DownloadOpinionMapValue}
    (first : EntryGrows needed start now before middle)
    (second : EntryGrows needed start now middle after) :
    EntryGrows needed start now before after := by
  cases first with
  | absent => exact second
  | created isNew =>
      cases second with
      | grown grows => exact .created (isNew.grows grows)
      | purged => exact .absent
      | replaced _ isNewLater => exact .created isNewLater
  | grown grows =>
      cases second with
      | grown growsLater => exact .grown (grows.trans growsLater)
      | purged outdated => exact .purged (grows.isOutdated now ▸ outdated)
      | replaced outdated isNew => exact .replaced (grows.isOutdated now ▸ outdated) isNew
  | purged outdated =>
      cases second with
      | absent => exact .purged outdated
      | created isNew => exact .replaced outdated isNew
  | replaced outdated isNew =>
      cases second with
      | grown grows => exact .replaced outdated (isNew.grows grows)
      | purged => exact .purged outdated
      | replaced _ isNewLater => exact .replaced outdated isNewLater

namespace Replicator

variable {replicator after : Replicator} {channelId : ChannelId} {eventHash : Hash256}

def neededOpinions (replicator : Replicator) (channelId : ChannelId) : Nat :=
  match replicator.dnChannelMap[channelId]? with
  | some channel => replicator.replicatorNumber channel
  | none => 0

/-- The replicator adds opinions at some time. -/
structure AddsOpinions (now : Int) (before after : Replicator) : Prop where
  entry : ∀ (channelId : ChannelId) (eventHash : Hash256),
    EntryGrows (before.neededOpinions channelId) before.startTimer now
      (before.findEntry channelId eventHash) (after.findEntry channelId eventHash)
  needed : ∀ channelId : ChannelId, after.neededOpinions channelId = before.neededOpinions channelId
  channel : ∀ channelId : ChannelId, (after.dnChannelMap[channelId]?).isSome =
    (before.dnChannelMap[channelId]?).isSome
  isDestructing : after.isDestructing = before.isDestructing

theorem AddsOpinions.refl (now : Int) (replicator : Replicator) :
    AddsOpinions now replicator replicator :=
  ⟨fun _ _ => .refl _, fun _ => rfl, fun _ => rfl, rfl⟩

theorem AddsOpinions.trans {now : Int} {before middle after : Replicator}
    (first : AddsOpinions now before middle) (second : AddsOpinions now middle after) :
    AddsOpinions now before after where
  entry := by
    intro channelId eventHash
    have sameStart : middle.startTimer = before.startTimer := by
      rw [startTimer, startTimer, first.isDestructing]
    have later := second.entry channelId eventHash
    rw [first.needed, sameStart] at later
    exact (first.entry channelId eventHash).trans later
  needed channelId := (second.needed channelId).trans (first.needed channelId)
  channel channelId := (second.channel channelId).trans (first.channel channelId)
  isDestructing := second.isDestructing.trans first.isDestructing

theorem addsOpinions_removeOutdated (replicator : Replicator) (now : Int) :
    AddsOpinions now replicator (replicator.removeOutdated now) where
  entry := by
    intro channelId eventHash
    rw [findEntry_removeOutdated]
    cases replicator.findEntry channelId eventHash with
    | none => exact .absent
    | some value =>
        cases outdated : value.isOutdated now with
        | true =>
            rw [Option.filter_some, outdated]
            exact .purged outdated
        | false =>
            rw [Option.filter_some, outdated]
            exact .grown (.refl value)
  needed := by
    intro channelId
    unfold neededOpinions removeOutdated
    simp only [Std.TreeMap.getElem?_map]
    cases replicator.dnChannelMap[channelId]? <;> rfl
  channel := isSome_removeOutdated now
  isDestructing := rfl

theorem neededOpinions_setEntry {channel : OpinionChannel}
    (isChannel : replicator.dnChannelMap[channelId]? = some channel)
    (value : DownloadOpinionMapValue) (otherId : ChannelId) :
    (replicator.setEntry channelId eventHash value).neededOpinions otherId =
      replicator.neededOpinions otherId := by
  unfold neededOpinions setEntry setChannel
  simp only [isChannel, Std.TreeMap.getElem?_insert_eq]
  by_cases same : otherId = channelId
  · subst same
    simp only [if_true, isChannel]
    rfl
  · simp only [if_neg same]
    rfl

theorem isSome_setEntry {channel : OpinionChannel}
    (isChannel : replicator.dnChannelMap[channelId]? = some channel)
    (value : DownloadOpinionMapValue) (otherId : ChannelId) :
    ((replicator.setEntry channelId eventHash value).dnChannelMap[otherId]?).isSome =
      (replicator.dnChannelMap[otherId]?).isSome := by
  unfold setEntry setChannel
  simp only [isChannel, Std.TreeMap.getElem?_insert_eq]
  by_cases same : otherId = channelId
  · subst same
    simp [isChannel]
  · simp [same]

theorem addsOpinions_setEntry {channel : OpinionChannel}
    (isChannel : replicator.dnChannelMap[channelId]? = some channel) (now : Int)
    {value : DownloadOpinionMapValue}
    (grows : EntryGrows (replicator.neededOpinions channelId) replicator.startTimer now
      (replicator.findEntry channelId eventHash) (some value)) :
    AddsOpinions now replicator (replicator.setEntry channelId eventHash value) where
  entry := by
    intro otherId otherHash
    rw [findEntry_setEntry isChannel]
    split
    · rename_i same
      obtain ⟨rfl, rfl⟩ := same
      exact grows
    · exact .refl _
  needed := neededOpinions_setEntry isChannel value
  channel := isSome_setEntry isChannel value
  isDestructing := by
    unfold setEntry
    split <;> rfl

theorem grows_collect (replicator : Replicator) {channelId : ChannelId} {channel : OpinionChannel}
    (isChannel : replicator.dnChannelMap[channelId]? = some channel)
    (value : DownloadOpinionMapValue) (opinion : DownloadOpinion) :
    Grows (replicator.neededOpinions channelId) replicator.startTimer value
      (replicator.collect channel value opinion) where
  sent := rfl
  received := rfl
  creationTime := rfl
  size := Std.TreeMap.size_le_size_insert
  timer := by
    have needed : replicator.neededOpinions channelId = replicator.replicatorNumber channel := by
      rw [neededOpinions, isChannel]
    unfold collect
    simp only
    split
    · rename_i enough
      exact .inr ⟨rfl, needed ▸ enough.1⟩
    · exact .inl rfl

theorem addsOpinions_addOpinion (replicator : Replicator) (now : Int) (blockHash : Hash256)
    (channelId : ChannelId) (opinion : DownloadOpinion) :
    AddsOpinions now replicator (replicator.addOpinion now blockHash channelId opinion) := by
  have purged := addsOpinions_removeOutdated replicator now
  unfold addOpinion
  cases isChannel : (replicator.removeOutdated now).dnChannelMap[channelId]? with
  | none =>
      simp only [isChannel]
      exact purged
  | some channel =>
      simp only [isChannel]
      refine purged.trans (addsOpinions_setEntry isChannel now ?_)
      rw [findEntry_of_channel isChannel]
      cases channel.downloadOpinionMap[blockHash]? with
      | none =>
          have isNew : IsNew ((replicator.removeOutdated now).neededOpinions channelId)
              (replicator.removeOutdated now).startTimer
              { eventHash := blockHash, downloadChannelId := channelId, creationTime := now } :=
            ⟨.inl rfl⟩
          exact .created (isNew.grows (grows_collect _ isChannel _ opinion))
      | some value => exact .grown (grows_collect _ isChannel value opinion)

theorem addsOpinions_shareDownloadOpinion (replicator : Replicator) (now : Int)
    (channelId : ChannelId) (eventHash : Hash256) :
    AddsOpinions now replicator (replicator.shareDownloadOpinion channelId eventHash) := by
  unfold shareDownloadOpinion
  split
  · exact ⟨fun _ _ => .refl _, fun _ => rfl, fun _ => rfl, rfl⟩
  · rename_i channel isChannel
    split
    · exact ⟨fun _ _ => .refl _, fun _ => rfl, fun _ => rfl, rfl⟩
    · rename_i value isValue
      split
      · exact ⟨fun _ _ => .refl _, fun _ => rfl, fun _ => rfl, rfl⟩
      · rename_i myOpinion isOpinion
        have logged (sharedOpinions : List (ReplicatorKey × DownloadApprovalTransactionInfo)) :
            AddsOpinions now replicator { replicator with sharedOpinions } :=
          ⟨fun _ _ => .refl _, fun _ => rfl, fun _ => rfl, rfl⟩
        have isEntry := (findEntry_of_channel isChannel eventHash).trans isValue
        apply (logged _).trans
        apply addsOpinions_setEntry
        · exact isChannel
        · simp only [findEntry] at isEntry ⊢
          rw [isEntry]
          exact .grown ⟨rfl, rfl, rfl, Nat.le_refl _, .inl rfl⟩

theorem doInitiate_of_none {now : Int} {blockHash : Hash256}
    (noChannel : replicator.dnChannelMap[channelId]? = none) :
    replicator.doInitiateDownloadApprovalTransactionInfo now blockHash channelId = replicator := by
  unfold doInitiateDownloadApprovalTransactionInfo
  simp only [noChannel]

theorem addsOpinions_doInitiate (replicator : Replicator) (now : Int) (blockHash : Hash256)
    (channelId : ChannelId) :
    AddsOpinions now replicator
      (replicator.doInitiateDownloadApprovalTransactionInfo now blockHash channelId) := by
  unfold doInitiateDownloadApprovalTransactionInfo
  split
  · exact .refl now replicator
  · rename_i channel isChannel
    exact (addsOpinions_addOpinion replicator now blockHash channelId _).trans
      (addsOpinions_shareDownloadOpinion _ now channelId blockHash)

theorem addsOpinions_closeDriveChannels (replicator : Replicator) (now : Int) (blockHash : Hash256)
    (driveKey : Key) :
    AddsOpinions now replicator (replicator.closeDriveChannels now blockHash driveKey) := by
  unfold closeDriveChannels
  generalize replicator.channelsOfDrive driveKey = channelIds
  induction channelIds generalizing replicator with
  | nil => exact .refl now replicator
  | cons channelId channelIds ih =>
      rw [List.foldl_cons]
      exact (addsOpinions_doInitiate replicator now blockHash channelId).trans (ih _)

end Replicator

/-! ## The steps of an entry -/

namespace ReplicatorEvent

def addedChannel : ReplicatorEvent → Option ChannelId
  | .addDownloadChannelInfo _ channelId _ _ _ _ _ => some channelId
  | _ => none

/-- The event changes how many opinions an approval of the channel needs. -/
def ChangesNeeded (channelId : ChannelId) : ReplicatorEvent → Prop
  | .setChannelShard changed _ => changed = channelId
  | .setMinReplicatorsNumber _ => True
  | _ => False

end ReplicatorEvent

def Replicator.opinionTime (replicator : Replicator) : ReplicatorEvent → Option Int
  | .downloadOpinionReceived now anOpinion =>
      if replicator.isDestructing = false ∧ anOpinion.opinions.length = 1 then some now else none
  | .initiateDownloadApproval now _ channelId =>
      if replicator.isDestructing = false ∧ replicator.dnChannelMap.contains channelId then some now
      else none
  | .closeDriveChannels now _ driveKey =>
      if replicator.channelsOfDrive driveKey = [] then none else some now
  | _ => none

inductive EntryStep (replicator after : Replicator) (channelId : ChannelId) (eventHash : Hash256) :
    ReplicatorEvent → Option DownloadOpinionMapValue → Option DownloadOpinionMapValue → Prop
  | same {event : ReplicatorEvent} {entry : Option DownloadOpinionMapValue} :
      EntryStep replicator after channelId eventHash event entry entry
  | adds {event : ReplicatorEvent} {entry later : Option DownloadOpinionMapValue} {now : Int}
      (isTime : replicator.opinionTime event = some now)
      (grows : EntryGrows (replicator.neededOpinions channelId) replicator.startTimer now entry
        later) : EntryStep replicator after channelId eventHash event entry later
  | opened {event : ReplicatorEvent} {later : Option DownloadOpinionMapValue}
      (isAdd : event.addedChannel = some channelId) (noChannel : replicator.dnChannelMap[channelId]? = none)
      (unset : ∀ value ∈ later, value.timer = .unset) :
      EntryStep replicator after channelId eventHash event none later
  | closed {event : ReplicatorEvent} {entry : Option DownloadOpinionMapValue}
      (noChannel : after.dnChannelMap[channelId]? = none) :
      EntryStep replicator after channelId eventHash event entry none
  | fails {value : DownloadOpinionMapValue} (unpublished : value.approveTransactionReceived = false) :
      EntryStep replicator after channelId eventHash
        (.approvalFailedInvalidOpinions eventHash channelId) (some value)
        (some { value with
          timer := .unset
          opinions := .empty
          modifyApproveTransactionSent := false })
  | published {value : DownloadOpinionMapValue} :
      EntryStep replicator after channelId eventHash (.approvalPublished eventHash channelId false)
        (some value)
        (some { value with
          timer := .unset
          opinionShareTimer := .unset
          approveTransactionReceived := true })
  | expires {value : DownloadOpinionMapValue} (pending : value.timer = .pending) :
      EntryStep replicator after channelId eventHash
        (.downloadApprovalTimerExpired channelId eventHash) (some value)
        (some { value with
          timer := .expired
          modifyApproveTransactionSent :=
            value.modifyApproveTransactionSent || !value.approveTransactionReceived })
  | shares {event : ReplicatorEvent} {value : DownloadOpinionMapValue} (opinionShareTimer : Timer) :
      EntryStep replicator after channelId eventHash event (some value)
        (some { value with opinionShareTimer })
  | stops {event : ReplicatorEvent} {value : DownloadOpinionMapValue} :
      EntryStep replicator after channelId eventHash event (some value)
        (some { value with timer := .unset, opinionShareTimer := .unset })

/-- What a step does to the entries, and to what decides about them. -/
structure StepEffect (replicator : Replicator) (event : ReplicatorEvent) (after : Replicator) :
    Prop where
  entry : ∀ (channelId : ChannelId) (eventHash : Hash256),
    EntryStep replicator after channelId eventHash event (replicator.findEntry channelId eventHash)
      (after.findEntry channelId eventHash)
  needed : ∀ channelId : ChannelId, ¬ event.ChangesNeeded channelId →
    replicator.dnChannelMap[channelId]?.isSome = true →
    after.dnChannelMap[channelId]?.isSome = true →
    after.neededOpinions channelId = replicator.neededOpinions channelId
  channel : ∀ channelId : ChannelId, event.addedChannel ≠ some channelId →
    replicator.dnChannelMap[channelId]? = none → after.dnChannelMap[channelId]? = none
  isDestructing : after.isDestructing = replicator.isDestructing ∨
    after.isDestructing = true ∧ ∀ (channelId : ChannelId) (eventHash : Hash256),
      ∀ value ∈ after.findEntry channelId eventHash, value.timer = .unset

namespace Replicator

theorem none_of_isSome_eq {α : Type} {a b : Option α} (same : a.isSome = b.isSome)
    (isNone : b = none) : a = none := by
  cases a with
  | none => rfl
  | some value => simp [isNone] at same

theorem stepEffect_of_same {event : ReplicatorEvent} (entries : ∀ channelId eventHash,
      after.findEntry channelId eventHash = replicator.findEntry channelId eventHash)
    (needed : ∀ channelId, ¬ event.ChangesNeeded channelId →
      after.neededOpinions channelId = replicator.neededOpinions channelId)
    (channel : ∀ channelId : ChannelId, (after.dnChannelMap[channelId]?).isSome =
      (replicator.dnChannelMap[channelId]?).isSome)
    (isDestructing : after.isDestructing = replicator.isDestructing) :
    StepEffect replicator event after where
  entry := by
    intro channelId eventHash
    rw [entries]
    exact .same
  needed channelId steady _ _ := needed channelId steady
  channel := by
    intro channelId _ noChannel
    exact none_of_isSome_eq (channel channelId) noChannel
  isDestructing := .inl isDestructing

theorem AddsOpinions.stepEffect {event : ReplicatorEvent} {now : Int}
    (adds : AddsOpinions now replicator after) (isTime : replicator.opinionTime event = some now) :
    StepEffect replicator event after where
  entry channelId eventHash := .adds isTime (adds.entry channelId eventHash)
  needed channelId _ _ _ := adds.needed channelId
  channel := by
    intro channelId _ noChannel
    exact none_of_isSome_eq (adds.channel channelId) noChannel
  isDestructing := .inl adds.isDestructing

/-- The entry of one event is another one. -/
structure ChangesEntry (replicator : Replicator) (channelId : ChannelId) (eventHash : Hash256)
    (later : DownloadOpinionMapValue) (after : Replicator) : Prop where
  entry : ∀ (otherId : ChannelId) (otherHash : Hash256), after.findEntry otherId otherHash =
    if otherId = channelId ∧ otherHash = eventHash then some later
    else replicator.findEntry otherId otherHash
  needed : ∀ otherId : ChannelId, after.neededOpinions otherId = replicator.neededOpinions otherId
  channel : ∀ otherId : ChannelId, (after.dnChannelMap[otherId]?).isSome =
    (replicator.dnChannelMap[otherId]?).isSome
  isDestructing : after.isDestructing = replicator.isDestructing

variable {value later : DownloadOpinionMapValue}

theorem changesEntry_setEntry (isEntry : replicator.findEntry channelId eventHash = some value) :
    ChangesEntry replicator channelId eventHash later
      (replicator.setEntry channelId eventHash later) := by
  obtain ⟨channel, isChannel, -⟩ := channel_of_entry isEntry
  refine ⟨?_, neededOpinions_setEntry isChannel later, isSome_setEntry isChannel later, ?_⟩
  · exact findEntry_setEntry isChannel eventHash later
  · unfold setEntry
    split <;> rfl

theorem ChangesEntry.same (isEntry : replicator.findEntry channelId eventHash = some value) :
    ChangesEntry replicator channelId eventHash value replicator := by
  refine ⟨?_, fun _ => rfl, fun _ => rfl, rfl⟩
  intro otherId otherHash
  split
  · rename_i same
    obtain ⟨rfl, rfl⟩ := same
    exact isEntry
  · rfl

theorem ChangesEntry.trans {last : DownloadOpinionMapValue} {middle : Replicator}
    (first : ChangesEntry replicator channelId eventHash value middle)
    (second : ChangesEntry middle channelId eventHash last after) :
    ChangesEntry replicator channelId eventHash last after where
  entry := by
    intro otherId otherHash
    rw [second.entry]
    split
    · rfl
    · rename_i apart
      rw [first.entry, if_neg apart]
  needed otherId := (second.needed otherId).trans (first.needed otherId)
  channel otherId := (second.channel otherId).trans (first.channel otherId)
  isDestructing := second.isDestructing.trans first.isDestructing

theorem ChangesEntry.isEntry (changes : ChangesEntry replicator channelId eventHash later after) :
    after.findEntry channelId eventHash = some later := by
  rw [changes.entry, if_pos ⟨rfl, rfl⟩]

theorem ChangesEntry.stepEffect {event : ReplicatorEvent}
    (changes : ChangesEntry replicator channelId eventHash later after)
    (isEntry : replicator.findEntry channelId eventHash = some value)
    (step : EntryStep replicator after channelId eventHash event (some value) (some later)) :
    StepEffect replicator event after where
  entry := by
    intro otherId otherHash
    rw [changes.entry]
    split
    · rename_i same
      obtain ⟨rfl, rfl⟩ := same
      rw [isEntry]
      exact step
    · exact .same
  needed otherId _ _ _ := changes.needed otherId
  channel otherId _ noChannel := none_of_isSome_eq (changes.channel otherId) noChannel
  isDestructing := .inl changes.isDestructing

theorem stepEffect_refl (replicator : Replicator) (event : ReplicatorEvent) :
    StepEffect replicator event replicator :=
  stepEffect_of_same (fun _ _ => rfl) (fun _ _ => rfl) (fun _ => rfl) rfl

theorem stepEffect_eraseChannel {event : ReplicatorEvent} (channelId : ChannelId) :
    StepEffect replicator event
      { replicator with dnChannelMap := replicator.dnChannelMap.erase channelId } := by
  have others (otherId : ChannelId) (apart : otherId ≠ channelId) :
      (replicator.dnChannelMap.erase channelId)[otherId]? = replicator.dnChannelMap[otherId]? := by
    rw [Std.TreeMap.getElem?_erase_eq, if_neg apart]
  have noChannel : (replicator.dnChannelMap.erase channelId)[channelId]? = none := by
    rw [Std.TreeMap.getElem?_erase_eq, if_pos rfl]
  constructor
  · intro otherId otherHash
    by_cases same : otherId = channelId
    · subst same
      have noEntry : findEntry { replicator with dnChannelMap := replicator.dnChannelMap.erase otherId }
          otherId otherHash = none := by
        rw [findEntry, noChannel, Option.bind_none]
      rw [noEntry]
      exact .closed noChannel
    · have isSame : findEntry { replicator with dnChannelMap := replicator.dnChannelMap.erase channelId }
          otherId otherHash = replicator.findEntry otherId otherHash := by
        rw [findEntry, others otherId same, findEntry]
      rw [isSame]
      exact .same
  · intro otherId _ _ present
    by_cases same : otherId = channelId
    · subst same
      simp at present
    · simp only [neededOpinions, others otherId same]
      rfl
  · intro otherId _ absent
    by_cases same : otherId = channelId
    · subst same
      exact noChannel
    · rw [others otherId same]
      exact absent
  · exact .inl rfl

theorem stepEffect_addChannelInfo (replicator : Replicator) (now : Int) (channelId : ChannelId)
    (prepaidDownloadSize : Nat) (driveKey : Key) (replicatorsList : List ReplicatorKey)
    (clients : List ClientKey) (willBeSyncronized : Bool) :
    StepEffect replicator
      (.addDownloadChannelInfo now channelId prepaidDownloadSize driveKey replicatorsList clients
        willBeSyncronized)
      (replicator.addChannelInfo now channelId prepaidDownloadSize driveKey replicatorsList clients
        willBeSyncronized) := by
  unfold addChannelInfo
  split
  · exact stepEffect_refl _ _
  · split
    · exact stepEffect_refl _ _
    · rename_i absent
      have noChannel : replicator.dnChannelMap[channelId]? = none := by
        rw [Std.TreeMap.contains_eq_isSome_getElem?] at absent
        simpa using absent
      have others (otherId : ChannelId) (apart : otherId ≠ channelId) (channel : OpinionChannel) :
          (replicator.dnChannelMap.insert channelId channel)[otherId]? =
            replicator.dnChannelMap[otherId]? := by
        rw [Std.TreeMap.getElem?_insert_eq, if_neg apart]
      constructor
      · intro otherId otherHash
        by_cases same : otherId = channelId
        · subst same
          have noEntry : replicator.findEntry otherId otherHash = none := by
            rw [findEntry, noChannel, Option.bind_none]
          rw [noEntry]
          refine .opened rfl noChannel ?_
          intro value isEntry
          simp only [findEntry, Std.TreeMap.getElem?_insert_eq, if_true, Option.mem_def,
            Option.bind_some] at isEntry
          cases backup : replicator.dnChannelMapBackup[otherId]? with
          | none => simp [backup] at isEntry
          | some channel =>
              simp only [backup, Std.TreeMap.getElem?_map] at isEntry
              obtain ⟨saved, -, rfl⟩ := Option.map_eq_some_iff.mp isEntry
              rfl
        · simp only [findEntry, others otherId same]
          exact .same
      · intro otherId _ present _
        by_cases same : otherId = channelId
        · subst same
          simp [noChannel] at present
        · simp only [neededOpinions, others otherId same]
          rfl
      · intro otherId notAdded absentOther
        have same : otherId ≠ channelId := fun same => notAdded (congrArg some same.symm)
        rw [others otherId same]
        exact absentOther
      · exact .inl rfl

theorem stepEffect_setChannel {event : ReplicatorEvent} {channel later : OpinionChannel}
    (isChannel : replicator.dnChannelMap[channelId]? = some channel)
    (same : later.downloadOpinionMap = channel.downloadOpinionMap)
    (needed : ¬ event.ChangesNeeded channelId →
      later.dnReplicatorShard = channel.dnReplicatorShard) :
    StepEffect replicator event (replicator.setChannel channelId later) := by
  apply stepEffect_of_same
  · intro otherId otherHash
    unfold findEntry setChannel
    simp only [Std.TreeMap.getElem?_insert_eq]
    by_cases isSame : otherId = channelId
    · subst isSame
      simp [isChannel, same]
    · simp [isSame]
  · intro otherId steady
    unfold neededOpinions setChannel
    simp only [Std.TreeMap.getElem?_insert_eq]
    by_cases isSame : otherId = channelId
    · subst isSame
      simp only [if_true, isChannel, replicatorNumber, needed steady]
    · simp only [if_neg isSame]
      rfl
  · intro otherId
    unfold setChannel
    simp only [Std.TreeMap.getElem?_insert_eq]
    by_cases isSame : otherId = channelId
    · subst isSame
      simp [isChannel]
    · simp [isSame]
  · rfl

theorem stepEffect_onApprovalFailed (replicator : Replicator) (eventHash : Hash256)
    (channelId : ChannelId) :
    StepEffect replicator (.approvalFailedInvalidOpinions eventHash channelId)
      (replicator.onApprovalFailed eventHash channelId) := by
  unfold onApprovalFailed
  split
  · exact stepEffect_refl _ _
  · split
    · exact stepEffect_refl _ _
    · rename_i value isEntry
      split
      · exact stepEffect_refl _ _
      · rename_i unpublished
        have logged (receivedOpinions : List DownloadApprovalTransactionInfo) :
            ChangesEntry replicator channelId eventHash value { replicator with receivedOpinions } :=
          ⟨(ChangesEntry.same isEntry).entry, fun _ => rfl, fun _ => rfl, rfl⟩
        refine ChangesEntry.stepEffect ?_ isEntry (.fails (by simpa using unpublished))
        exact (logged _).trans (changesEntry_setEntry (logged _).isEntry)

theorem stepEffect_onApprovalPublished (replicator : Replicator) (eventHash : Hash256)
    (channelId : ChannelId) (channelMustBeClosed : Bool) :
    StepEffect replicator (.approvalPublished eventHash channelId channelMustBeClosed)
      (replicator.onApprovalPublished eventHash channelId channelMustBeClosed) := by
  unfold onApprovalPublished
  split
  · exact stepEffect_refl _ _
  · split
    · exact stepEffect_eraseChannel channelId
    · rename_i remains
      obtain rfl : channelMustBeClosed = false := by simpa using remains
      split
      · exact stepEffect_refl _ _
      · rename_i value isEntry
        exact (changesEntry_setEntry isEntry).stepEffect isEntry .published

theorem stepEffect_stop (replicator : Replicator) : StepEffect replicator .stop replicator.stop := by
  have stopped (channelId : ChannelId) (eventHash : Hash256) :
      replicator.stop.findEntry channelId eventHash =
        (replicator.findEntry channelId eventHash).map fun value =>
          { value with timer := .unset, opinionShareTimer := .unset } := by
    unfold findEntry stop
    simp only [Std.TreeMap.getElem?_map]
    cases replicator.dnChannelMap[channelId]? with
    | none => rfl
    | some channel => exact Std.TreeMap.getElem?_map
  have channels (channelId : ChannelId) : (replicator.stop.dnChannelMap[channelId]?).isSome =
      (replicator.dnChannelMap[channelId]?).isSome := by
    unfold stop
    rw [Std.TreeMap.getElem?_map, Option.isSome_map]
  constructor
  · intro channelId eventHash
    rw [stopped]
    cases replicator.findEntry channelId eventHash with
    | none => exact .same
    | some value => exact .stops
  · intro channelId _ _ _
    unfold neededOpinions stop
    simp only [Std.TreeMap.getElem?_map]
    cases replicator.dnChannelMap[channelId]? <;> rfl
  · intro channelId _ noChannel
    exact none_of_isSome_eq (channels channelId) noChannel
  · refine .inr ⟨rfl, ?_⟩
    intro channelId eventHash value isEntry
    rw [stopped, Option.mem_def] at isEntry
    obtain ⟨before, -, rfl⟩ := Option.map_eq_some_iff.mp isEntry
    rfl

theorem stepEffect_downloadTimer (isEntry : replicator.findEntry channelId eventHash = some value)
    (pending : value.timer = .pending) :
    StepEffect replicator (.downloadApprovalTimerExpired channelId eventHash)
      ((replicator.setEntry channelId eventHash
        { value with timer := .expired }).onDownloadApprovalTimeExpired channelId eventHash) := by
  have expired : ChangesEntry replicator channelId eventHash { value with timer := .expired }
      (replicator.setEntry channelId eventHash { value with timer := .expired }) :=
    changesEntry_setEntry isEntry
  have step (after : Replicator) : EntryStep replicator after channelId eventHash
      (.downloadApprovalTimerExpired channelId eventHash) (some value)
      (some { value with
        timer := .expired
        modifyApproveTransactionSent :=
          value.modifyApproveTransactionSent || !value.approveTransactionReceived }) :=
    .expires pending
  unfold onDownloadApprovalTimeExpired
  simp only [expired.isEntry]
  split
  · rename_i isOver
    refine expired.stepEffect isEntry ?_
    have same : (value.modifyApproveTransactionSent || !value.approveTransactionReceived) =
        value.modifyApproveTransactionSent := by
      revert isOver
      cases value.modifyApproveTransactionSent <;> cases value.approveTransactionReceived <;> decide
    rw [same] at step
    exact step _
  · rename_i isReady
    have logged (readyApprovals : List DownloadApprovalTransactionInfo) :
        ChangesEntry replicator channelId eventHash { value with timer := .expired }
          { replicator.setEntry channelId eventHash { value with timer := .expired } with
            readyApprovals } :=
      ⟨expired.entry, expired.needed, expired.channel, expired.isDestructing⟩
    have isSent : (value.modifyApproveTransactionSent || !value.approveTransactionReceived) =
        true := by
      revert isReady
      cases value.modifyApproveTransactionSent <;> cases value.approveTransactionReceived <;> decide
    rw [isSent] at step
    refine ChangesEntry.stepEffect ?_ isEntry (step _)
    exact (logged _).trans (changesEntry_setEntry (logged _).isEntry)

theorem changesEntry_shareDownloadOpinion
    (isEntry : replicator.findEntry channelId eventHash = some value) :
    ∃ opinionShareTimer, ChangesEntry replicator channelId eventHash
      { value with opinionShareTimer } (replicator.shareDownloadOpinion channelId eventHash) := by
  obtain ⟨channel, isChannel, isValue⟩ := channel_of_entry isEntry
  have same := ChangesEntry.same isEntry
  unfold shareDownloadOpinion
  simp only [isChannel, isValue]
  split
  · exact ⟨value.opinionShareTimer, same.entry, same.needed, same.channel, same.isDestructing⟩
  · have logged (sharedOpinions : List (ReplicatorKey × DownloadApprovalTransactionInfo)) :
        ChangesEntry replicator channelId eventHash value { replicator with sharedOpinions } :=
      ⟨same.entry, same.needed, same.channel, same.isDestructing⟩
    refine ⟨replicator.startTimer, ?_⟩
    exact (logged _).trans (changesEntry_setEntry (logged _).isEntry)

theorem stepEffect_shareTimer (isEntry : replicator.findEntry channelId eventHash = some value) :
    StepEffect replicator (.opinionShareTimerExpired channelId eventHash)
      ((replicator.setEntry channelId eventHash
        { value with opinionShareTimer := .expired }).shareDownloadOpinion channelId eventHash) := by
  have expired : ChangesEntry replicator channelId eventHash
      { value with opinionShareTimer := .expired }
      (replicator.setEntry channelId eventHash { value with opinionShareTimer := .expired }) :=
    changesEntry_setEntry isEntry
  obtain ⟨timer, shared⟩ := changesEntry_shareDownloadOpinion expired.isEntry
  exact (expired.trans shared).stepEffect isEntry (.shares timer)

theorem stepEffect_of_handle {event : ReplicatorEvent}
    (handled : replicator.handle event = some after) : StepEffect replicator event after := by
  cases event with
  | addDownloadChannelInfo =>
      obtain rfl := Option.some.inj handled
      exact stepEffect_addChannelInfo _ _ _ _ _ _ _ _
  | removeDownloadChannelInfo channelId =>
      obtain rfl := Option.some.inj handled
      unfold removeChannelInfo
      split
      · exact stepEffect_refl _ _
      · exact stepEffect_eraseChannel channelId
  | setChannelShard channelId replicatorKeys =>
      obtain rfl := Option.some.inj handled
      unfold setChannelShard
      split
      · exact stepEffect_refl _ _
      · rename_i channel isChannel
        exact stepEffect_setChannel isChannel rfl fun steady => absurd rfl steady
  | setMinReplicatorsNumber number =>
      obtain rfl := Option.some.inj handled
      exact stepEffect_of_same (fun _ _ => rfl) (fun _ steady => absurd trivial steady)
        (fun _ => rfl) rfl
  | receiptsAccepted channelId uploadRequests =>
      obtain rfl := Option.some.inj handled
      unfold receiptsAccepted
      split
      · exact stepEffect_refl _ _
      · rename_i channel isChannel
        exact stepEffect_setChannel isChannel rfl fun _ => rfl
  | downloadOpinionReceived now anOpinion =>
      obtain rfl := Option.some.inj handled
      unfold onDownloadOpinionReceived
      split
      · exact stepEffect_refl _ _
      · rename_i going
        split
        · rename_i opinion isSingle
          refine (addsOpinions_addOpinion _ _ _ _ _).stepEffect ?_
          simp only [opinionTime, isSingle, List.length_cons, List.length_nil]
          exact if_pos ⟨by simpa using going, trivial⟩
        · exact stepEffect_refl _ _
  | initiateDownloadApproval now blockHash channelId =>
      simp only [handle] at handled
      split at handled
      · obtain rfl := Option.some.inj handled
        exact stepEffect_refl _ _
      · rename_i going
        obtain rfl := Option.some.inj handled
        by_cases present : replicator.dnChannelMap.contains channelId = true
        · refine (addsOpinions_doInitiate _ now blockHash channelId).stepEffect ?_
          exact if_pos ⟨by simpa using going, present⟩
        · rw [doInitiate_of_none (by
            rw [Std.TreeMap.contains_eq_isSome_getElem?] at present
            simpa using present)]
          exact stepEffect_refl _ _
  | closeDriveChannels now blockHash driveKey =>
      obtain rfl := Option.some.inj handled
      by_cases noChannel : replicator.channelsOfDrive driveKey = []
      · rw [closeDriveChannels, noChannel, List.foldl_nil]
        exact stepEffect_refl _ _
      · refine (addsOpinions_closeDriveChannels _ now blockHash driveKey).stepEffect ?_
        exact if_neg noChannel
  | approvalFailedInvalidOpinions eventHash channelId =>
      obtain rfl := Option.some.inj handled
      exact stepEffect_onApprovalFailed _ eventHash channelId
  | approvalPublished eventHash channelId channelMustBeClosed =>
      obtain rfl := Option.some.inj handled
      exact stepEffect_onApprovalPublished _ eventHash channelId channelMustBeClosed
  | downloadApprovalTimerExpired channelId eventHash =>
      simp only [handle] at handled
      split at handled
      · cases handled
      · rename_i value isEntry
        split at handled
        · rename_i pending
          obtain rfl := Option.some.inj handled
          exact stepEffect_downloadTimer isEntry pending
        · cases handled
  | opinionShareTimerExpired channelId eventHash =>
      simp only [handle] at handled
      split at handled
      · cases handled
      · rename_i value isEntry
        split at handled
        · obtain rfl := Option.some.inj handled
          exact stepEffect_shareTimer isEntry
        · cases handled
  | stop =>
      obtain rfl := Option.some.inj handled
      exact stepEffect_stop _

end Replicator

end SiriusDrive
