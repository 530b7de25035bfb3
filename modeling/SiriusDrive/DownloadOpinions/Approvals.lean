import SiriusDrive.DownloadOpinions.EntrySteps
import SiriusDrive.DownloadOpinions.Sharing

/-! # The approvals of downloads

An approval is ready once the timer of its entry has expired, which is started with enough
opinions. It is not ready again before it fails, nor after it was published, as long as the
entry stays where it is.
-/

namespace SiriusDrive

namespace DownloadOpinionSet

variable (opinions : DownloadOpinionSet)

theorem length_toList : opinions.toList.length = opinions.size := by
  rw [toList, List.length_map, Std.TreeMap.length_toList, size]

theorem nodup_replicatorKeys : (opinions.toList.map (·.replicatorKey)).Nodup := by
  have keys : opinions.toList.map (·.replicatorKey) = opinions.map.toList.map Prod.fst := by
    rw [toList, List.map_map]
    apply List.map_congr_left
    intro entry member
    exact opinions.keyed entry.1 entry.2 (Std.TreeMap.mem_toList_iff_getElem?_eq_some.mp member)
  have distinct : (opinions.map.toList.map Prod.fst).Nodup := by
    rw [Std.TreeMap.map_fst_toList_eq_keys]
    exact Std.TreeMap.nodup_keys
  rw [keys]
  exact distinct

end DownloadOpinionSet

namespace Replicator

/-- What `downloadApprovalTransactionIsReady` is told by an event. -/
def madeReady (replicator : Replicator) (event : ReplicatorEvent) :
    List DownloadApprovalTransactionInfo :=
  match replicatorSystem.step replicator event with
  | some after => after.readyApprovals.drop replicator.readyApprovals.length
  | none => []

/-- What it is told about one entry, when the timer of the entry expires. -/
def madeReadyFor (channelId : ChannelId) (eventHash : Hash256) (replicator : Replicator)
    (event : ReplicatorEvent) : List DownloadApprovalTransactionInfo :=
  match event with
  | .downloadApprovalTimerExpired expiredId expiredHash =>
      if expiredId = channelId ∧ expiredHash = eventHash then replicator.madeReady event else []
  | _ => []

/-- The entry is not purged as outdated, and its channel is not added anew. -/
def KeepsEntry (channelId : ChannelId) (eventHash : Hash256) (replicator : Replicator)
    (event : ReplicatorEvent) : Prop :=
  (event.addedChannel = some channelId → replicator.dnChannelMap.contains channelId = true) ∧
    ∀ value ∈ replicator.findEntry channelId eventHash, ∀ now ∈ replicator.opinionTime event,
      value.isOutdated now = false

variable {replicator after : Replicator} {channelId : ChannelId} {eventHash : Hash256}
  {event : ReplicatorEvent}

theorem effect_of_step (step : replicatorSystem.step replicator event = some after) :
    StepEffect replicator event after := by
  simp only [replicatorSystem] at step
  split at step
  · cases step
  · exact stepEffect_of_handle step

instance (channelId : ChannelId) (eventHash : Hash256) (replicator : Replicator)
    (event : ReplicatorEvent) : Decidable (KeepsEntry channelId eventHash replicator event) :=
  inferInstanceAs (Decidable (_ ∧ _))

/-! ## Timers -/

/-- No timer of a replicator that is stopped is pending. -/
def StopsTimers (replicator : Replicator) : Prop :=
  replicator.isDestructing = true → ∀ (channelId : ChannelId) (eventHash : Hash256),
    ∀ value ∈ replicator.findEntry channelId eventHash, value.timer ≠ .pending

theorem stopsTimers_step (effect : StepEffect replicator event after)
    (stops : replicator.StopsTimers) : after.StopsTimers := by
  intro stopped channelId eventHash value isEntry
  rcases effect.isDestructing with same | ⟨-, unset⟩
  · have wasStopped : replicator.isDestructing = true := same ▸ stopped
    have noStart : replicator.startTimer = .unset := by rw [startTimer, if_pos wasStopped]
    have before := stops wasStopped channelId eventHash
    have step := effect.entry channelId eventHash
    rw [Option.mem_def] at isEntry
    rw [isEntry] at step
    generalize replicator.findEntry channelId eventHash = entry at before step
    cases step with
    | same => exact before value rfl
    | adds _ grows =>
        cases grows with
        | created isNew =>
            rcases isNew.timer with unset | ⟨isStart, -⟩
            · simp [unset]
            · simp [isStart, noStart]
        | grown grows =>
            rcases grows.timer with unchanged | ⟨isStart, -⟩
            · rw [unchanged]
              exact before _ rfl
            · simp [isStart, noStart]
        | replaced _ isNew =>
            rcases isNew.timer with unset | ⟨isStart, -⟩
            · simp [unset]
            · simp [isStart, noStart]
    | opened _ _ unset => simp [unset value rfl]
    | fails => simp
    | published => simp
    | expires => simp
    | @shares _ earlier => exact before earlier rfl
    | stops => simp
  · simp [unset channelId eventHash value isEntry]

/-- A pending timer has been started with enough opinions. -/
def Quorate (channelId : ChannelId) (eventHash : Hash256) (replicator : Replicator) : Prop :=
  ∀ value ∈ replicator.findEntry channelId eventHash, value.timer = .pending →
    replicator.neededOpinions channelId ≤ value.opinions.size

theorem isSome_of_entry {value : DownloadOpinionMapValue}
    (isEntry : replicator.findEntry channelId eventHash = some value) :
    replicator.dnChannelMap[channelId]?.isSome = true := by
  obtain ⟨channel, isChannel, -⟩ := channel_of_entry isEntry
  rw [isChannel]
  rfl

/-- A new entry does not come out of a channel that was not there, unless it is added. -/
theorem isSome_of_opinionTime {now : Int} {value : DownloadOpinionMapValue}
    (effect : StepEffect replicator event after)
    (isTime : replicator.opinionTime event = some now)
    (isEntry : after.findEntry channelId eventHash = some value) :
    replicator.dnChannelMap[channelId]?.isSome = true := by
  have notAdded : event.addedChannel ≠ some channelId := by
    cases event with
    | addDownloadChannelInfo => cases isTime
    | _ => exact fun added => by cases added
  cases isChannel : replicator.dnChannelMap[channelId]? with
  | some channel => rfl
  | none =>
      have absent := effect.channel channelId notAdded isChannel
      have present := isSome_of_entry isEntry
      simp [absent] at present

theorem quorate_step (effect : StepEffect replicator event after)
    (steady : ¬ event.ChangesNeeded channelId) (quorate : replicator.Quorate channelId eventHash) :
    after.Quorate channelId eventHash := by
  intro value isEntry pending
  rw [Option.mem_def] at isEntry
  have needed (present : replicator.dnChannelMap[channelId]?.isSome = true) :
      after.neededOpinions channelId = replicator.neededOpinions channelId :=
    effect.needed channelId steady present (isSome_of_entry isEntry)
  have step := effect.entry channelId eventHash
  rw [isEntry] at step
  cases before : replicator.findEntry channelId eventHash with
  | none =>
      rw [before] at step
      cases step with
      | adds isTime grows =>
          rw [needed (isSome_of_opinionTime effect isTime isEntry)]
          cases grows with
          | created isNew =>
              rcases isNew.timer with unset | ⟨-, enough⟩
              · simp [unset] at pending
              · exact enough
      | opened _ _ unset => simp [unset value rfl] at pending
  | some earlier =>
      rw [needed (isSome_of_entry before)]
      have enough := quorate earlier before
      rw [before] at step
      cases step with
      | same => exact enough pending
      | adds _ grows =>
          cases grows with
          | grown grows =>
              rcases grows.timer with unchanged | ⟨-, isEnough⟩
              · exact (enough (unchanged ▸ pending)).trans grows.size
              · exact isEnough
          | replaced _ isNew =>
              rcases isNew.timer with unset | ⟨-, isEnough⟩
              · simp [unset] at pending
              · exact isEnough
      | fails => cases pending
      | published => cases pending
      | expires => cases pending
      | shares => exact enough pending
      | stops => cases pending

/-! ## Entries without a further approval -/

/-- Nothing more is made ready of the entry: its approval was published or, unless it may
    fail, made ready before. -/
def IsOver (mayFail : Prop) (value : DownloadOpinionMapValue) : Prop :=
  value.approveTransactionReceived = true ∨ ¬ mayFail ∧ value.modifyApproveTransactionSent = true

/-- The entry is over, or it cannot come back, or no timers are started any more. -/
def Silent (mayFail : Prop) (channelId : ChannelId) (eventHash : Hash256)
    (replicator : Replicator) : Prop :=
  replicator.isDestructing = true ∨ replicator.dnChannelMap[channelId]? = none ∨
    ∃ value, replicator.findEntry channelId eventHash = some value ∧ IsOver mayFail value

theorem silent_step {mayFail : Prop} (effect : StepEffect replicator event after)
    (keeps : KeepsEntry channelId eventHash replicator event)
    (noFailure : mayFail ∨ event ≠ .approvalFailedInvalidOpinions eventHash channelId)
    (silent : replicator.Silent mayFail channelId eventHash) :
    after.Silent mayFail channelId eventHash := by
  rcases silent with stopped | noChannel | ⟨value, isEntry, isOver⟩
  · rcases effect.isDestructing with same | ⟨isStopped, -⟩
    · exact .inl (same.trans stopped)
    · exact .inl isStopped
  · have notAdded : event.addedChannel ≠ some channelId := by
      intro added
      have present := keeps.1 added
      rw [Std.TreeMap.contains_eq_isSome_getElem?, noChannel] at present
      cases present
    exact .inr (.inl (effect.channel channelId notAdded noChannel))
  · have kept := keeps.2 value isEntry
    have step := effect.entry channelId eventHash
    rw [isEntry] at step
    generalize isLater : after.findEntry channelId eventHash = later at step
    have remains (value : DownloadOpinionMapValue) (isValue : later = some value)
        (done : IsOver mayFail value) : after.Silent mayFail channelId eventHash :=
      .inr (.inr ⟨value, isLater.trans isValue, done⟩)
    cases step with
    | same => exact remains value rfl isOver
    | adds isTime grows =>
        cases grows with
        | grown grows =>
            apply remains _ rfl
            rw [IsOver, grows.received, grows.sent]
            exact isOver
        | purged outdated => simp [kept _ isTime] at outdated
        | replaced outdated => simp [kept _ isTime] at outdated
    | closed noChannel => exact .inr (.inl noChannel)
    | fails unpublished =>
        rcases isOver with published | ⟨lasting, -⟩
        · simp [unpublished] at published
        · rcases noFailure with fails | different
          · exact absurd fails lasting
          · exact absurd rfl different
    | published => exact remains _ rfl (.inl rfl)
    | expires =>
        apply remains _ rfl
        rcases isOver with published | ⟨lasting, sent⟩
        · exact .inl published
        · exact .inr ⟨lasting, by simp [sent]⟩
    | shares => exact remains _ rfl isOver
    | stops => exact remains _ rfl isOver

/-! ## What is made ready -/

theorem findEntry_of_setEntry {value : DownloadOpinionMapValue}
    (isEntry : replicator.findEntry channelId eventHash = some value)
    (later : DownloadOpinionMapValue) :
    (replicator.setEntry channelId eventHash later).findEntry channelId eventHash = some later :=
  (changesEntry_setEntry isEntry).isEntry

theorem readyApprovals_setEntry (replicator : Replicator) (channelId : ChannelId)
    (eventHash : Hash256) (value : DownloadOpinionMapValue) :
    (replicator.setEntry channelId eventHash value).readyApprovals = replicator.readyApprovals := by
  unfold setEntry
  split <;> rfl

/-- The timer of an entry that expires makes an approval ready, unless the entry is over. -/
theorem readyApprovals_expired {value : DownloadOpinionMapValue}
    (isEntry : replicator.findEntry channelId eventHash = some value) :
    ((replicator.setEntry channelId eventHash
      { value with timer := .expired }).onDownloadApprovalTimeExpired channelId
        eventHash).readyApprovals = replicator.readyApprovals ++
      if value.modifyApproveTransactionSent || value.approveTransactionReceived then []
      else [value.transactionInfo] := by
  have isExpired := findEntry_of_setEntry isEntry { value with timer := .expired }
  unfold onDownloadApprovalTimeExpired
  simp only [isExpired]
  split
  · rw [readyApprovals_setEntry, List.append_nil]
  · rw [readyApprovals_setEntry, readyApprovals_setEntry]
    rfl

theorem findEntry_expired {value : DownloadOpinionMapValue}
    (isEntry : replicator.findEntry channelId eventHash = some value)
    (unsent : value.modifyApproveTransactionSent = false)
    (unpublished : value.approveTransactionReceived = false) :
    ((replicator.setEntry channelId eventHash
      { value with timer := .expired }).onDownloadApprovalTimeExpired channelId
        eventHash).findEntry channelId eventHash =
      some { value with timer := .expired, modifyApproveTransactionSent := true } := by
  have isExpired := findEntry_of_setEntry isEntry { value with timer := .expired }
  have logged (readyApprovals : List DownloadApprovalTransactionInfo) :
      findEntry { replicator.setEntry channelId eventHash { value with timer := .expired } with
        readyApprovals } channelId eventHash = some { value with timer := .expired } :=
    isExpired
  unfold onDownloadApprovalTimeExpired
  simp only [isExpired]
  rw [if_neg (by simp [unsent, unpublished])]
  exact (changesEntry_setEntry (logged _)).isEntry

/-- What is made ready of an entry: by its timer, which was pending, if it was not over. -/
theorem madeReadyFor_cases (replicator : Replicator) (channelId : ChannelId) (eventHash : Hash256)
    (event : ReplicatorEvent) :
    replicator.madeReadyFor channelId eventHash event = [] ∨
      ∃ value, event = .downloadApprovalTimerExpired channelId eventHash ∧
        replicator.findEntry channelId eventHash = some value ∧ value.timer = .pending ∧
        value.modifyApproveTransactionSent = false ∧ value.approveTransactionReceived = false ∧
        replicator.madeReadyFor channelId eventHash event = [value.transactionInfo] := by
  cases event with
  | downloadApprovalTimerExpired expiredId expiredHash =>
      simp only [madeReadyFor]
      by_cases isEvent : expiredId = channelId ∧ expiredHash = eventHash
      · rw [if_pos isEvent]
        obtain ⟨rfl, rfl⟩ := isEvent
        cases step : replicatorSystem.step replicator
            (.downloadApprovalTimerExpired expiredId expiredHash) with
        | none =>
            left
            simp only [madeReady, step]
        | some after =>
            have handled := step
            simp only [replicatorSystem] at handled
            split at handled
            · cases handled
            · simp only [handle] at handled
              split at handled
              · cases handled
              · rename_i value isEntry
                split at handled
                · rename_i pending
                  obtain rfl := Option.some.inj handled
                  simp only [madeReady, step, readyApprovals_expired isEntry, List.drop_left]
                  by_cases ended : value.modifyApproveTransactionSent = true ∨
                      value.approveTransactionReceived = true
                  · left
                    rw [if_pos (by simpa using ended)]
                  · right
                    have notOver : value.modifyApproveTransactionSent = false ∧
                        value.approveTransactionReceived = false := by simpa using ended
                    refine ⟨value, trivial, isEntry, pending, notOver.1, notOver.2, ?_⟩
                    rw [if_neg (by simpa using ended)]
                · cases handled
      · left
        rw [if_neg isEvent]
  | _ => exact .inl rfl

theorem madeReadyFor_of_silent {mayFail : Prop} (stops : replicator.StopsTimers)
    (silent : replicator.Silent mayFail channelId eventHash) (event : ReplicatorEvent) :
    replicator.madeReadyFor channelId eventHash event = [] := by
  rcases madeReadyFor_cases replicator channelId eventHash event with
    nothing | ⟨value, -, isEntry, pending, unsent, unpublished, -⟩
  · exact nothing
  · exfalso
    rcases silent with stopped | noChannel | ⟨other, isOther, isOver⟩
    · exact stops stopped channelId eventHash value isEntry pending
    · obtain ⟨channel, isChannel, -⟩ := channel_of_entry isEntry
      simp [noChannel] at isChannel
    · obtain rfl := Option.some.inj (isEntry.symm.trans isOther)
      rcases isOver with published | ⟨-, sent⟩
      · simp [unpublished] at published
      · simp [unsent] at sent

/-- After an approval was made ready the entry is over until it fails. -/
theorem silent_of_madeReady (step : replicatorSystem.step replicator event = some after)
    (isReady : replicator.madeReadyFor channelId eventHash event ≠ []) :
    after.Silent False channelId eventHash := by
  rcases madeReadyFor_cases replicator channelId eventHash event with
    nothing | ⟨value, rfl, isEntry, pending, unsent, unpublished, -⟩
  · exact absurd nothing isReady
  · simp only [replicatorSystem, handle, isEntry, pending, if_true] at step
    split at step
    · cases step
    · obtain rfl := Option.some.inj step
      refine .inr (.inr ⟨_, findEntry_expired isEntry unsent unpublished, .inr ⟨?_, rfl⟩⟩)
      exact fun never => never

theorem silent_of_published {channelMustBeClosed : Bool}
    (step : replicatorSystem.step replicator
      (.approvalPublished eventHash channelId channelMustBeClosed) = some after)
    (isEntry : (replicator.findEntry channelId eventHash).isSome = true) :
    after.Silent True channelId eventHash := by
  simp only [replicatorSystem, handle] at step
  split at step
  · cases step
  · obtain rfl := Option.some.inj step
    unfold onApprovalPublished
    split
    · rename_i stopped
      exact .inl stopped
    · split
      · refine .inr (.inl ?_)
        simp
      · obtain ⟨value, isValue⟩ := Option.isSome_iff_exists.mp isEntry
        simp only [isValue]
        exact .inr (.inr ⟨_, (changesEntry_setEntry isValue).isEntry, .inl rfl⟩)

/-! ## Runs -/

theorem trace_of_silent {mayFail : Prop} {events : List ReplicatorEvent}
    (stops : replicator.StopsTimers) (silent : replicator.Silent mayFail channelId eventHash)
    (keeps : replicatorSystem.Meets (KeepsEntry channelId eventHash) replicator events)
    (noFailure : mayFail ∨
      ∀ event ∈ events, event ≠ .approvalFailedInvalidOpinions eventHash channelId) :
    replicatorSystem.trace (madeReadyFor channelId eventHash) replicator events = [] := by
  induction events generalizing replicator with
  | nil => rfl
  | cons event events ih =>
      cases step : replicatorSystem.step replicator event with
      | none => simp only [Transition.trace, step]
      | some after =>
          have effect := effect_of_step step
          rw [Transition.trace_cons step, madeReadyFor_of_silent stops silent, List.nil_append]
          apply ih
          · exact stopsTimers_step effect stops
          · exact silent_step effect keeps.1 (noFailure.imp id fun none => none event (by simp)) silent
          · exact keeps.2 after step
          · exact noFailure.imp id fun none other isLater => none other (by simp [isLater])

/-- At most one approval of an entry is made ready while it does not fail. -/
theorem length_trace_madeReadyFor {events : List ReplicatorEvent} (stops : replicator.StopsTimers)
    (keeps : replicatorSystem.Meets (KeepsEntry channelId eventHash) replicator events)
    (noFailure : ∀ event ∈ events, event ≠ .approvalFailedInvalidOpinions eventHash channelId) :
    (replicatorSystem.trace (madeReadyFor channelId eventHash) replicator events).length ≤ 1 := by
  induction events generalizing replicator with
  | nil => simp [Transition.trace]
  | cons event events ih =>
      have noneLater : ∀ event ∈ events,
          event ≠ .approvalFailedInvalidOpinions eventHash channelId := by
        intro other isLater
        exact noFailure other (by simp [isLater])
      cases step : replicatorSystem.step replicator event with
      | none => simp [Transition.trace, step]
      | some after =>
          have stopsLater := stopsTimers_step (effect_of_step step) stops
          have keepsLater := keeps.2 after step
          rw [Transition.trace_cons step]
          by_cases nothing : replicator.madeReadyFor channelId eventHash event = []
          · rw [nothing, List.nil_append]
            exact ih stopsLater keepsLater noneLater
          · rw [trace_of_silent stopsLater (silent_of_madeReady step nothing) keepsLater
              (.inr noneLater), List.append_nil]
            rcases madeReadyFor_cases replicator channelId eventHash event with
              isNil | ⟨value, -, -, -, -, -, one⟩
            · exact absurd isNil nothing
            · rw [one, List.length_singleton]

theorem stopsTimers_of_exec {events : List ReplicatorEvent} (stops : replicator.StopsTimers)
    (run : replicatorSystem.exec replicator events = some after) : after.StopsTimers :=
  Transition.invariant_of_step (fun _ _ _ stops step => stopsTimers_step (effect_of_step step) stops)
    stops run

theorem quorate_of_exec {events : List ReplicatorEvent}
    (quorate : replicator.Quorate channelId eventHash)
    (steady : ∀ event ∈ events, ¬ event.ChangesNeeded channelId)
    (run : replicatorSystem.exec replicator events = some after) :
    after.Quorate channelId eventHash :=
  Transition.invariant
    (fun _ _ _ quorate steady step => quorate_step (effect_of_step step) steady quorate) quorate
    (Transition.meets_of_forall steady) run

def sampleOpinionOf (replicatorKey : ReplicatorKey) : DownloadApprovalTransactionInfo where
  blockHash := 50
  downloadChannelId := 40
  opinions := [⟨replicatorKey, []⟩]

/-- Our opinion comes together with two others. -/
def untilEnoughOpinions : List ReplicatorEvent :=
  untilShared ++ [.downloadOpinionReceived 1 (sampleOpinionOf 2),
    .downloadOpinionReceived 2 (sampleOpinionOf 3)]

/-- The timer expires, another opinion comes late, and the approval is published. -/
def untilPublished : List ReplicatorEvent :=
  [.downloadApprovalTimerExpired 40 50, .downloadOpinionReceived 3 (sampleOpinionOf 2),
    .approvalPublished 50 40 false]

end Replicator

end SiriusDrive
