import SiriusDrive.Lib.MapLookup
import SiriusDrive.Lib.Transition
import SiriusDrive.Types

/-! # The endpoints of replicators and clients

`EndpointsManager` keeps the endpoints of the keys it has been asked for in one map, and
those of keys that nobody has asked for in another. A query that comes back to a key with an
endpoint takes the branch for new keys.
-/

namespace SiriusDrive

/-- `boost::asio::ip::address`. -/
inductive IpAddress where
  | v4 (address : BitVec 32)
  | v6 (address : BitVec 128) (scopeId : BitVec 32)
  deriving Repr, DecidableEq

/-- `boost::asio::ip::udp::endpoint`. -/
structure UdpEndpoint where
  address : IpAddress
  port : BitVec 16
  deriving Repr, DecidableEq

/-- `isValid`: the address is not the one of any host. -/
def UdpEndpoint.isValid (ep : UdpEndpoint) : Bool :=
  match ep.address with
  | .v4 address => address ≠ 0
  | .v6 address scopeId => address ≠ 0 || scopeId ≠ 0

structure EndpointInformation where
  endpoint : Option UdpEndpoint := none
  timer : Timer := .unset
  deriving Repr, DecidableEq

/-- `EndpointsManager`, without what it does for its own external endpoint. -/
structure EndpointsManager where
  endpointsMap : Std.TreeMap Key EndpointInformation := ∅
  unknownEndpointsMap : Std.TreeMap Key UdpEndpoint := ∅
  /-- `m_session` refers to a session. -/
  session : Bool := false
  /-- The keys `findAddress` of the session was called for. -/
  requested : List Key := []
  hasEndpointHandler : Bool := false
  /-- The calls of the endpoint handler. -/
  handled : List (Key × UdpEndpoint) := []

namespace EndpointsManager

variable (manager : EndpointsManager)

/-- The constructor; the own key is among those of the bootstraps. -/
def create (bootstraps : List (UdpEndpoint × Key)) : EndpointsManager where
  endpointsMap := bootstraps.foldl (fun endpointsMap bootstrap =>
    endpointsMap.insert bootstrap.2 { endpoint := some bootstrap.1 }) ∅

def requestEndpoint (key : Key) : EndpointsManager :=
  if manager.session then { manager with requested := manager.requested ++ [key] } else manager

/-- `m_endpointsMap[key]`, which is made when it is not there. -/
def information (key : Key) : EndpointInformation := manager.endpointsMap[key]?.getD {}

def addEndpointQuery (key : Key) (shouldRequestEndpoint : Bool) : EndpointsManager :=
  if manager.endpointsMap.contains key ∧ (manager.information key).endpoint = none ∧
      shouldRequestEndpoint then
    manager.requestEndpoint key
  else
    match manager.unknownEndpointsMap[key]? with
    | some endpoint =>
        { manager with
          endpointsMap := manager.endpointsMap.insert key
            { manager.information key with endpoint := some endpoint }
          unknownEndpointsMap := manager.unknownEndpointsMap.erase key }
    | none =>
        let manager := { manager with endpointsMap := manager.endpointsMap.insert key {} }
        if shouldRequestEndpoint then manager.requestEndpoint key else manager

def addEndpointQueries (keys : List Key) (shouldRequestEndpoint : Bool) : EndpointsManager :=
  keys.foldl (·.addEndpointQuery · shouldRequestEndpoint) manager

/-- The answer for a key came without a valid endpoint; it is asked for again later. -/
def retryLater (key : Key) : EndpointsManager :=
  if manager.session then
    { manager with
      endpointsMap := manager.endpointsMap.insert key
        { manager.information key with timer := .pending } }
  else manager

def onEndpointDiscovered (key : Key) (endpoint : Option UdpEndpoint) : EndpointsManager :=
  match endpoint with
  | none => manager.retryLater key
  | some endpoint =>
      if !endpoint.isValid then manager.retryLater key
      else
        match manager.endpointsMap[key]? with
        | some information =>
            { manager with
              handled :=
                if manager.hasEndpointHandler && information.endpoint ≠ some endpoint then
                  manager.handled ++ [(key, endpoint)]
                else manager.handled
              endpointsMap := manager.endpointsMap.insert key
                { endpoint := some endpoint, timer := information.timer.cancel } }
        | none =>
            { manager with
              unknownEndpointsMap := manager.unknownEndpointsMap.insert key endpoint }

def getEndpoint (key : Key) : Option UdpEndpoint :=
  match manager.endpointsMap[key]? with
  | none => none
  | some information => information.endpoint.filter (·.isValid)

end EndpointsManager

inductive EndpointsEvent where
  | setEndpointHandler
  | sessionStarted
  | sessionExpired
  | addEndpointQuery (key : Key) (shouldRequestEndpoint : Bool)
  | addEndpointQueries (keys : List Key) (shouldRequestEndpoint : Bool)
  | endpointDiscovered (key : Key) (endpoint : Option UdpEndpoint)
  | timerExpired (key : Key)

namespace EndpointsManager

def expireTimer (manager : EndpointsManager) (key : Key) : Option EndpointsManager :=
  match manager.endpointsMap[key]? with
  | some information =>
      if information.timer = .pending then
        some ({ manager with
          endpointsMap := manager.endpointsMap.insert key
            { information with timer := .expired } }.requestEndpoint key)
      else none
  | none => none

def endpointsSystem : Transition EndpointsManager EndpointsEvent where
  step manager event :=
    match event with
    | .setEndpointHandler => some { manager with hasEndpointHandler := true }
    | .sessionStarted => some { manager with session := true }
    | .sessionExpired => some { manager with session := false }
    | .addEndpointQuery key shouldRequestEndpoint =>
        some (manager.addEndpointQuery key shouldRequestEndpoint)
    | .addEndpointQueries keys shouldRequestEndpoint =>
        some (manager.addEndpointQueries keys shouldRequestEndpoint)
    | .endpointDiscovered key endpoint => some (manager.onEndpointDiscovered key endpoint)
    | .timerExpired key => manager.expireTimer key

/-- Endpoints that nobody has asked for are valid. -/
def ValidUnknown (manager : EndpointsManager) : Prop :=
  ∀ (key : Key) (endpoint : UdpEndpoint),
    manager.unknownEndpointsMap[key]? = some endpoint → endpoint.isValid = true

/-- The keys that have an endpoint keep one. -/
def KeepsEndpoints (manager : EndpointsManager) (event : EndpointsEvent) : Prop :=
  ∀ after, endpointsSystem.step manager event = some after →
    ∀ key, (manager.getEndpoint key).isSome = true → (after.getEndpoint key).isSome = true

/-- How often a key with an endpoint may be asked for: once when another endpoint has come
    before anyone asked for the key, and otherwise never. -/
def spareQueries (manager : EndpointsManager) (key : Key) : Nat :=
  if manager.unknownEndpointsMap.contains key then 1 else 0

/-- The queries ask for keys with an endpoint only as often as there is one to spare. -/
def AsksForMissing (manager : EndpointsManager) : EndpointsEvent → Prop
  | .addEndpointQuery key _ =>
      (manager.getEndpoint key).isSome = true → 1 ≤ manager.spareQueries key
  | .addEndpointQueries keys _ =>
      ∀ key ∈ keys, (manager.getEndpoint key).isSome = true →
        keys.count key ≤ manager.spareQueries key
  | _ => True

instance (manager : EndpointsManager) (event : EndpointsEvent) :
    Decidable (manager.AsksForMissing event) := by
  cases event <;> unfold AsksForMissing <;> infer_instance

section Queries

variable {manager : EndpointsManager} {key other : Key}

@[simp] theorem getEndpoint_requestEndpoint (key : Key) :
    (manager.requestEndpoint key).getEndpoint other = manager.getEndpoint other := by
  unfold requestEndpoint
  split <;> rfl

@[simp] theorem unknownEndpointsMap_requestEndpoint (key : Key) :
    (manager.requestEndpoint key).unknownEndpointsMap = manager.unknownEndpointsMap := by
  unfold requestEndpoint
  split <;> rfl

theorem getEndpoint_of_insert (manager : EndpointsManager) {after : EndpointsManager}
    {information : EndpointInformation}
    (isMap : after.endpointsMap = manager.endpointsMap.insert key information) :
    after.getEndpoint other =
      if other = key then information.endpoint.filter (·.isValid)
      else manager.getEndpoint other := by
  unfold getEndpoint
  rw [isMap, Std.TreeMap.getElem?_insert_eq]
  by_cases same : other = key
  · rw [if_pos same, if_pos same]
  · rw [if_neg same, if_neg same]

theorem getEndpoint_addEndpointQuery_of_ne (shouldRequestEndpoint : Bool) (apart : other ≠ key) :
    (manager.addEndpointQuery key shouldRequestEndpoint).getEndpoint other =
      manager.getEndpoint other := by
  unfold addEndpointQuery
  split
  · exact getEndpoint_requestEndpoint key
  · split
    · exact (getEndpoint_of_insert manager rfl).trans (if_neg apart)
    · dsimp only
      split
      · rw [getEndpoint_requestEndpoint]
        exact (getEndpoint_of_insert manager rfl).trans (if_neg apart)
      · exact (getEndpoint_of_insert manager rfl).trans (if_neg apart)

theorem spareQueries_addEndpointQuery_of_ne (shouldRequestEndpoint : Bool) (apart : other ≠ key) :
    (manager.addEndpointQuery key shouldRequestEndpoint).spareQueries other =
      manager.spareQueries other := by
  unfold addEndpointQuery spareQueries
  split
  · rw [unknownEndpointsMap_requestEndpoint]
  · split
    · simp only [Std.TreeMap.contains_eq_isSome_getElem?, Std.TreeMap.getElem?_erase_eq,
        if_neg apart]
    · dsimp only
      split
      · rw [unknownEndpointsMap_requestEndpoint]
      · rfl

theorem not_isSome_of_endpoint_none (isNone : (manager.information key).endpoint = none) :
    (manager.getEndpoint key).isSome = false := by
  unfold information at isNone
  unfold getEndpoint
  cases found : manager.endpointsMap[key]? with
  | none => rfl
  | some information =>
      rw [found] at isNone
      simp only [Option.getD_some] at isNone
      simp only [isNone, Option.filter_none, Option.isSome_none]

/-- A query for a key with an endpoint uses up the one that is to spare. -/
theorem addEndpointQuery_of_known (shouldRequestEndpoint : Bool) (valid : manager.ValidUnknown)
    (known : (manager.getEndpoint key).isSome = true) :
    (((manager.addEndpointQuery key shouldRequestEndpoint).getEndpoint key).isSome = true ↔
      1 ≤ manager.spareQueries key) ∧
        (manager.addEndpointQuery key shouldRequestEndpoint).spareQueries key = 0 := by
  have isSet : ¬ (manager.information key).endpoint = none := by
    intro isNone
    rw [not_isSome_of_endpoint_none isNone] at known
    exact absurd known (by simp)
  unfold addEndpointQuery
  rw [if_neg (fun missing => isSet missing.2.1)]
  cases found : manager.unknownEndpointsMap[key]? with
  | some endpoint =>
      have spare : manager.spareQueries key = 1 := by
        rw [spareQueries, Std.TreeMap.contains_eq_isSome_getElem?, found]
        rfl
      constructor
      · rw [getEndpoint_of_insert manager rfl, spare]
        simp [valid key endpoint found]
      · rw [spareQueries, Std.TreeMap.contains_eq_isSome_getElem?, Std.TreeMap.getElem?_erase_eq]
        simp
  | none =>
      have spare : manager.spareQueries key = 0 := by
        rw [spareQueries, Std.TreeMap.contains_eq_isSome_getElem?, found]
        rfl
      have forgotten : ({ manager with
          endpointsMap := manager.endpointsMap.insert key {} } : EndpointsManager).getEndpoint key =
            none := by
        rw [getEndpoint_of_insert manager rfl]
        simp
      dsimp only
      split
      · rw [getEndpoint_requestEndpoint, forgotten, spare, spareQueries,
          unknownEndpointsMap_requestEndpoint]
        exact ⟨by simp, spare⟩
      · rw [forgotten, spare]
        exact ⟨by simp, spare⟩

/-- A key that has lost its endpoint is not found again by asking for it. -/
theorem addEndpointQuery_of_missing (shouldRequestEndpoint : Bool)
    (missing : (manager.getEndpoint key).isSome = false)
    (noSpare : manager.spareQueries key = 0) :
    ((manager.addEndpointQuery key shouldRequestEndpoint).getEndpoint key).isSome = false ∧
      (manager.addEndpointQuery key shouldRequestEndpoint).spareQueries key = 0 := by
  have absent : manager.unknownEndpointsMap[key]? = none := by
    rw [spareQueries, Std.TreeMap.contains_eq_isSome_getElem?] at noSpare
    cases found : manager.unknownEndpointsMap[key]? with
    | none => rfl
    | some endpoint => simp [found] at noSpare
  have forgotten : ({ manager with
      endpointsMap := manager.endpointsMap.insert key {} } : EndpointsManager).getEndpoint key =
        none := by
    rw [getEndpoint_of_insert manager rfl]
    simp
  unfold addEndpointQuery
  split
  · rw [getEndpoint_requestEndpoint, spareQueries, unknownEndpointsMap_requestEndpoint]
    exact ⟨missing, noSpare⟩
  · rw [absent]
    dsimp only
    split
    · rw [getEndpoint_requestEndpoint, forgotten, spareQueries,
        unknownEndpointsMap_requestEndpoint]
      exact ⟨rfl, noSpare⟩
    · rw [forgotten]
      exact ⟨rfl, noSpare⟩

theorem ValidUnknown.addEndpointQuery (valid : manager.ValidUnknown) (key : Key)
    (shouldRequestEndpoint : Bool) :
    (manager.addEndpointQuery key shouldRequestEndpoint).ValidUnknown := by
  unfold EndpointsManager.addEndpointQuery ValidUnknown
  split
  · rw [unknownEndpointsMap_requestEndpoint]
    exact valid
  · split
    · intro other endpoint isUnknown
      rw [Std.TreeMap.getElem?_erase_eq] at isUnknown
      split at isUnknown
      · simp at isUnknown
      · exact valid other endpoint isUnknown
    · dsimp only
      split
      · rw [unknownEndpointsMap_requestEndpoint]
        exact valid
      · exact valid

theorem ValidUnknown.addEndpointQueries (valid : manager.ValidUnknown) (keys : List Key)
    (shouldRequestEndpoint : Bool) :
    (manager.addEndpointQueries keys shouldRequestEndpoint).ValidUnknown := by
  induction keys generalizing manager with
  | nil => exact valid
  | cons key rest ih => exact ih (valid.addEndpointQuery key shouldRequestEndpoint)

theorem addEndpointQueries_of_missing (shouldRequestEndpoint : Bool) (keys : List Key)
    (missing : (manager.getEndpoint key).isSome = false)
    (noSpare : manager.spareQueries key = 0) :
    ((manager.addEndpointQueries keys shouldRequestEndpoint).getEndpoint key).isSome = false := by
  induction keys generalizing manager with
  | nil => exact missing
  | cons asked rest ih =>
      by_cases same : key = asked
      · subst same
        obtain ⟨stillMissing, stillNone⟩ := addEndpointQuery_of_missing shouldRequestEndpoint
          missing noSpare
        exact ih stillMissing stillNone
      · refine ih ?_ ?_
        · rw [getEndpoint_addEndpointQuery_of_ne _ same, missing]
        · rw [spareQueries_addEndpointQuery_of_ne _ same, noSpare]

/-- A key with an endpoint keeps one through as many queries as there are to spare. -/
theorem addEndpointQueries_of_known (shouldRequestEndpoint : Bool) (valid : manager.ValidUnknown)
    (keys : List Key)
    (known : (manager.getEndpoint key).isSome = true) :
    ((manager.addEndpointQueries keys shouldRequestEndpoint).getEndpoint key).isSome = true ↔
      keys.count key ≤ manager.spareQueries key := by
  induction keys generalizing manager with
  | nil => simpa [addEndpointQueries] using known
  | cons asked rest ih =>
      have isCons : manager.addEndpointQueries (asked :: rest) shouldRequestEndpoint =
          (manager.addEndpointQuery asked shouldRequestEndpoint).addEndpointQueries rest
            shouldRequestEndpoint := rfl
      have stillValid := valid.addEndpointQuery asked shouldRequestEndpoint
      rw [isCons]
      by_cases same : asked = key
      · subst same
        obtain ⟨keeps, usedUp⟩ := addEndpointQuery_of_known shouldRequestEndpoint valid
          known
        rw [List.count_cons_self]
        by_cases spare : 1 ≤ manager.spareQueries asked
        · have atMostOne : manager.spareQueries asked ≤ 1 := by
            unfold spareQueries
            split <;> simp
          rw [ih stillValid (keeps.mpr spare), usedUp]
          omega
        · have lost : ((manager.addEndpointQuery asked shouldRequestEndpoint).getEndpoint
              asked).isSome = false := by
            rw [Bool.eq_false_iff]
            exact fun isKnown => spare (keeps.mp isKnown)
          rw [addEndpointQueries_of_missing _ rest lost usedUp]
          simp only [Bool.false_eq_true, false_iff]
          omega
      · rw [List.count_cons_of_ne same, ← spareQueries_addEndpointQuery_of_ne _ (Ne.symm same)]
        refine ih stillValid ?_
        rw [getEndpoint_addEndpointQuery_of_ne _ (Ne.symm same)]
        exact known

end Queries

section Steps

variable {manager : EndpointsManager} {key : Key}

theorem getEndpoint_eq_filter (key : Key) :
    manager.getEndpoint key = (manager.information key).endpoint.filter (·.isValid) := by
  unfold getEndpoint information
  cases manager.endpointsMap[key]? <;> rfl

theorem getEndpoint_of_sameEndpoint (manager : EndpointsManager) {after : EndpointsManager}
    {information : EndpointInformation}
    (isMap : after.endpointsMap = manager.endpointsMap.insert key information)
    (same : information.endpoint = (manager.information key).endpoint) (other : Key) :
    after.getEndpoint other = manager.getEndpoint other := by
  rw [getEndpoint_of_insert manager isMap]
  by_cases isKey : other = key
  · subst isKey
    rw [if_pos rfl, same, getEndpoint_eq_filter]
  · rw [if_neg isKey]

theorem getEndpoint_retryLater (other : Key) :
    (manager.retryLater key).getEndpoint other = manager.getEndpoint other := by
  unfold retryLater
  split
  · have same : { manager.information key with timer := .pending }.endpoint =
        (manager.information key).endpoint := rfl
    exact getEndpoint_of_sameEndpoint manager rfl same other
  · rfl

theorem getEndpoint_expireTimer {after : EndpointsManager}
    (step : manager.expireTimer key = some after) (other : Key) :
    after.getEndpoint other = manager.getEndpoint other := by
  unfold expireTimer at step
  cases found : manager.endpointsMap[key]? with
  | none => simp [found] at step
  | some information =>
      rw [found] at step
      dsimp only at step
      split at step
      · obtain rfl := Option.some.inj step
        rw [getEndpoint_requestEndpoint]
        refine getEndpoint_of_sameEndpoint manager rfl ?_ other
        simp [EndpointsManager.information, found]
      · simp at step

theorem onEndpointDiscovered_keeps (endpoint : Option UdpEndpoint) (other : Key)
    (known : (manager.getEndpoint other).isSome = true) :
    ((manager.onEndpointDiscovered key endpoint).getEndpoint other).isSome = true := by
  unfold onEndpointDiscovered
  split
  · rw [getEndpoint_retryLater]
    exact known
  · rename_i endpoint
    split
    · rw [getEndpoint_retryLater]
      exact known
    · rename_i isValid
      split
      · rw [getEndpoint_of_insert manager rfl]
        split
        · simpa [Option.filter] using isValid
        · exact known
      · exact known

theorem ValidUnknown.onEndpointDiscovered (valid : manager.ValidUnknown) (key : Key)
    (endpoint : Option UdpEndpoint) : (manager.onEndpointDiscovered key endpoint).ValidUnknown := by
  have retried : (manager.retryLater key).ValidUnknown := by
    unfold retryLater
    split
    · exact valid
    · exact valid
  unfold EndpointsManager.onEndpointDiscovered
  split
  · exact retried
  · rename_i endpoint
    split
    · exact retried
    · rename_i isValid
      split
      · exact valid
      · intro other unknown isUnknown
        rw [Std.TreeMap.getElem?_insert_eq] at isUnknown
        split at isUnknown
        · obtain rfl := Option.some.inj isUnknown
          simpa using isValid
        · exact valid other unknown isUnknown

theorem ValidUnknown.step {event : EndpointsEvent} {after : EndpointsManager}
    (valid : manager.ValidUnknown) (step : endpointsSystem.step manager event = some after) :
    after.ValidUnknown := by
  cases event with
  | setEndpointHandler | sessionStarted | sessionExpired =>
      obtain rfl := Option.some.inj step
      exact valid
  | addEndpointQuery key shouldRequestEndpoint =>
      obtain rfl := Option.some.inj step
      exact valid.addEndpointQuery key shouldRequestEndpoint
  | addEndpointQueries keys shouldRequestEndpoint =>
      obtain rfl := Option.some.inj step
      exact valid.addEndpointQueries keys shouldRequestEndpoint
  | endpointDiscovered key endpoint =>
      obtain rfl := Option.some.inj step
      exact valid.onEndpointDiscovered key endpoint
  | timerExpired key =>
      have isUnknown : after.unknownEndpointsMap = manager.unknownEndpointsMap := by
        have expired : manager.expireTimer key = some after := step
        unfold expireTimer at expired
        cases found : manager.endpointsMap[key]? with
        | none => simp [found] at expired
        | some information =>
            rw [found] at expired
            dsimp only at expired
            split at expired
            · obtain rfl := Option.some.inj expired
              rw [unknownEndpointsMap_requestEndpoint]
            · simp at expired
      unfold ValidUnknown
      rw [isUnknown]
      exact valid

/-- A step keeps the known endpoints if and only if it asks for missing ones. -/
theorem keepsEndpoints_iff_asksForMissing (valid : manager.ValidUnknown) (event : EndpointsEvent) :
    manager.KeepsEndpoints event ↔ manager.AsksForMissing event := by
  cases event with
  | setEndpointHandler | sessionStarted | sessionExpired =>
      refine iff_of_true ?_ trivial
      intro after step key known
      obtain rfl := Option.some.inj step
      exact known
  | addEndpointQuery key shouldRequestEndpoint =>
      constructor
      · intro keeps known
        exact (addEndpointQuery_of_known _ valid known).1.mp (keeps _ rfl key known)
      · intro asks after step other known
        obtain rfl := Option.some.inj step
        by_cases same : other = key
        · subst same
          exact (addEndpointQuery_of_known _ valid known).1.mpr (asks known)
        · rw [getEndpoint_addEndpointQuery_of_ne _ same]
          exact known
  | addEndpointQueries keys shouldRequestEndpoint =>
      constructor
      · intro keeps key _ known
        exact (addEndpointQueries_of_known _ valid keys known).mp (keeps _ rfl key known)
      · intro asks after step key known
        obtain rfl := Option.some.inj step
        rw [addEndpointQueries_of_known _ valid keys known]
        by_cases member : key ∈ keys
        · exact asks key member known
        · rw [List.count_eq_zero_of_not_mem member]
          exact Nat.zero_le _
  | endpointDiscovered key endpoint =>
      refine iff_of_true ?_ trivial
      intro after step other known
      obtain rfl := Option.some.inj step
      exact onEndpointDiscovered_keeps endpoint other known
  | timerExpired key =>
      refine iff_of_true ?_ trivial
      intro after step other known
      rw [getEndpoint_expireTimer step]
      exact known

end Steps

theorem validUnknown_create (bootstraps : List (UdpEndpoint × Key)) :
    (create bootstraps).ValidUnknown := by
  intro key endpoint isUnknown
  simp [create] at isUnknown

/-- A run keeps all known endpoints in every step if and only if its queries ask for missing
    ones only. -/
theorem keepsEndpoints_iff (bootstraps : List (UdpEndpoint × Key)) (events : List EndpointsEvent) :
    endpointsSystem.Meets KeepsEndpoints (create bootstraps) events ↔
      endpointsSystem.Meets AsksForMissing (create bootstraps) events :=
  Transition.meets_iff_of_invariant (I := ValidUnknown)
    (fun _ event valid => keepsEndpoints_iff_asksForMissing valid event)
    (fun _ _ _ valid _ step => valid.step step) events (validUnknown_create bootstraps)

/-- A bootstrap node that is also a replicator of an added drive loses its endpoint. -/
theorem bootstrap_loses_endpoint :
    ¬ endpointsSystem.Meets KeepsEndpoints (create [(⟨.v4 1, 7904⟩, 1)])
      [.addEndpointQueries [1] true] := by
  intro meets
  exact absurd (meets.1 _ rfl 1 (by decide +kernel)) (by decide +kernel)

end EndpointsManager

end SiriusDrive
