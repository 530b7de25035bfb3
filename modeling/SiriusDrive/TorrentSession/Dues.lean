import SiriusDrive.Lib.MapLookup
import SiriusDrive.Lib.MapSum
import SiriusDrive.TorrentSession

/-! # Where the notifications of downloads are due

The notification of a download is due at one place at a time: its torrent, a torrent file that
is to be saved, a posted function, or a call that was made. Every step moves it on from place
to place or drops it. A torrent whose metadata was rejected is an exception: its download has
been notified as failed, but nothing keeps it from being reported complete when the library
still flushes it.
-/

namespace SiriusDrive

/-- How often a torrent is still to notify a download. A flushed torrent that stays in the
    session owes nothing any more. -/
def SessionTorrent.owes (notification : Nat) (torrent : SessionTorrent) : Nat :=
  if torrent.userdata.invalidMetadata then 0
  else torrent.userdata.dnContexts.countP fun context =>
    context.downloadNotification == notification &&
      !(context.doNotDeleteTorrent && decide (torrent.userdata.finishStatus = .torrentFlushed))

def SessionTorrent.isFor (notification : Nat) (torrent : SessionTorrent) : Bool :=
  torrent.userdata.dnContexts.head?.any (·.downloadNotification == notification)

def PostedCall.isDownload (notification : Nat) : PostedCall → Bool
  | .endNotification _ => false
  | .downloadComplete _ dnContext => dnContext.downloadNotification == notification

def NotifiedCall.isDownload (notification : Nat) : NotifiedCall → Bool
  | .endNotification _ => false
  | .download _ context _ _ => context.downloadNotification == notification

def NotifiedCall.WithinLimit : NotifiedCall → Prop
  | .download .downloadComplete context downloaded _ =>
      context.downloadLimit = 0 ∨ downloaded ≤ context.downloadLimit
  | _ => True

/-- A torrent with all its data, which was accepted. -/
structure SessionTorrent.IsComplete (torrent : SessionTorrent) : Prop where
  hasMetadata : torrent.hasMetadata = true
  isValid : torrent.userdata.invalidMetadata = false
  isFlushed : torrent.userdata.finishStatus = .torrentFlushed

/-- A torrent without metadata is neither finished nor rejected. -/
def SessionTorrent.Sound (torrent : SessionTorrent) : Prop :=
  torrent.hasMetadata = false →
    torrent.userdata.finishStatus = .torrentAdded ∧ torrent.userdata.invalidMetadata = false

/-- A torrent of one download that was accepted is within the limit. -/
structure SessionTorrent.Fits (torrent : SessionTorrent) : Prop where
  single : torrent.userdata.dnContexts.length ≤ 1
  fits : torrent.userdata.invalidMetadata = false → ∀ context ∈ torrent.userdata.dnContexts,
    context.downloadLimit = 0 ∨ torrent.userdata.uploadedDataSize ≤ context.downloadLimit

/-- What the notifications depend on is as it was. -/
structure SessionTorrent.Keeps (torrent after : SessionTorrent) : Prop where
  hasMetadata : after.hasMetadata = torrent.hasMetadata
  dnContexts : after.userdata.dnContexts = torrent.userdata.dnContexts
  invalidMetadata : after.userdata.invalidMetadata = torrent.userdata.invalidMetadata
  finishStatus : after.userdata.finishStatus = torrent.userdata.finishStatus
  uploadedDataSize : after.userdata.uploadedDataSize = torrent.userdata.uploadedDataSize

/-- What a torrent of a session may become. -/
structure SessionTorrent.Follows (torrent after : SessionTorrent) : Prop where
  sound : torrent.Sound → after.Sound
  grows : torrent.userdata.dnContexts <+: after.userdata.dnContexts
  complete : torrent.IsComplete → after.IsComplete

namespace SessionTorrent.Keeps

variable {torrent after : SessionTorrent} (keeps : torrent.Keeps after)

include keeps

theorem owes (notification : Nat) : after.owes notification = torrent.owes notification := by
  simp only [SessionTorrent.owes, keeps.dnContexts, keeps.invalidMetadata, keeps.finishStatus]

theorem isFor (notification : Nat) : after.isFor notification = torrent.isFor notification := by
  simp only [SessionTorrent.isFor, keeps.dnContexts]

theorem follows : torrent.Follows after where
  sound := by
    simp only [SessionTorrent.Sound, keeps.hasMetadata, keeps.finishStatus, keeps.invalidMetadata,
      imp_self]
  grows := by simp [keeps.dnContexts]
  complete isComplete :=
    ⟨keeps.hasMetadata.trans isComplete.hasMetadata,
      keeps.invalidMetadata.trans isComplete.isValid,
      keeps.finishStatus.trans isComplete.isFlushed⟩

theorem fits (fits : torrent.Fits) : after.Fits where
  single := by
    rw [keeps.dnContexts]
    exact fits.single
  fits := by
    rw [keeps.dnContexts, keeps.invalidMetadata, keeps.uploadedDataSize]
    exact fits.fits

end SessionTorrent.Keeps

namespace TorrentSession

variable (session : TorrentSession)

def isFor (notification : Nat) (handle : LtHandle) : Bool :=
  session.torrents[handle]?.any (SessionTorrent.isFor notification)

/-- How often a download is notified or still to be notified. -/
def due (notification : Nat) : Nat :=
  session.torrents.sumOf (fun _ torrent => torrent.owes notification) +
    session.savings.countP (session.isFor notification) +
    session.posted.countP (·.isDownload notification) +
    session.called.countP (·.isDownload notification)

/-- What holds of the torrents of a session and of the jobs for them. -/
structure Sound : Prop where
  torrents : ∀ (handle : LtHandle) (torrent : SessionTorrent),
    session.torrents[handle]? = some torrent → torrent.Sound
  known : ∀ (handle : LtHandle) (torrent : SessionTorrent),
    session.torrents[handle]? = some torrent → handle < session.added
  savings : ∀ handle ∈ session.savings, handle < session.added ∧
    ∀ torrent : SessionTorrent, session.torrents[handle]? = some torrent →
      torrent.IsComplete ∧ torrent.userdata.dnContexts ≠ []
  posted : ∀ handle dnContext, .downloadComplete handle dnContext ∈ session.posted →
    handle < session.added ∧ ∀ torrent : SessionTorrent,
      session.torrents[handle]? = some torrent →
      torrent.IsComplete ∧ dnContext ∈ torrent.userdata.dnContexts

/-- The downloads that were reported complete are within their limits, and the others will be. -/
structure Fits : Prop where
  torrents : ∀ (handle : LtHandle) (torrent : SessionTorrent),
    session.torrents[handle]? = some torrent → torrent.Fits
  called : ∀ call ∈ session.called, call.WithinLimit

/-- A step that starts no download. -/
structure MovesOn (session after : TorrentSession) : Prop where
  sound : after.Sound
  due : ∀ notification, after.due notification ≤ session.due notification
  fits : session.Fits → after.Fits
  downloads : after.downloads = session.downloads

/-- The library flushes no torrent whose metadata was rejected. -/
def FlushesValid : TorrentEvent → Bool
  | .cacheFlushed handle => session.torrents[handle]?.all (!·.userdata.invalidMetadata)
  | _ => true

/-- A download has a torrent of its own. -/
def StartsAnew : TorrentEvent → Bool
  | .download infoHash _ _ _ _ _ => (session.torrentOf infoHash).isNone
  | _ => true

variable {session} {handle : LtHandle} {torrent changed : SessionTorrent} {notification : Nat}

theorem isFor_of_grows (grows : torrent.userdata.dnContexts <+: changed.userdata.dnContexts)
    (nonempty : torrent.userdata.dnContexts ≠ []) :
    changed.isFor notification = torrent.isFor notification := by
  obtain ⟨rest, isAll⟩ := grows
  cases first : torrent.userdata.dnContexts with
  | nil => exact absurd first nonempty
  | cons context contexts => simp [SessionTorrent.isFor, ← isAll, first]

theorem Sound.due_setTorrent (sound : session.Sound) (notification : Nat)
    (found : session.torrents[handle]? = some torrent)
    (grows : torrent.userdata.dnContexts <+: changed.userdata.dnContexts) :
    (session.setTorrent handle changed).due notification + torrent.owes notification =
      session.due notification + changed.owes notification := by
  have weights := Std.TreeMap.sumOf_eq_sumExcept session.torrents
    (fun _ torrent => torrent.owes notification) handle
  rw [found, Option.elim_some] at weights
  have savings : session.savings.countP
      ((session.setTorrent handle changed).isFor notification) =
        session.savings.countP (session.isFor notification) := by
    apply List.countP_congr
    intro other member
    simp only [isFor, setTorrent, Std.TreeMap.getElem?_insert_eq]
    split
    · rename_i isHandle
      subst isHandle
      have nonempty := ((sound.savings other member).2 torrent found).2
      simp [found, isFor_of_grows grows nonempty]
    · rfl
  simp only [due]
  simp only [setTorrent, Std.TreeMap.sumOf_insert] at savings ⊢
  omega

theorem due_call (calls : List NotifiedCall) :
    (session.call calls).due notification =
      session.due notification + calls.countP (·.isDownload notification) := by
  have savings : (session.call calls).isFor notification = session.isFor notification := rfl
  simp only [due, savings]
  simp only [call, List.countP_append]
  omega

theorem due_addTorrent (isNew : session.torrents[session.added]? = none)
    (savings : ∀ handle ∈ session.savings, handle < session.added) :
    (session.addTorrent torrent).due notification =
      session.due notification + torrent.owes notification := by
  have weights := Std.TreeMap.sumOf_eq_sumExcept session.torrents
    (fun _ torrent => torrent.owes notification) session.added
  rw [isNew, Option.elim_none] at weights
  have saved : session.savings.countP ((session.addTorrent torrent).isFor notification) =
      session.savings.countP (session.isFor notification) := by
    apply List.countP_congr
    intro other member
    have apart : other ≠ session.added := Nat.ne_of_lt (savings other member)
    simp [isFor, addTorrent, setTorrent, Std.TreeMap.getElem?_insert_eq, apart]
  simp only [due]
  simp only [addTorrent, setTorrent, Std.TreeMap.sumOf_insert] at saved ⊢
  omega

theorem due_erase (notification : Nat) (found : session.torrents[handle]? = some torrent) :
    due { session with torrents := session.torrents.erase handle } notification +
      torrent.owes notification ≤ session.due notification := by
  have weights := Std.TreeMap.sumOf_erase session.torrents
    (fun _ torrent => torrent.owes notification) handle
  rw [found, Option.elim_some] at weights
  have savings : session.savings.countP
      (isFor { session with torrents := session.torrents.erase handle } notification) ≤
        session.savings.countP (session.isFor notification) := by
    apply List.countP_mono_left
    intro other _
    simp only [isFor, Std.TreeMap.getElem?_erase_eq]
    split
    · simp
    · exact id
  simp only [due] at savings ⊢
  omega

theorem due_post (posted : PostedCall) :
    due { session with posted := session.posted ++ [posted] } notification =
      session.due notification + if posted.isDownload notification then 1 else 0 := by
  have savings : isFor { session with posted := session.posted ++ [posted] } notification =
      session.isFor notification := rfl
  simp only [due, savings, List.countP_append, List.countP_singleton]
  omega

theorem due_save (found : session.torrents[handle]? = some torrent) :
    due { session with savings := session.savings ++ [handle] } notification =
      session.due notification + if torrent.isFor notification then 1 else 0 := by
  have savings : isFor { session with savings := session.savings ++ [handle] } notification =
      session.isFor notification := rfl
  have isFor : session.isFor notification handle = torrent.isFor notification := by
    simp [TorrentSession.isFor, found]
  simp only [due, savings, List.countP_append, List.countP_singleton, isFor]
  omega

theorem owes_single {context : DownloadContext} (notification : Nat)
    (isSingle : torrent.userdata.dnContexts = [context])
    (isValid : torrent.userdata.invalidMetadata = false)
    (notFlushed : torrent.userdata.finishStatus ≠ .torrentFlushed) :
    torrent.owes notification =
      if context.downloadNotification == notification then 1 else 0 := by
  simp [SessionTorrent.owes, isSingle, isValid, notFlushed]

/-- Torrents follow the ones there were or are new, and no job is new. -/
theorem Sound.of_lookUp {after : TorrentSession} (sound : session.Sound)
    (lookUp : ∀ (handle : LtHandle) (now : SessionTorrent), after.torrents[handle]? = some now →
      (∃ torrent : SessionTorrent,
        session.torrents[handle]? = some torrent ∧ torrent.Follows now) ∨
      session.added ≤ handle ∧ handle < after.added ∧ now.Sound)
    (savings : after.savings ⊆ session.savings) (posted : after.posted ⊆ session.posted)
    (added : session.added ≤ after.added) : after.Sound where
  torrents handle now isNow := by
    rcases lookUp handle now isNow with ⟨torrent, found, follows⟩ | ⟨-, -, isSound⟩
    · exact follows.sound (sound.torrents handle torrent found)
    · exact isSound
  known handle now isNow := by
    rcases lookUp handle now isNow with ⟨torrent, found, -⟩ | ⟨-, isKnown, -⟩
    · exact Nat.lt_of_lt_of_le (sound.known handle torrent found) added
    · exact isKnown
  savings handle member := by
    obtain ⟨isKnown, before⟩ := sound.savings handle (savings member)
    refine ⟨Nat.lt_of_lt_of_le isKnown added, ?_⟩
    intro now isNow
    rcases lookUp handle now isNow with ⟨torrent, found, follows⟩ | ⟨isNew, -, -⟩
    · obtain ⟨isComplete, nonempty⟩ := before torrent found
      exact ⟨follows.complete isComplete, follows.grows.ne_nil nonempty⟩
    · exact absurd isKnown (Nat.not_lt.mpr isNew)
  posted handle dnContext member := by
    obtain ⟨isKnown, before⟩ := sound.posted handle dnContext (posted member)
    refine ⟨Nat.lt_of_lt_of_le isKnown added, ?_⟩
    intro now isNow
    rcases lookUp handle now isNow with ⟨torrent, found, follows⟩ | ⟨isNew, -, -⟩
    · obtain ⟨isComplete, isContext⟩ := before torrent found
      exact ⟨follows.complete isComplete, follows.grows.subset isContext⟩
    · exact absurd isKnown (Nat.not_lt.mpr isNew)

theorem follows_self (torrent : SessionTorrent) : torrent.Follows torrent :=
  ⟨id, List.prefix_rfl, id⟩

theorem Sound.of_same {after : TorrentSession} (sound : session.Sound)
    (torrents : after.torrents = session.torrents) (savings : after.savings ⊆ session.savings)
    (posted : after.posted ⊆ session.posted) (added : after.added = session.added) :
    after.Sound := by
  refine sound.of_lookUp ?_ savings posted (Nat.le_of_eq added.symm)
  intro handle now isNow
  exact Or.inl ⟨now, torrents ▸ isNow, follows_self now⟩

theorem Sound.setTorrent (sound : session.Sound) (found : session.torrents[handle]? = some torrent)
    (follows : torrent.Follows changed) : (session.setTorrent handle changed).Sound := by
  refine sound.of_lookUp ?_ (List.Subset.refl _) (List.Subset.refl _) (Nat.le_refl _)
  intro other now isNow
  rw [TorrentSession.setTorrent, Std.TreeMap.getElem?_insert_eq] at isNow
  split at isNow
  · rename_i isHandle
    subst isHandle
    obtain rfl := Option.some.inj isNow
    exact Or.inl ⟨torrent, found, follows⟩
  · exact Or.inl ⟨now, isNow, follows_self now⟩

theorem Sound.call (sound : session.Sound) (calls : List NotifiedCall) :
    (session.call calls).Sound :=
  sound.of_same rfl (List.Subset.refl _) (List.Subset.refl _) rfl

theorem Fits.setTorrent (fits : session.Fits) (isFit : changed.Fits) :
    (session.setTorrent handle changed).Fits where
  torrents other now isNow := by
    rw [TorrentSession.setTorrent, Std.TreeMap.getElem?_insert_eq] at isNow
    split at isNow
    · exact (Option.some.inj isNow) ▸ isFit
    · exact fits.torrents other now isNow
  called := fits.called

theorem Fits.call (fits : session.Fits) {calls : List NotifiedCall}
    (within : ∀ call ∈ calls, call.WithinLimit) : (session.call calls).Fits where
  torrents := fits.torrents
  called call member := by
    rcases List.mem_append.mp member with before | now
    · exact fits.called call before
    · exact within call now

theorem MovesOn.trans {mid after : TorrentSession} (first : session.MovesOn mid)
    (second : mid.MovesOn after) : session.MovesOn after where
  sound := second.sound
  due notification := Nat.le_trans (second.due notification) (first.due notification)
  fits := second.fits ∘ first.fits
  downloads := second.downloads.trans first.downloads

theorem Sound.movesOn_setTorrent (sound : session.Sound)
    (found : session.torrents[handle]? = some torrent) (follows : torrent.Follows changed)
    (fits : torrent.Fits → changed.Fits)
    (owes : ∀ notification, changed.owes notification ≤ torrent.owes notification) :
    session.MovesOn (session.setTorrent handle changed) where
  sound := sound.setTorrent found follows
  due notification := by
    have moves := sound.due_setTorrent notification found follows.grows
    have less := owes notification
    omega
  fits before := before.setTorrent (fits (before.torrents handle torrent found))
  downloads := rfl

theorem Sound.movesOn_keeps (sound : session.Sound)
    (found : session.torrents[handle]? = some torrent) (keeps : torrent.Keeps changed) :
    session.MovesOn (session.setTorrent handle changed) :=
  sound.movesOn_setTorrent found keeps.follows keeps.fits
    fun notification => Nat.le_of_eq (keeps.owes notification)

theorem Sound.movesOn_map (sound : session.Sound)
    (change : LtHandle → SessionTorrent → SessionTorrent)
    (keeps : ∀ handle torrent, SessionTorrent.Keeps torrent (change handle torrent)) :
    session.MovesOn { session with torrents := session.torrents.map change } := by
  have lookUp : ∀ (handle : LtHandle) (now : SessionTorrent),
      (session.torrents.map change)[handle]? = some now →
      ∃ torrent : SessionTorrent, session.torrents[handle]? = some torrent ∧
        torrent.Keeps now := by
    intro handle now isNow
    obtain ⟨torrent, found, rfl⟩ : ∃ torrent : SessionTorrent,
        session.torrents[handle]? = some torrent ∧ change handle torrent = now := by
      simpa using isNow
    exact ⟨torrent, found, keeps handle torrent⟩
  constructor
  · refine sound.of_lookUp ?_ (List.Subset.refl _) (List.Subset.refl _) (Nat.le_refl _)
    intro handle now isNow
    obtain ⟨torrent, found, keeps⟩ := lookUp handle now isNow
    exact Or.inl ⟨torrent, found, keeps.follows⟩
  · intro notification
    have weights : (session.torrents.map change).sumOf
        (fun _ torrent => torrent.owes notification) =
          session.torrents.sumOf fun _ torrent => torrent.owes notification := by
      simp only [Std.TreeMap.sumOf_map, (keeps _ _).owes]
    have savings : isFor { session with torrents := session.torrents.map change } notification =
        session.isFor notification := by
      funext handle
      simp [isFor, Option.any_map, (keeps _ _).isFor]
    simp only [due, savings, weights, Nat.le_refl]
  · intro fits
    refine ⟨?_, fits.called⟩
    intro handle now isNow
    obtain ⟨torrent, found, keeps⟩ := lookUp handle now isNow
    exact keeps.fits (fits.torrents handle torrent found)
  · rfl

theorem Sound.movesOn_of_same {after : TorrentSession} (sound : session.Sound)
    (torrents : after.torrents = session.torrents) (savings : after.savings = session.savings)
    (posted : after.posted = session.posted) (called : after.called = session.called)
    (added : after.added = session.added) (downloads : after.downloads = session.downloads) :
    session.MovesOn after := by
  constructor
  · exact sound.of_same torrents (by simp [savings]) (by simp [posted]) added
  · intro notification
    simp only [due, torrents, savings, posted, called]
    have isFor : after.isFor notification = session.isFor notification := by
      funext handle
      simp only [TorrentSession.isFor, torrents]
    simp only [isFor, Nat.le_refl]
  · intro fits
    constructor
    · simpa only [torrents] using fits.torrents
    · simpa only [called] using fits.called
  · exact downloads

end TorrentSession

end SiriusDrive
