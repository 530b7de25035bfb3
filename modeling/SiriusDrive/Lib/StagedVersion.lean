import Mathlib.Data.Option.Basic

/-! # Versions that are staged and then committed

A holder of a value prepares its next version: candidates are staged, the last one
staged replaces those before, and a commit makes it the current version under a name.
A commit takes whatever is staged, so it commits the version that was agreed upon only
if nothing else is ever staged.
-/

/-- The current version, the staged one, and whether a commit has been made. -/
structure StagedVersion (α τ : Type*) where
  staged : Option α := none
  current : α
  name : τ
  isCommitted : Bool := false

inductive VersionEvent (α τ : Type*) where
  | stage (version : α)
  /-- The staged version becomes the current one. -/
  | commit (name : τ)

namespace StagedVersion

variable {α τ : Type*}

def step (holder : StagedVersion α τ) : VersionEvent α τ → Option (StagedVersion α τ)
  | .stage version => some { holder with staged := some version }
  | .commit name =>
      holder.staged.map fun version =>
        { holder with current := version, name, isCommitted := true }

/-- Nothing but one version is staged, and commits have one name. -/
def OnlyStages (version : α) (name : τ) : VersionEvent α τ → Prop
  | .stage staged => staged = version
  | .commit committed => committed = name

/-- The holder is left as it is or takes a step that stages nothing but one version. -/
def StaysOn (version : α) (name : τ) (holder after : StagedVersion α τ) : Prop :=
  after = holder ∨ ∃ event, OnlyStages version name event ∧ holder.step event = some after

/-- What is staged is one version, and what has been committed is that version. -/
structure Carries (version : α) (name : τ) (holder : StagedVersion α τ) : Prop where
  staged : ∀ staged ∈ holder.staged, staged = version
  committed : holder.isCommitted = true → holder.current = version ∧ holder.name = name

variable {version : α} {name : τ} {holder after : StagedVersion α τ}

theorem StaysOn.stage {staged : α} (isVersion : staged = version) :
    StaysOn version name holder { holder with staged := some staged } :=
  .inr ⟨.stage staged, isVersion, rfl⟩

theorem StaysOn.commit {staged : α} (isStaged : holder.staged = some staged) :
    StaysOn version name holder { holder with current := staged, name, isCommitted := true } :=
  .inr ⟨.commit name, rfl, by simp [step, isStaged]⟩

theorem Carries.step {event : VersionEvent α τ} (carries : holder.Carries version name)
    (only : OnlyStages version name event) (step : holder.step event = some after) :
    after.Carries version name := by
  cases event with
  | stage staged =>
      obtain rfl := Option.some.inj step
      exact ⟨fun other isStaged => (Option.some.inj isStaged) ▸ only, carries.committed⟩
  | commit committed =>
      obtain ⟨staged, isStaged, rfl⟩ := Option.map_eq_some_iff.mp step
      exact ⟨carries.staged, fun _ => ⟨carries.staged staged isStaged, only⟩⟩

theorem Carries.staysOn (carries : holder.Carries version name)
    (stays : StaysOn version name holder after) : after.Carries version name := by
  rcases stays with rfl | ⟨event, only, step⟩
  · exact carries
  · exact carries.step only step

end StagedVersion
