import Montage.Render.Task

/-!
# What collaborators do to files

An engine may be one that writes files only, and an invalidator one that deletes at most the
thumbnail of the file that was written. The invalidator of a thumbnail cache is of this kind.
-/
namespace Montage

/-- An engine that writes files and makes no directories. -/
def Engine.WritesFiles (engine : Engine) : Prop :=
  ∀ call contents, ∀ action ∈ (engine.produce call contents).actions,
    ∃ content, action = .write content

/-- An invalidator that deletes at most one file, the thumbnail of the one that was written. -/
def Invalidator.Drops (invalidator : Invalidator) (thumbnail : String → Option Path) : Prop :=
  ∀ relative tree, (invalidator relative tree).tree =
    match thumbnail relative with
    | none => tree
    | some path =>
      match tree.unlink path with
      | .ok dropped => dropped
      | .error _ => tree

theorem ThumbnailCache.drops (cache : ThumbnailCache) :
    cache.invalidator.Drops fun relative => (cache.path? (slashed relative)).toOption := by
  intro relative tree
  unfold invalidator invalidate
  dsimp only
  cases cache.path? (slashed relative) with
  | error e => rfl
  -- A file that is not there is no failure, and any other refusal is kept to itself.
  | ok path =>
    dsimp only [Bind.bind, Except.bind, Except.toOption]
    cases tree.unlink path with
    | ok dropped => rfl
    | error e =>
      cases e with
      | refused errno path target => cases errno <;> rfl
      | nullCharacter => rfl
      | unencodable error => rfl
      | endlessLinks path => rfl
      | invalidName name => rfl
      | unknownHome => rfl

end Montage
