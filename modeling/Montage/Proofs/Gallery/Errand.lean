import Montage.Proofs.Gallery.Trail

/-!
# Errands

An operation on files is decided by the positions that it looks at, and changes only positions among
them. An errand is a row of operations that keeps account of both kinds of positions, also of those
that have changed only for a while. Of two errands of which neither changes what the other one looks
at, neither notices the other.
-/
namespace Montage

open FileTree

/-- What an errand has come to. -/
structure Run (α : Type) where
  tree : FileTree
  looks : Set Position
  changes : Set Position
  reply : α

structure Errand (α : Type) where
  run : FileTree → Run α

namespace Errand

variable {α β ε : Type}

instance : Monad Errand where
  pure reply := ⟨fun tree => ⟨tree, ∅, ∅, reply⟩⟩
  bind first next := ⟨fun tree =>
    let begun := first.run tree
    let ended := (next begun.reply).run begun.tree
    ⟨ended.tree, begun.looks ∪ ended.looks, begun.changes ∪ ended.changes, ended.reply⟩⟩

theorem run_bind (first : Errand α) (next : α → Errand β) (tree : FileTree) :
    (first >>= next).run tree =
      ⟨((next (first.run tree).reply).run (first.run tree).tree).tree,
        (first.run tree).looks ∪ ((next (first.run tree).reply).run (first.run tree).tree).looks,
        (first.run tree).changes ∪
          ((next (first.run tree).reply).run (first.run tree).tree).changes,
        ((next (first.run tree).reply).run (first.run tree).tree).reply⟩ := rfl

/-- Two runs that look and change alike, and leave the same where they look. -/
structure Alike (run other : Run α) : Prop where
  reply : other.reply = run.reply
  looks : other.looks = run.looks
  changes : other.changes = run.changes
  tree : AgreeOn run.looks run.tree other.tree

/-- An errand that is decided by what it looks at, and changes nothing else. -/
structure IsLocal (errand : Errand α) : Prop where
  proper : ∀ tree, tree.IsProper → (errand.run tree).tree.IsProper
  within : ∀ tree, (errand.run tree).changes ⊆ (errand.run tree).looks
  kept : ∀ tree, tree.IsProper → ∀ p, p ∉ (errand.run tree).changes →
    (errand.run tree).tree.get? p = tree.get? p
  alike : ∀ t u, t.IsProper → u.IsProper → AgreeOn (errand.run t).looks t u →
    Alike (errand.run t) (errand.run u)

theorem isLocal_pure (reply : α) : IsLocal (pure reply) where
  proper _ proper := proper
  within _ := Set.Subset.rfl
  kept _ _ _ _ := rfl
  alike _ _ _ _ agree := ⟨rfl, rfl, rfl, agree⟩

/-- Trees that agree where an errand looks agree afterwards wherever they have agreed before. -/
theorem IsLocal.agree {errand : Errand α} (h : IsLocal errand) {t u : FileTree}
    (properT : t.IsProper) (properU : u.IsProper) {looks : Set Position}
    (within : (errand.run t).looks ⊆ looks) (agree : AgreeOn looks t u) :
    AgreeOn looks (errand.run t).tree (errand.run u).tree := by
  have alike := h.alike t u properT properU (agree.mono within)
  intro p looked
  by_cases here : p ∈ (errand.run t).looks
  · exact alike.tree p here
  · have spared : p ∉ (errand.run t).changes := fun changed => here (h.within t changed)
    rw [h.kept t properT p spared, h.kept u properU p (by rwa [alike.changes]), agree p looked]

theorem IsLocal.bind {first : Errand α} {next : α → Errand β} (begin' : IsLocal first)
    (onward : ∀ reply, IsLocal (next reply)) : IsLocal (first >>= next) where
  proper tree proper := (onward _).proper _ (begin'.proper tree proper)
  within tree := Set.union_subset_union (begin'.within tree) ((onward _).within _)
  kept tree proper p away := by
    rw [run_bind] at away ⊢
    rw [Set.mem_union, not_or] at away
    dsimp only
    rw [(onward _).kept _ (begin'.proper tree proper) p away.2,
      begin'.kept tree proper p away.1]
  alike t u properT properU agree := by
    -- Trees that agree at the start agree between the two errands, and so look and change alike.
    rw [run_bind] at agree
    have begun := begin'.alike t u properT properU (agree.mono Set.subset_union_left)
    have between := begin'.agree properT properU Set.subset_union_left agree
    have properT' := begin'.proper t properT
    have properU' := begin'.proper u properU
    have ended := (onward (first.run t).reply).alike _ _ properT' properU'
      (between.mono Set.subset_union_right)
    rw [run_bind, run_bind, begun.reply]
    exact ⟨ended.reply, congrArg₂ (· ∪ ·) begun.looks ended.looks,
      congrArg₂ (· ∪ ·) begun.changes ended.changes,
      (onward _).agree properT' properU' Set.subset_union_right between⟩

/-! ### Questions -/

/-- The answer to a question about a tree is decided by what stands at certain positions, and so are
the positions. -/
def Decides (looks : FileTree → Set Position) (question : FileTree → α) : Prop :=
  ∀ t u, AgreeOn (looks t) t u → question u = question t ∧ looks u = looks t

theorem Decides.map {looks : FileTree → Set Position} {question : FileTree → α}
    (h : Decides looks question) (f : α → β) : Decides looks fun tree => f (question tree) :=
  fun t u agree => ⟨congrArg f (h t u agree).1, (h t u agree).2⟩

theorem decides_const (answer : α) : Decides (fun _ => ∅) fun _ => answer :=
  fun _ _ _ => ⟨rfl, rfl⟩

/-- A question that may fail, and one that is asked about its answer. -/
theorem Decides.bind {looks : FileTree → Set Position} {more : α → FileTree → Set Position}
    {first : FileTree → Except ε α} {next : FileTree → α → Except ε β}
    (begin' : Decides looks first)
    (onward : ∀ answer, Decides (more answer) fun tree => next tree answer) :
    Decides
      (fun tree => looks tree ∪ {p | ∃ answer, first tree = .ok answer ∧ p ∈ more answer tree})
      fun tree => first tree >>= next tree := by
  intro t u agree
  obtain ⟨answered, looked⟩ := begin' t u (agree.mono Set.subset_union_left)
  -- The second question is the same in both trees, as the first one has the same answer.
  have later (answer : α) (came : first t = .ok answer) := onward answer t u
    (agree.mono fun p member => Set.mem_union_right _ ⟨answer, came, member⟩)
  dsimp only
  rw [answered, looked]
  constructor
  · cases came : first t with
    | error e => rfl
    | ok answer => exact (later answer came).1
  · congr 1
    ext p
    refine exists_congr fun answer => and_congr_right fun came => ?_
    rw [(later answer came).2]

/-- A question about a tree, asked by looking at certain positions. -/
def ask (looks : FileTree → Set Position) (question : FileTree → α) : Errand α :=
  ⟨fun tree => ⟨tree, looks tree, ∅, question tree⟩⟩

theorem isLocal_ask {looks : FileTree → Set Position} {question : FileTree → α}
    (decided : Decides looks question) : IsLocal (ask looks question) where
  proper _ proper := proper
  within _ := Set.empty_subset _
  kept _ _ _ _ := rfl
  alike t u _ _ agree := ⟨(decided t u agree).1, (decided t u agree).2, rfl, agree⟩

/-! ### Changes -/

/-- An operation that looks at certain positions, and changes certain positions if it succeeds. -/
def alter (looks changes : FileTree → Set Position) (operation : FileTree → Except ε FileTree) :
    Errand (Except ε Unit) :=
  ⟨fun tree =>
    match operation tree with
    | .ok next => ⟨next, looks tree, changes tree, .ok ()⟩
    | .error e => ⟨tree, looks tree, ∅, .error e⟩⟩

/-- What makes an operation local: where it succeeds it keeps the tree proper and changes only what
it may, and on trees that agree where it looks it comes to the same there. -/
structure Operates (looks changes : FileTree → Set Position)
    (operation : FileTree → Except ε FileTree) : Prop where
  within : ∀ tree, changes tree ⊆ looks tree
  done : ∀ tree next, tree.IsProper → operation tree = .ok next →
    next.IsProper ∧ ∀ p, p ∉ changes tree → next.get? p = tree.get? p
  same : ∀ t u, AgreeOn (looks t) t u → looks u = looks t ∧ changes u = changes t
  failed : ∀ t u, AgreeOn (looks t) t u → ∀ e, operation t = .error e → operation u = .error e
  succeeded : ∀ t u, t.IsProper → u.IsProper → AgreeOn (looks t) t u → ∀ next,
    operation t = .ok next → ∃ next', operation u = .ok next' ∧ AgreeOn (looks t) next next'

theorem isLocal_alter {looks changes : FileTree → Set Position}
    {operation : FileTree → Except ε FileTree} (h : Operates looks changes operation) :
    IsLocal (alter looks changes operation) where
  proper tree proper := by
    unfold alter
    dsimp only
    cases came : operation tree with
    | ok next => exact (h.done tree next proper came).1
    | error e => exact proper
  within tree := by
    unfold alter
    dsimp only
    cases operation tree with
    | ok next => exact h.within tree
    | error e => exact Set.empty_subset _
  kept tree proper p away := by
    unfold alter at away ⊢
    dsimp only at away ⊢
    cases came : operation tree with
    | ok next =>
      rw [came] at away
      exact (h.done tree next proper came).2 p away
    | error e => rfl
  alike t u properT properU agree := by
    -- An operation that fails has looked, and has changed nothing.
    have looked : ((alter looks changes operation).run t).looks = looks t := by
      unfold alter
      dsimp only
      cases operation t <;> rfl
    rw [looked] at agree
    obtain ⟨looks', changes'⟩ := h.same t u agree
    unfold alter
    dsimp only
    cases came : operation t with
    | ok next =>
      obtain ⟨next', came', left⟩ := h.succeeded t u properT properU agree next came
      rw [came']
      exact ⟨rfl, looks', changes', left⟩
    | error e =>
      rw [h.failed t u agree e came]
      exact ⟨rfl, looks', rfl, agree⟩

end Errand
end Montage
