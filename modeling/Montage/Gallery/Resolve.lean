import Montage.Gallery.FileTree

/-!
# Resolving paths

An absolute path is resolved when it holds no links and no double dots. Double dots are taken
physically: they leave the directory that the path has reached, not the name that stands before
them. Names that do not exist are kept. A link that is met while it is being followed ends the
resolution: what comes after it is put behind it unseen, and the path is refused if it still leads
nowhere after the double dots are removed.
-/
namespace Montage.FileTree

/-- A link that is being followed, and the names that come after it. -/
structure Detour where
  link : Position
  after : List String

/-- What the links met so far lead to; one that is still being followed has no answer yet. -/
abbrev Known := List (Position × Option Position)

namespace Known

def get? (known : Known) (link : Position) : Option (Option Position) :=
  (List.find? (·.1 = link) known).map (·.2)

theorem get?_cons (known : Known) (p q : Position) (v : Option Position) :
    get? ((p, v) :: known) q = if p = q then some v else known.get? q := by
  unfold get?
  by_cases h : p = q <;> simp [h]

end Known

/-- The target of the link at a position. -/
def linkAt? (tree : FileTree) (position : Position) : Option String :=
  match tree.get? position with
  | some (.link target) => some target
  | _ => none

/-- How many entries of a tree have not been met as links. -/
def unmet (tree : FileTree) (known : Known) : Nat :=
  tree.entries.countP fun e => (known.get? e.1).isNone

theorem mem_of_linkAt? {tree : FileTree} {position : Position} {target : String}
    (h : tree.linkAt? position = some target) : ∃ e ∈ tree.entries, e.1 = position := by
  unfold linkAt? get? at h
  split at h
  next found =>
    split at found
    · simp at found
    · simp only [Option.map_eq_some_iff] at found
      obtain ⟨e, he, _⟩ := found
      exact ⟨e, List.mem_of_find?_eq_some he, by simpa using List.find?_some he⟩
  next => simp at h

theorem unmet_cons_le (tree : FileTree) (known : Known) (p : Position) (v : Option Position) :
    tree.unmet ((p, v) :: known) ≤ tree.unmet known := by
  apply List.countP_mono_left
  intro e _
  simp only [Known.get?_cons]
  split <;> simp

theorem countP_lt {α : Type} {p q : α → Bool} {l : List α} (below : ∀ a ∈ l, p a → q a)
    {a : α} (ha : a ∈ l) (hq : q a = true) (hp : p a = false) : l.countP p < l.countP q := by
  induction l with
  | nil => simp at ha
  | cons b rest ih =>
    have tail : ∀ a ∈ rest, p a → q a := fun a h => below a (List.mem_cons_of_mem b h)
    have le : rest.countP p ≤ rest.countP q := List.countP_mono_left tail
    -- The member that only `q` counts is the head, or it makes the difference in the rest.
    rcases List.mem_cons.mp ha with rfl | member
    · simp only [List.countP_cons, hq, hp, if_true, Bool.false_eq_true, if_false]
      omega
    · have lt := ih tail member
      have head := below b List.mem_cons_self
      simp only [List.countP_cons]
      by_cases hb : p b = true
      · simp only [hb, head hb, if_true]
        omega
      · simp only [hb, Bool.false_eq_true, if_false]
        split <;> omega

theorem unmet_cons_lt {tree : FileTree} {known : Known} {p : Position} {target : String}
    (v : Option Position) (link : tree.linkAt? p = some target) (new : known.get? p = none) :
    tree.unmet ((p, v) :: known) < tree.unmet known := by
  obtain ⟨e, member, rfl⟩ := mem_of_linkAt? link
  refine countP_lt (a := e) ?_ member ?_ ?_
  · intro e _
    simp only [Known.get?_cons]
    split <;> simp
  · simp [new]
  · simp [Known.get?_cons]

/-- Where a resolution ended: at a position, at a link that was being followed already, with the
names left at each level, or at a name that no file system takes. -/
inductive Resolution where
  | resolved (position : Position)
  | endless (link : Position) (rests : List (List String))
  | unfit (position : Position)

/-- How many names are still to be taken. -/
def pending (names : List String) (detours : List Detour) : Nat :=
  names.length + detours.foldr (fun d sum => d.after.length + 1 + sum) 0

theorem pending_lt (name : String) (rest : List String) (detours : List Detour) :
    pending rest detours < pending (name :: rest) detours := by
  simp only [pending, List.length_cons]
  omega

/-- To return from a link leaves less to be done: the name that it stood for has been taken. -/
theorem pending_return_lt (tree : FileTree) (known : Known) (position : Position) (d : Detour)
    (outer : List Detour) :
    Prod.Lex (· < ·) (· < ·)
      (tree.unmet ((d.link, some position) :: known), pending d.after outer)
      (tree.unmet known, pending [] (d :: outer)) := by
  rcases Nat.lt_or_eq_of_le (unmet_cons_le tree known d.link (some position)) with lt | eq
  · exact Prod.Lex.left _ _ lt
  · rw [eq]
    apply Prod.Lex.right
    simp only [pending, List.length_nil, List.foldr_cons]
    omega

/-- Takes names from a position on. Each link is entered once: after that its answer is known. -/
def follow (tree : FileTree) (known : Known) (position : Position) (names : List String)
    (detours : List Detour) : Resolution :=
  match names with
  | [] =>
    match detours with
    | [] => .resolved position
    | d :: outer => follow tree ((d.link, some position) :: known) position d.after outer
  | name :: rest =>
    if Path.isIdle name then follow tree known position rest detours
    else if name = ".." then follow tree known position.dropLast rest detours
    else if Path.isUnfitName name then .unfit (position ++ [name])
    else
      let next := position ++ [name]
      match _link : tree.linkAt? next with
      | none => follow tree known next rest detours
      | some target =>
        match _new : known.get? next with
        | some (some goal) => follow tree known goal rest detours
        | some none => .endless next (rest :: detours.map (·.after))
        | none =>
          follow tree ((next, none) :: known) (if target.startsWith "/" then [] else position)
            (Path.pieces target) (⟨next, rest⟩ :: detours)
termination_by (tree.unmet known, pending names detours)
decreasing_by
  · exact pending_return_lt tree known position d outer
  · exact Prod.Lex.right _ (pending_lt name rest detours)
  · exact Prod.Lex.right _ (pending_lt name rest detours)
  · exact Prod.Lex.right _ (pending_lt name rest detours)
  · exact Prod.Lex.right _ (pending_lt name rest detours)
  · exact Prod.Lex.left _ _ (unmet_cons_lt none _link _new)

/-- A text after a path; one that starts with a slash starts anew. -/
def joinText (path rest : String) : String :=
  if rest.startsWith "/" then rest else path ++ "/" ++ rest

/-- The path that is left of an endless link and the names after it. A root of two slashes stays
apart. -/
def unending (link : Position) (rests : List (List String)) : Path :=
  let text := rests.foldl (fun path rest => joinText path (String.intercalate "/" rest))
    (Path.absolute link).text
  (Path.ofString text).collapsed

/-- The resolved form of an absolute path. -/
def resolve (tree : FileTree) (path : Path) : Except FileError Path :=
  match tree.follow [] [] path.names [] with
  | .resolved position => .ok (.absolute position)
  | .unfit position => .error (.unfit (.absolute position))
  | .endless link rests =>
    let left := unending link rests
    if left.isUnfit then .error (.unfit left)
    else
      match tree.stat left with
      | .error .linkLoop => .error (.endlessLinks left.text)
      | _ => .ok left

/-- The resolved form of a path as seen from a directory. A first name with a tilde in front asks
for somebody's home. -/
def resolveFrom (tree : FileTree) (directory path : Path) : Except FileError Path :=
  if !path.isAbsolute && path.names.head?.any (·.startsWith "~") then .error .unknownHome
  else tree.resolve (directory.join path)

end Montage.FileTree
