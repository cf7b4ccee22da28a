import Montage.Proofs.Attempt
import Montage.Proofs.Gallery.Names

/-!
# Clear paths

A path on which no link stands leads where its names say. Looking it up reads only the entries at
the path and above it, and operations on it change only the entry at the path. A path that has
been resolved is clear, unless an endless link was met on the way.
-/
namespace Montage

namespace FileTree

/-- No link stands at a position or above it. -/
def IsClear (tree : FileTree) (position : Position) : Prop :=
  ∀ p, p <+: position → tree.linkAt? p = none

theorem IsClear.of_prefix {tree : FileTree} {p q : Position} (h : tree.IsClear q) (le : p <+: q) :
    tree.IsClear p :=
  fun front above => h front (above.trans le)

/-- A clear position goes on clear where no link stands. -/
theorem IsClear.snoc {tree : FileTree} {position : Position} (h : tree.IsClear position)
    (name : String) (free : tree.linkAt? (position ++ [name]) = none) :
    tree.IsClear (position ++ [name]) := by
  intro p above
  rcases List.prefix_concat_iff.mp above with rfl | old
  · exact free
  · exact h p old

/-- No link is seen at a position exactly if none stands there. -/
theorem linkAt?_eq_none (tree : FileTree) (position : Position) :
    tree.linkAt? position = none ↔ ∀ target, tree.get? position ≠ some (.link target) := by
  unfold linkAt?
  split
  next target found => simp [found]
  next other =>
    simp only [true_iff]
    exact other

theorem linkAt?_nil (tree : FileTree) : tree.linkAt? [] = none := rfl

/-- A plain path that leads where its names say. -/
structure Resolved (tree : FileTree) (path : Path) : Prop where
  plain : path.IsPlain
  clear : tree.IsClear path.names

/-- A plain path that leads where its names say, but for a link that may stand at its end. -/
structure Held (tree : FileTree) (path : Path) : Prop where
  plain : path.IsPlain
  clear : tree.IsClear path.names.dropLast

theorem Resolved.held {tree : FileTree} {path : Path} (h : tree.Resolved path) :
    tree.Held path :=
  ⟨h.plain, h.clear.of_prefix (List.dropLast_prefix path.names)⟩

theorem prefix_dropLast_of_ne {p position : Position} (above : p <+: position)
    (other : p ≠ position) : p <+: position.dropLast := by
  rcases List.eq_nil_or_concat position with rfl | ⟨front, last, rfl⟩
  · exact absurd (List.prefix_nil.mp above) other
  · rw [List.concat_eq_append] at above other ⊢
    rw [List.dropLast_concat]
    exact (List.prefix_concat_iff.mp above).resolve_left other

/-- Above the last name of a held path there are no links. -/
theorem Held.linkAt?_eq_none {tree : FileTree} {path : Path} (h : tree.Held path) {p : Position}
    (above : p <+: path.names) (other : p ≠ path.names) : tree.linkAt? p = none :=
  h.clear p (prefix_dropLast_of_ne above other)

/-- The entry that names lead to from a directory where no link is met. -/
def seek (tree : FileTree) (position : Position) : List String → Except Errno (Option Entry)
  | [] => .ok (tree.get? position)
  | name :: rest =>
    if tree.get? position ≠ some .directory then .error .notDirectory
    else if maxNameBytes < Text.nameSize name then .error .nameTooLong
    else
      match tree.get? (position ++ [name]) with
      | none => if rest.isEmpty then .ok none else .error .noEntry
      | some _ => seek tree (position ++ [name]) rest

/-- Without links on the way every way of taking a path leads to the position of its names. A link
at the end is no hindrance where it is kept. -/
theorem walk_eq_seek (tree : FileTree) (ending : Ending) (links : Nat) (position : Position)
    (names : List String) (named : ∀ name ∈ names, Path.IsName name)
    (clear : ∀ front, front <+: names → front ≠ names ∨ ending ≠ .kept →
      tree.linkAt? (position ++ front) = none) :
    tree.walk ending links position names =
      (tree.seek position names).map fun entry => (position ++ names, entry) := by
  induction names generalizing position with
  | nil => rw [walk, seek, List.append_nil]; rfl
  | cons name rest ih =>
    have step := named name List.mem_cons_self
    have later := fun other member => named other (List.mem_cons_of_mem name member)
    have shape (front : List String) : position ++ [name] ++ front = position ++ name :: front := by
      rw [List.append_assoc, List.singleton_append]
    have notSlashed : (decide (ending = .written) && !rest.isEmpty && rest.all String.isEmpty) =
        false := by
      cases rest with
      | nil => simp
      | cons other more => simp [(later other List.mem_cons_self).isEmpty_eq]
    rw [walk, seek]
    simp only [step.busy, Bool.false_eq_true, if_false, step.down, notSlashed]
    split
    · rfl
    split
    · rfl
    cases found : tree.get? (position ++ [name]) with
    | none =>
      cases rest with
      | nil => rfl
      | cons other more => rfl
    | some entry =>
      have next := ih (position ++ [name]) later (by
        intro front below open'
        rw [shape]
        refine clear (name :: front) (List.cons_prefix_cons.mpr ⟨rfl, below⟩) ?_
        exact open'.imp_left fun other same => other (List.cons.inj same).2)
      rw [shape] at next
      cases entry with
      | directory => exact next
      | file content => exact next
      | link target =>
        -- Only the last name may lead to a link, and only to one that is kept.
        by_cases last : rest = [] ∧ ending = .kept
        · obtain ⟨rfl, rfl⟩ := last
          rw [seek, found]
          rfl
        · refine absurd found ((tree.linkAt?_eq_none _).mp (clear [name] ⟨rest, rfl⟩ ?_) target)
          by_contra closed
          simp only [ne_eq, not_or, not_not] at closed
          exact last ⟨(List.cons.inj closed.1).2.symm, closed.2⟩

/-- A look-up that succeeds has passed through directories only. -/
theorem seek_ok (tree : FileTree) (position : Position) (names : List String)
    (entry : Option Entry) (h : tree.seek position names = .ok entry) :
    entry = tree.get? (position ++ names) ∧
      ∀ front, front <+: names → front ≠ names →
        tree.get? (position ++ front) = some .directory := by
  induction names generalizing position with
  | nil =>
    rw [seek] at h
    cases h
    refine ⟨by rw [List.append_nil], ?_⟩
    intro front above other
    exact absurd (List.prefix_nil.mp above) other
  | cons name rest ih =>
    rw [seek] at h
    split at h
    · cases h
    next isDirectory =>
      rw [not_not] at isDirectory
      split at h
      · cases h
      have shape : position ++ name :: rest = position ++ [name] ++ rest := by
        rw [List.append_assoc, List.singleton_append]
      cases found : tree.get? (position ++ [name]) with
      -- A name that is not there ends the look-up, and may only be the last one.
      | none =>
        rw [found] at h
        cases rest with
        | cons other more => cases h
        | nil =>
          cases h
          refine ⟨found.symm, ?_⟩
          intro front above other
          cases front with
          | nil => rw [List.append_nil]; exact isDirectory
          | cons first more =>
            obtain ⟨rfl, tail⟩ := List.cons_prefix_cons.mp above
            rw [List.prefix_nil.mp tail] at other
            exact absurd rfl other
      | some there =>
        rw [found] at h
        obtain ⟨reached, passed⟩ := ih (position ++ [name]) h
        refine ⟨by rw [shape]; exact reached, ?_⟩
        intro front above other
        cases front with
        | nil => rw [List.append_nil]; exact isDirectory
        | cons first more =>
          obtain ⟨rfl, tail⟩ := List.cons_prefix_cons.mp above
          have inner := passed more tail (fun same => other (by rw [same]))
          rwa [List.append_assoc, List.singleton_append] at inner

/-- A look-up reads only the entries at a path and above it. -/
theorem seek_congr (t u : FileTree) (position : Position) (names : List String)
    (same : ∀ front, front <+: names → t.get? (position ++ front) = u.get? (position ++ front)) :
    t.seek position names = u.seek position names := by
  induction names generalizing position with
  | nil =>
    have here := same [] List.prefix_rfl
    rw [List.append_nil] at here
    rw [seek, seek, here]
  | cons name rest ih =>
    have here := same [] List.nil_prefix
    have next := same [name] ⟨rest, rfl⟩
    rw [List.append_nil] at here
    -- From the next position on, the paths above are those of the whole path that begin with it.
    have tail := ih (position ++ [name]) (by
      intro front above
      rw [List.append_assoc, List.singleton_append]
      exact same (name :: front) (List.cons_prefix_cons.mpr ⟨rfl, above⟩))
    rw [seek, seek, here, next, tail]

/-- A position that paths resolve to: each name is a step, and none of them leads to a link. -/
structure IsReached (tree : FileTree) (position : Position) : Prop where
  named : ∀ name ∈ position, Path.IsName name
  clear : tree.IsClear position

namespace IsReached

variable {tree : FileTree} {position : Position}

theorem nil (tree : FileTree) : tree.IsReached [] := by
  refine ⟨fun name member => absurd member List.not_mem_nil, ?_⟩
  intro p above
  rw [List.prefix_nil.mp above]
  exact tree.linkAt?_nil

theorem dropLast (h : tree.IsReached position) : tree.IsReached position.dropLast :=
  ⟨fun name member => h.named name ((List.dropLast_sublist position).subset member),
    h.clear.of_prefix (List.dropLast_prefix position)⟩

theorem snoc (h : tree.IsReached position) (name : String) (named : Path.IsName name)
    (free : tree.linkAt? (position ++ [name]) = none) : tree.IsReached (position ++ [name]) := by
  refine ⟨?_, ?_⟩
  · intro other member
    rcases List.mem_append.mp member with old | new
    · exact h.named other old
    · rw [List.mem_singleton.mp new]
      exact named
  · exact h.clear.snoc name free

end IsReached

/-- Where no link stands a name is followed to the next position. -/
theorem follow_cons_free (tree : FileTree) (known : Known) (position : Position) (name : String)
    (rest : List String) (detours : List Detour) (busy : ¬Path.isIdle name) (down : name ≠ "..")
    (null : ¬Path.isUnfitName name) (free : tree.linkAt? (position ++ [name]) = none) :
    tree.follow known position (name :: rest) detours =
      tree.follow known (position ++ [name]) rest detours := by
  rw [follow, if_neg busy, if_neg down, if_neg null]
  dsimp only
  split
  · rfl
  next target link =>
    rw [free] at link
    cases link

/-- A link is entered unless it has been met before. -/
theorem follow_cons_link (tree : FileTree) (known : Known) (position : Position) (name : String)
    (rest : List String) (detours : List Detour) (target : String) (busy : ¬Path.isIdle name)
    (down : name ≠ "..") (null : ¬Path.isUnfitName name)
    (link : tree.linkAt? (position ++ [name]) = some target) :
    tree.follow known position (name :: rest) detours =
      match known.get? (position ++ [name]) with
      | some (some goal) => tree.follow known goal rest detours
      | some none => .endless (position ++ [name]) (rest :: detours.map (·.after))
      | none =>
        tree.follow ((position ++ [name], none) :: known)
          (if target.startsWith "/" then [] else position) (Path.pieces target)
          (⟨position ++ [name], rest⟩ :: detours) := by
  rw [follow, if_neg busy, if_neg down, if_neg null]
  dsimp only
  split
  next free =>
    rw [link] at free
    cases free
  next target' linked =>
    -- Whether the link has been met decides the rest, and `follow` says so in three cases.
    obtain rfl : target = target' := Option.some.inj (link.symm.trans linked)
    split
    next found => rw [found]
    next found => rw [found]
    next found => rw [found]

/-- A resolution that ends has reached a position without links. -/
theorem isReached_of_follow (tree : FileTree) (known : Known) (position : Position)
    (names : List String) (detours : List Detour) (goal : Position)
    (start : tree.IsReached position)
    (answers : ∀ link goal, known.get? link = some (some goal) → tree.IsReached goal)
    (whole : ∀ name ∈ names, '/' ∉ name.toList)
    (wholeAfter : ∀ d ∈ detours, ∀ name ∈ d.after, '/' ∉ name.toList)
    (h : tree.follow known position names detours = .resolved goal) : tree.IsReached goal := by
  -- The position reached so far and every goal that is known are free of links.
  fun_induction follow tree known position names detours with
  | case1 known position =>
    cases h
    exact start
  | case2 known position d outer ih =>
    refine ih start ?_ (wholeAfter d List.mem_cons_self)
      (fun other member => wholeAfter other (List.mem_cons_of_mem _ member)) h
    intro link goal answered
    rw [Known.get?_cons] at answered
    split at answered
    · cases answered
      exact start
    · exact answers link goal answered
  | case3 known position detours name rest idle ih =>
    exact ih start answers (fun other member => whole other (List.mem_cons_of_mem _ member))
      wholeAfter h
  | case4 known position detours rest busy ih =>
    exact ih start.dropLast answers
      (fun other member => whole other (List.mem_cons_of_mem _ member)) wholeAfter h
  | case5 => cases h
  | case6 known position detours name rest busy down null next link ih =>
    have named : Path.IsName name :=
      ⟨Bool.eq_false_iff.mpr busy, down, whole name List.mem_cons_self⟩
    exact ih (start.snoc name named link) answers
      (fun other member => whole other (List.mem_cons_of_mem _ member)) wholeAfter h
  | case7 known position detours name rest busy down null next target link found answered ih =>
    exact ih (answers next found answered) answers
      (fun other member => whole other (List.mem_cons_of_mem _ member)) wholeAfter h
  | case8 => cases h
  | case9 known position detours name rest busy down null next target link new ih =>
    refine ih ?_ ?_ (Path.whole_of_mem_pieces target) ?_ h
    · split
      · exact IsReached.nil tree
      · exact start
    · intro other goal answered
      rw [Known.get?_cons] at answered
      split at answered
      · cases answered
      · exact answers other goal answered
    · intro d member
      rcases List.mem_cons.mp member with rfl | old
      · exact fun other after => whole other (List.mem_cons_of_mem _ after)
      · exact wholeAfter d old

/-- A position that has been reached is its own resolution. -/
theorem follow_of_isReached (tree : FileTree) (known : Known) (position : Position)
    (names : List String) (h : tree.IsReached (position ++ names))
    (unbroken : ∀ name ∈ names, Path.isUnfitName name = false) :
    tree.follow known position names [] = .resolved (position ++ names) := by
  induction names generalizing position with
  | nil => rw [follow, List.append_nil]
  | cons name rest ih =>
    have shape : position ++ [name] ++ rest = position ++ name :: rest := by
      rw [List.append_assoc, List.singleton_append]
    have named := h.named name (List.mem_append_right _ List.mem_cons_self)
    have free : tree.linkAt? (position ++ [name]) = none := h.clear _ ⟨rest, shape⟩
    have later := ih (position ++ [name]) (by rwa [shape])
      (fun other member => unbroken other (List.mem_cons_of_mem _ member))
    have busy : ¬Path.isIdle name = true := Bool.eq_false_iff.mp named.busy
    have null : ¬Path.isUnfitName name = true :=
      Bool.eq_false_iff.mp (unbroken name List.mem_cons_self)
    rw [tree.follow_cons_free known position name rest [] busy named.down null free, later, shape]

theorem IsReached.resolved {tree : FileTree} {position : Position}
    (h : tree.IsReached position) : tree.Resolved (.absolute position) :=
  ⟨⟨rfl, h.named⟩, h.clear⟩

/-- No entry of a tree is a link. -/
def IsLinkless (tree : FileTree) : Prop := ∀ e ∈ tree.entries, tree.linkAt? e.1 = none

instance (tree : FileTree) : Decidable tree.IsLinkless :=
  inferInstanceAs (Decidable (∀ e ∈ tree.entries, tree.linkAt? e.1 = none))

theorem IsLinkless.linkAt?_eq_none {tree : FileTree} (h : tree.IsLinkless) (p : Position) :
    tree.linkAt? p = none := by
  cases link : tree.linkAt? p with
  | none => rfl
  | some target =>
    obtain ⟨e, listed, rfl⟩ := mem_of_linkAt? link
    rw [h e listed] at link
    cases link

theorem IsLinkless.isReached {tree : FileTree} (h : tree.IsLinkless) (position : Position)
    (named : ∀ name ∈ position, Path.IsName name) : tree.IsReached position :=
  ⟨named, fun p _ => h.linkAt?_eq_none p⟩

/-- Some names lead back to a link that is being followed. -/
def HasEndlessLink (tree : FileTree) : Prop :=
  ∃ names link rests, tree.follow [] [] names [] = .endless link rests

/-- A path resolves to where it leads, or to what is left of it behind an endless link. -/
theorem resolve_eq_ok_iff (tree : FileTree) (path full : Path) : tree.resolve path = .ok full ↔
    (∃ position, tree.follow [] [] path.names [] = .resolved position ∧
      full = .absolute position) ∨
    ∃ link rests, tree.follow [] [] path.names [] = .endless link rests ∧
      full.isUnfit = false ∧ tree.stat full ≠ .error .linkLoop ∧ full = unending link rests := by
  rw [resolve]
  cases tree.follow [] [] path.names [] with
  | resolved position =>
    constructor
    · intro h
      cases h
      exact .inl ⟨position, rfl, rfl⟩
    · rintro (⟨_, ⟨⟩, rfl⟩ | ⟨_, _, ⟨⟩, _⟩)
      rfl
  | unfit position => simp
  -- A link that never ends is resolved in part, unless the rest cannot be looked up at all.
  | endless link rests =>
    simp only [reduceCtorEq, false_and, exists_false, false_or, Resolution.endless.injEq]
    constructor
    · intro h
      split at h
      · cases h
      next unbroken =>
        split at h
        · cases h
        next ends =>
          cases h
          exact ⟨link, rests, ⟨rfl, rfl⟩, by simpa using unbroken, ends, rfl⟩
    · rintro ⟨_, _, ⟨rfl, rfl⟩, unbroken, ends, rfl⟩
      rw [if_neg (by simpa using unbroken)]
      split
      next loops => exact absurd loops ends
      next => rfl

/-- A position that has been reached resolves to itself. -/
theorem IsReached.resolve_eq {tree : FileTree} {position : Position}
    (h : tree.IsReached position) (unbroken : ∀ name ∈ position, Path.isUnfitName name = false) :
    tree.resolve (.absolute position) = .ok (.absolute position) := by
  have followed := tree.follow_of_isReached [] [] position (by rwa [List.nil_append]) unbroken
  exact (tree.resolve_eq_ok_iff ..).mpr (.inl ⟨_, followed, by rw [List.nil_append]⟩)

/-- What following a path ends at is reached. -/
theorem isReached_of_resolved (tree : FileTree) (path : Path) (position : Position)
    (whole : path.IsWhole) (h : tree.follow [] [] path.names [] = .resolved position) :
    tree.IsReached position :=
  tree.isReached_of_follow [] [] path.names [] position (.nil tree)
    (fun _ _ answered => nomatch answered) whole (fun _ member => absurd member List.not_mem_nil) h

/-- What a path resolves to takes one step down with each name, whatever links were met. -/
theorem isName_of_resolve (tree : FileTree) (path full : Path) (whole : path.IsWhole)
    (h : tree.resolve path = .ok full) : ∀ name ∈ full.names, Path.IsName name := by
  rcases (tree.resolve_eq_ok_iff path full).mp h with
    ⟨position, followed, rfl⟩ | ⟨link, rests, _, _, _, rfl⟩
  · exact (tree.isReached_of_resolved path position whole followed).named
  · exact fun name member => Path.IsName.of_mem_collapsed _ name member

/-- What a path resolves to leads where its names say, unless an endless link was met. -/
theorem resolved_of_resolve (tree : FileTree) (path full : Path) (whole : path.IsWhole)
    (h : tree.resolve path = .ok full) :
    full.IsWhole ∧ (tree.Resolved full ∨ tree.HasEndlessLink) := by
  refine ⟨fun name member => (tree.isName_of_resolve path full whole h name member).whole, ?_⟩
  rcases (tree.resolve_eq_ok_iff path full).mp h with
    ⟨position, followed, rfl⟩ | ⟨link, rests, followed, _⟩
  · exact .inl (tree.isReached_of_resolved path position whole followed).resolved
  · exact .inr ⟨path.names, link, rests, followed⟩

/-- The entry that a resolved path names, or why it cannot be looked up. -/
def entry (tree : FileTree) (path : Path) : Except FileError (Option Entry) :=
  if path.isUnfit then .error (.unfit path)
  else if maxPathBytes ≤ Text.nameSize path.text then fail .nameTooLong path
  else
    match tree.seek [] path.names with
    | .error e => fail e path
    | .ok entry => .ok entry

/-- An entry is found by the names of a path that is short enough and has no unfit name. -/
theorem entry_eq_ok_iff (tree : FileTree) (path : Path) (entry : Option Entry) :
    tree.entry path = .ok entry ↔ path.isUnfit = false ∧
      ¬maxPathBytes ≤ Text.nameSize path.text ∧ tree.seek [] path.names = .ok entry := by
  rw [FileTree.entry]
  by_cases null : path.isUnfit = true
  · simp [null]
  · rw [if_neg null]
    by_cases long : maxPathBytes ≤ Text.nameSize path.text
    · simp [long, fail]
    · rw [if_neg long]
      cases tree.seek [] path.names with
      | error e => simp [fail]
      | ok found => simp [null, Nat.not_le.mp long]

/-- What is found stands at the position of the path, in directories. -/
theorem entry_ok (tree : FileTree) (path : Path) (entry : Option Entry)
    (h : tree.entry path = .ok entry) : entry = tree.get? path.names ∧
      ∀ p, p <+: path.names → p ≠ path.names → tree.get? p = some .directory := by
  have facts := tree.seek_ok [] path.names entry ((tree.entry_eq_ok_iff path entry).mp h).2.2
  simpa only [List.nil_append] using facts

/-- An entry depends on what stands at the path and above it. -/
theorem entry_congr (t u : FileTree) (path : Path)
    (same : ∀ p, p <+: path.names → t.get? p = u.get? p) : t.entry path = u.entry path := by
  have sought := seek_congr t u [] path.names (by simpa only [List.nil_append] using same)
  unfold entry
  rw [sought]

/-- The links of one tree stand where links stand in another. -/
def LinksWithin (u t : FileTree) : Prop := ∀ p, t.linkAt? p = none → u.linkAt? p = none

namespace LinksWithin

variable {t u v : FileTree}

theorem refl (t : FileTree) : t.LinksWithin t := fun _ free => free

theorem trans (second : v.LinksWithin u) (first : u.LinksWithin t) : v.LinksWithin t :=
  fun p free => second p (first p free)

theorem isClear (h : u.LinksWithin t) {position : Position} (clear : t.IsClear position) :
    u.IsClear position :=
  fun p above => h p (clear p above)

theorem resolved (h : u.LinksWithin t) {path : Path} (resolved : t.Resolved path) :
    u.Resolved path :=
  ⟨resolved.plain, h.isClear resolved.clear⟩

theorem held (h : u.LinksWithin t) {path : Path} (held : t.Held path) : u.Held path :=
  ⟨held.plain, h.isClear held.clear⟩

end LinksWithin

/-- A path that is walked name by name is found at its own position. -/
theorem find_of_walk_eq {tree : FileTree} {path : Path} {ending : Ending}
    (h : tree.locate ending path =
      if maxPathBytes ≤ Text.nameSize path.text then .error .nameTooLong
      else (tree.seek [] path.names).map fun entry => (path.names, entry)) :
    tree.find ending path = (tree.entry path).map fun entry => (path.names, entry) := by
  rw [find, h, FileTree.entry]
  by_cases null : path.isUnfit = true
  · rw [if_pos null, if_pos null]
    rfl
  · rw [if_neg null, if_neg null]
    by_cases long : maxPathBytes ≤ Text.nameSize path.text
    · rw [if_pos long, if_pos long]
      rfl
    · rw [if_neg long, if_neg long]
      cases tree.seek [] path.names <;> rfl

theorem Held.find_eq {tree : FileTree} {path : Path} (h : tree.Held path) :
    tree.find .kept path = (tree.entry path).map fun entry => (path.names, entry) := by
  refine find_of_walk_eq ?_
  have walked := tree.walk_eq_seek .kept maxLinks [] path.names h.plain.named (by
    intro front below inner
    rw [List.nil_append]
    exact h.linkAt?_eq_none below (inner.resolve_right (not_not.mpr rfl)))
  rw [List.nil_append] at walked
  rw [locate, h.plain.steps_eq, walked]

theorem Held.entry_of_find {tree : FileTree} {path : Path} {position : Position}
    {entry : Option Entry} (h : tree.Held path)
    (found : tree.find .kept path = .ok (position, entry)) :
    tree.entry path = .ok entry ∧ position = path.names := by
  rw [h.find_eq] at found
  cases looked : tree.entry path with
  | error e =>
    rw [looked] at found
    cases found
  | ok there =>
    rw [looked] at found
    cases found
    exact ⟨rfl, rfl⟩

namespace Resolved

variable {tree : FileTree} {path : Path}

/-- A resolved path is walked name by name, whatever its ending. -/
theorem locate_eq (h : tree.Resolved path) (ending : Ending) : tree.locate ending path =
    if maxPathBytes ≤ Text.nameSize path.text then .error .nameTooLong
    else (tree.seek [] path.names).map fun entry => (path.names, entry) := by
  have walked := tree.walk_eq_seek ending maxLinks [] path.names h.plain.named
    fun front below _ => h.clear front below
  rw [List.nil_append] at walked
  rw [locate, h.plain.steps_eq, walked]

theorem find_eq (h : tree.Resolved path) (ending : Ending) :
    tree.find ending path = (tree.entry path).map fun entry => (path.names, entry) :=
  find_of_walk_eq (h.locate_eq ending)

end Resolved

end FileTree

namespace Storage

variable (s : Storage) (tree : FileTree) (path : Path) (shown : String) (full : Path)

theorem resolve_eq_ok_iff : s.resolve tree path shown = .ok full ↔
    tree.resolve (s.root.join path) = .ok full ∧ full.isUnder s.root = true := by
  rw [resolve, Except.bind_eq_ok_iff]
  simp only [Except.mapError_eq_ok_iff]
  constructor
  · rintro ⟨found, resolved, checked⟩
    split at checked
    next under =>
      cases checked
      exact ⟨resolved, under⟩
    · cases checked
  · rintro ⟨resolved, under⟩
    exact ⟨full, resolved, if_pos under⟩

theorem fileDestination_eq_ok_iff : s.fileDestination tree path shown = .ok full ↔
    s.resolve tree path shown = .ok full ∧ full ≠ s.root ∧ tree.isDirectory full = .ok false := by
  rw [fileDestination, Except.bind_eq_ok_iff]
  constructor
  · rintro ⟨found, resolved, checked⟩
    dsimp only at checked
    split at checked
    · cases checked
    next inside =>
      obtain ⟨answer, tested, checked⟩ := Except.bind_eq_ok_iff.mp checked
      cases answer with
      | true => cases checked
      | false =>
        cases checked
        exact ⟨resolved, inside, Except.mapError_eq_ok_iff.mp tested⟩
  · rintro ⟨resolved, inside, directory⟩
    refine ⟨full, resolved, ?_⟩
    dsimp only
    rw [if_neg inside, directory]
    rfl

/-- A destination has passed the check of files, under its own or its new name. -/
theorem fileDestination_of_destination (text : String) (newName : Option String)
    (h : s.destination tree text newName = .ok full) :
    ∃ path shown, (s.root.IsWhole → path.IsWhole) ∧
      s.fileDestination tree path shown = .ok full := by
  obtain ⟨own, first, h⟩ := Except.bind_eq_ok_iff.mp h
  have whole := Path.IsWhole.ofString text
  cases newName with
  | none =>
    cases h
    exact ⟨_, _, fun _ => whole, first⟩
  | some name =>
    dsimp only at h
    split at h
    · cases h
      exact ⟨_, _, fun _ => whole, first⟩
    -- A new name is put behind the parent of the resolved path, which is whole as well.
    · have resolved := ((s.fileDestination_eq_ok_iff tree _ _ own).mp first).1
      refine ⟨_, _, fun rooted => ?_, h⟩
      have ownWhole := (tree.resolved_of_resolve _ own (rooted.join whole)
        ((s.resolve_eq_ok_iff tree _ _ own).mp resolved).1).1
      exact (ownWhole.relativeTo? s.root).parent.join (.ofString name)

/-- What is resolved under a plain root is plain, whatever links were met. -/
theorem isPlain_of_resolve (rooted : s.root.IsPlain) (whole : path.IsWhole)
    (h : s.resolve tree path shown = .ok full) : full.IsPlain := by
  obtain ⟨led, under⟩ := (s.resolve_eq_ok_iff tree path shown full).mp h
  rw [Path.isUnder, Bool.and_eq_true, decide_eq_true_eq] at under
  refine ⟨by rw [under.1, rooted.root_eq], ?_⟩
  exact tree.isName_of_resolve _ full (rooted.whole.join whole) led

/-- Without a new name the destination is the file that is named. -/
theorem destination_of_file (path : String) (full : Path)
    (h : s.fileDestination tree (Path.ofString path) path = .ok full) :
    s.destination tree path none = .ok full := by
  rw [Storage.destination, h]
  rfl

/-- A path under the root that leads where its names say resolves to itself. -/
theorem resolve_of_isReached (rooted : s.root.root = "/") (relative : path.root = "")
    (h : tree.IsReached (s.root.names ++ path.names))
    (unbroken : ∀ name ∈ s.root.names ++ path.names, Path.isUnfitName name = false) :
    s.resolve tree path shown = .ok (.absolute (s.root.names ++ path.names)) := by
  have joined : s.root.join path = .absolute (s.root.names ++ path.names) := by
    rw [Path.join, Path.isAbsolute, relative, if_neg (by decide), rooted]
    rfl
  have under : (Path.absolute (s.root.names ++ path.names)).isUnder s.root = true := by
    rw [Path.isUnder, rooted, Bool.and_eq_true]
    exact ⟨decide_eq_true rfl, List.isPrefixOf_iff_prefix.mpr (List.prefix_append _ _)⟩
  rw [resolve_eq_ok_iff, joined]
  exact ⟨h.resolve_eq unbroken, under⟩

end Storage

end Montage
