/-!
# Stream labels

Streams are named by labels. A compile hands them out as a stem and a running number, one count
for each stem; the streams of the inputs are named by the input's index and a letter.
-/
namespace Montage

abbrev Label := String

/-- How many labels of each stem have been handed out. -/
structure Labels where
  counts : List (String × Nat)

namespace Labels

def none : Labels := ⟨[]⟩

def count (labels : Labels) (stem : String) : Nat :=
  ((labels.counts.find? (·.1 = stem)).map (·.2)).getD 0

/-- The count of a stem raised by one. -/
def advance (labels : Labels) (stem : String) : Labels :=
  ⟨(stem, labels.count stem + 1) :: labels.counts.filter (·.1 ≠ stem)⟩

/-- The label of a stem and a number. -/
def label (stem : String) (n : Nat) : Label := stem ++ toString n

/-- The next label of a stem. -/
def take (stem : String) : StateM Labels Label := fun labels =>
  (label stem (labels.count stem), labels.advance stem)

theorem count_advance (labels : Labels) (stem other : String) :
    (labels.advance stem).count other =
      if other = stem then labels.count stem + 1 else labels.count other := by
  unfold advance count
  by_cases h : other = stem
  · subst h; simp
  · have hs : ¬ stem = other := fun e => h e.symm
    simp only [List.find?_cons, hs, decide_false, h, if_false, List.find?_filter]
    congr 3
    funext p
    by_cases hp : p.1 = other <;> simp [hp, h]

end Labels

/-- The label of a stream of an input: `v` is its picture, `a` its sound. -/
def streamRef (input : Int) (stream : String) : Label := toString input ++ ":" ++ stream

end Montage
