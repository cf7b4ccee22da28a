import Montage.Number.Numeral
import Montage.Proofs.Attempt
import Montage.Proofs.Graph.Marks

/-!
# Reading a graph's text back

The text of a compiled graph settles its outline: how many operations there are, and of each the
kind, the labels, the whole numbers and whether it loops. The outline is read off the text: marks
divide it into operations and labels, the first word of an operation tells its kind, and the kind
tells what stands before each of its numbers. Turns and flips are left open, since a half turn
reads as two flips, and so are times and amounts, which are rounded.
-/
namespace Montage

/-- What the text of an operation says of it. -/
structure Outline where
  kind : FilterKind
  inputs : List Label
  output : Label
  /-- Sizes, places, rates and counts, in the order of the text. -/
  numbers : List Int
  loop : Bool
deriving DecidableEq

namespace FilterOp

variable {α : Type}

def numbers : FilterOp α → List Int
  | colorSource _ _ width height _ fps => [width, height, fps]
  | crop _ _ rect => [rect.width, rect.height, rect.x, rect.y]
  | scale _ _ width height => [width, height]
  | overlay _ _ _ x y _ _ => [x, y]
  | audioMix _ _ count _ => [count]
  | _ => []

def isLooped : FilterOp α → Bool
  | trim _ _ _ _ _ loop => loop
  | _ => false

def outline (op : FilterOp α) : Outline :=
  ⟨op.kind, op.inputs, op.output, op.numbers, op.isLooped⟩

end FilterOp

namespace FilterKind

/-- What stands before each whole number in the text of an operation. -/
def template : FilterKind → List String
  | colorSource => ["color=c=black:s=", "x", ":r="]
  | crop => ["crop=", ":", ":", ":"]
  | scale => ["scale=", ":"]
  | overlay => ["overlay=x=", ":y="]
  | audioMix => ["amix=inputs="]
  | _ => []

/-- The words that an operation can begin with. -/
def words : List (String × FilterKind) := [
  ("color", colorSource), ("crop", crop), ("trim", trim), ("loop", trim), ("eq", colorAdjust),
  ("scale", scale), ("transpose", rotateFlip), ("hflip", rotateFlip), ("vflip", rotateFlip),
  ("null", rotateFlip), ("overlay", overlay), ("atrim", audioTrim), ("amix", audioMix)]

def ofWord? (word : String) : Option FilterKind := (words.find? (·.1 = word)).map (·.2)

end FilterKind

namespace Outline

/-- The integer at the front of a text and what follows it. -/
def leadingInteger (text : List Char) : Int × List Char :=
  let (negative, body) := Numeral.sign text
  let (digits, after) := Numeral.digitRun body
  (if negative then -(Numeral.digitsValue digits : Int) else Numeral.digitsValue digits, after)

/-- The integers that each follow one of the given texts. -/
def readNumbers : List String → List Char → Option (List Int)
  | [], _ => some []
  | before :: later, text =>
    if before.toList.isPrefixOf text then
      let (n, rest) := leadingInteger (text.drop before.toList.length)
      (readNumbers later rest).map (n :: ·)
    else none

def firstWord (text : List Char) : String := String.ofList (text.takeWhile Char.isAlpha)

/-- The labels in brackets. -/
def bracketed : List Char → List Label
  | [] => []
  | c :: rest =>
    if c = '[' then String.ofList (rest.takeWhile (· ≠ ']')) :: bracketed rest else bracketed rest

/-- What stands outside of brackets; `inside` says that one is open. -/
def unbracketed (inside : Bool) : List Char → List Char
  | [] => []
  | c :: rest =>
    if c = '[' then unbracketed true rest
    else if c = ']' then unbracketed false rest
    else if inside then unbracketed inside rest
    else c :: unbracketed inside rest

/-- The outline of one operation. -/
def ofLine? (line : List Char) : Option Outline := do
  let action := unbracketed false line
  let word := firstWord action
  let kind ← FilterKind.ofWord? word
  let numbers ← readNumbers kind.template action
  let output ← (bracketed line).getLast?
  some ⟨kind, (bracketed line).dropLast, output, numbers, word = "loop"⟩

/-- The outlines of all operations of a text. -/
def ofText? (text : String) : Option (List Outline) :=
  ((text.toList.filter (· ≠ '\n')).splitOn ';').mapM ofLine?

/-- A text that does not go on with a digit. -/
def Stops (text : List Char) : Prop := ∀ c, text.head? = some c → c.isDigit = false

theorem stops_cons {c : Char} (rest : List Char) (h : c.isDigit = false) : Stops (c :: rest) := by
  intro d head
  cases head
  exact h

theorem digitRun_append (digits rest : List Char) (all : ∀ c ∈ digits, c.isDigit = true)
    (stop : Stops rest) : Numeral.digitRun (digits ++ rest) = (digits, rest) := by
  have shape : rest.takeWhile Char.isDigit = [] ∧ rest.dropWhile Char.isDigit = rest := by
    cases rest with
    | nil => exact ⟨rfl, rfl⟩
    | cons c rest =>
      have plain : ¬c.isDigit = true := by simp [stop c rfl]
      exact ⟨List.takeWhile_cons_of_neg plain, List.dropWhile_cons_of_neg plain⟩
  rw [Numeral.digitRun, List.takeWhile_append_of_pos all, List.dropWhile_append_of_pos all, shape.1,
    shape.2, List.append_nil]

theorem sign_digits (n : Nat) (rest : List Char) :
    Numeral.sign (Nat.toDigits 10 n ++ rest) = (false, Nat.toDigits 10 n ++ rest) := by
  cases shape : Nat.toDigits 10 n with
  | nil => exact absurd shape Nat.toDigits_ne_nil
  | cons c digits =>
    have digit := Labels.isDigit_of_mem_digits n c (by simp [shape])
    rw [List.cons_append, Numeral.sign]
    · intro _ plus
      exact absurd ((List.cons.inj plus).1 ▸ digit) (by decide)
    · intro _ minus
      exact absurd ((List.cons.inj minus).1 ▸ digit) (by decide)

theorem digitsValue_digits (n : Nat) : Numeral.digitsValue (Nat.toDigits 10 n) = n :=
  Nat.ofDigitChars_ten_toDigits

theorem leadingInteger_append (n : Int) (rest : List Char) (stop : Stops rest) :
    leadingInteger ((toString n).toList ++ rest) = (n, rest) := by
  cases n with
  | ofNat n =>
    rw [Int.ofNat_eq_natCast, Labels.toList_toString_natCast, leadingInteger, sign_digits]
    dsimp only
    rw [digitRun_append _ rest (Labels.isDigit_of_mem_digits n) stop]
    simp [digitsValue_digits]
  | negSucc n =>
    rw [Labels.toList_toString_negSucc, List.cons_append, leadingInteger, Numeral.sign]
    dsimp only
    rw [digitRun_append _ rest (Labels.isDigit_of_mem_digits (n + 1)) stop]
    simp only [digitsValue_digits, if_true]
    rfl

/-- Integers, each behind its text, in front of the rest. -/
def spell : List String → List Int → List Char → List Char
  | before :: later, n :: ns, rest => before.toList ++ ((toString n).toList ++ spell later ns rest)
  | _, _, rest => rest

theorem stops_spell (template : List String)
    (divides : ∀ before ∈ template, ∃ c, before.toList.head? = some c ∧ c.isDigit = false)
    (ns : List Int) (rest : List Char) (stop : Stops rest) : Stops (spell template ns rest) := by
  cases template with
  | nil => exact stop
  | cons before later =>
    cases ns with
    | nil => exact stop
    | cons n ns =>
      obtain ⟨c, head, plain⟩ := divides before List.mem_cons_self
      intro d head'
      rw [spell, List.head?_append, head] at head'
      cases head'
      exact plain

theorem readNumbers_spell (template : List String)
    (divides : ∀ before ∈ template, ∃ c, before.toList.head? = some c ∧ c.isDigit = false)
    (ns : List Int) (sized : ns.length = template.length) (rest : List Char) (stop : Stops rest) :
    readNumbers template (spell template ns rest) = some ns := by
  induction template generalizing ns with
  | nil => rw [List.eq_nil_of_length_eq_zero sized, readNumbers]
  | cons before later ih =>
    cases ns with
    | nil => cases sized
    | cons n ns =>
      have divides' : ∀ before ∈ later, ∃ c, before.toList.head? = some c ∧ c.isDigit = false :=
        fun b member => divides b (List.mem_cons_of_mem _ member)
      -- A number ends where the next piece of the template begins, which is no digit.
      have present : before.toList.isPrefixOf (spell (before :: later) (n :: ns) rest) = true :=
        List.isPrefixOf_iff_prefix.mpr (List.prefix_append _ _)
      rw [readNumbers, if_pos present, spell, List.drop_left,
        leadingInteger_append n _ (stops_spell later divides' ns rest stop)]
      dsimp only
      rw [ih divides' ns (Nat.succ.inj sized), Option.map_some]

theorem template_divides (kind : FilterKind) :
    ∀ before ∈ kind.template, ∃ c, before.toList.head? = some c ∧ c.isDigit = false := by
  have checked : kind.template.all fun before => before.toList.head?.any (!·.isDigit) := by
    cases kind <;> decide
  intro before member
  have head := List.all_eq_true.mp checked before member
  cases found : before.toList.head? with
  | none =>
    rw [found] at head
    cases head
  | some c => exact ⟨c, rfl, by simpa [found] using head⟩

/-- A text that begins like another one, which does not only consist of letters. -/
theorem firstWord_append (front rest : List Char) (h : (front.any (!·.isAlpha)) = true) :
    firstWord (front ++ rest) = firstWord front := by
  rw [firstWord, firstWord]
  congr 1
  induction front with
  | nil => cases h
  | cons c front ih =>
    by_cases letter : c.isAlpha = true
    · rw [List.cons_append, List.takeWhile_cons_of_pos letter, List.takeWhile_cons_of_pos letter]
      rw [List.any_cons, letter] at h
      rw [ih h]
    · rw [List.cons_append, List.takeWhile_cons_of_neg letter, List.takeWhile_cons_of_neg letter]

/-- The text of an operation between its labels, read back. -/
structure Reads (op : FilterOp Binary64) (action : List Char) : Prop where
  kind : FilterKind.ofWord? (firstWord action) = some op.kind
  loop : decide (firstWord action = "loop") = op.isLooped
  numbers : readNumbers op.kind.template action = some op.numbers
  unmarked : GraphText.IsUnmarked action

open GraphText in
/-- An operation without numbers is told by how its text begins. -/
theorem reads_of_front (op : FilterOp Binary64) (front : String) (rest : List Char)
    (divided : (front.toList.any (!·.isAlpha)) = true)
    (kind : FilterKind.ofWord? (firstWord front.toList) = some op.kind)
    (loop : decide (firstWord front.toList = "loop") = op.isLooped)
    (numbers : op.kind.template = [] ∧ op.numbers = [])
    (unmarkedFront : IsUnmarked front.toList) (unmarkedRest : IsUnmarked rest) :
    Reads op (front.toList ++ rest) := by
  have word : firstWord (front.toList ++ rest) = firstWord front.toList :=
    firstWord_append _ _ divided
  refine ⟨by rw [word, kind], by rw [word, loop], ?_, ?_⟩
  · rw [numbers.1, numbers.2, readNumbers]
  · exact isUnmarked_append.mpr ⟨unmarkedFront, unmarkedRest⟩

/-- What stands before the first number begins with the word of the kind. -/
theorem word_template (kind : FilterKind) (before : String) (later : List String)
    (h : kind.template = before :: later) :
    (before.toList.any (!·.isAlpha)) = true ∧
      FilterKind.ofWord? (firstWord before.toList) = some kind ∧
      firstWord before.toList ≠ "loop" := by
  cases kind <;> cases h <;> decide

open GraphText in
theorem isUnmarked_spell (template : List String)
    (plain : ∀ before ∈ template, IsUnmarked before.toList) (ns : List Int) (rest : List Char)
    (unmarked : IsUnmarked rest) : IsUnmarked (spell template ns rest) := by
  induction template generalizing ns with
  | nil => exact unmarked
  | cons before later ih =>
    cases ns with
    | nil => exact unmarked
    | cons n ns =>
      have tail := ih (fun b member => plain b (List.mem_cons_of_mem _ member)) ns
      exact isUnmarked_append.mpr ⟨plain before List.mem_cons_self,
        isUnmarked_append.mpr ⟨isUnmarked_integer n, tail⟩⟩

open GraphText in
/-- An operation whose text is its numbers, each behind its part of the template. -/
theorem reads_of_spell (op : FilterOp Binary64) (rest : List Char)
    (sized : op.numbers.length = op.kind.template.length) (some_number : op.numbers ≠ [])
    (loop : op.isLooped = false) (stop : Stops rest) (unmarked : IsUnmarked rest) :
    Reads op (spell op.kind.template op.numbers rest) := by
  have plain : ∀ before ∈ op.kind.template, IsUnmarked before.toList := by
    cases op.kind <;> decide
  cases template : op.kind.template with
  | nil =>
    rw [template] at sized
    exact absurd (List.eq_nil_of_length_eq_zero sized) some_number
  | cons before later =>
    cases numbers : op.numbers with
    | nil => exact absurd numbers some_number
    | cons n ns =>
      -- The template's first word gives the kind away, and is no loop.
      obtain ⟨divided, kind, word⟩ := word_template op.kind before later template
      have first : firstWord (spell (before :: later) (n :: ns) rest) =
          firstWord before.toList := firstWord_append _ _ divided
      refine ⟨by rw [first, kind], by rw [first, loop, decide_eq_false word], ?_, ?_⟩
      · rw [numbers, template]
        rw [template, numbers] at sized
        exact readNumbers_spell _ (template ▸ template_divides op.kind) _ sized rest stop
      · exact isUnmarked_spell _ (template ▸ plain) _ rest unmarked

theorem isUnmarked_luminance (ratio : Binary64) :
    GraphText.IsUnmarked (GraphText.luminance ratio).toList := by
  unfold GraphText.luminance
  split
  · decide
  · simp only [String.toList_append, GraphText.isUnmarked_append, GraphText.isUnmarked_text,
      and_true]
    decide

open GraphText in
theorem reads_turnAndFlips (source output : Label) (degrees : Int) (flipH flipV : Bool)
    (action : String) (written : turnAndFlips degrees flipH flipV = .ok action) :
    Reads (.rotateFlip source output degrees flipH flipV) action.toList := by
  have words (word : String) (h : FilterKind.ofWord? (firstWord word.toList) = some .rotateFlip ∧
      firstWord word.toList ≠ "loop" ∧ IsUnmarked word.toList) :
      Reads (.rotateFlip source output degrees flipH flipV) word.toList :=
    ⟨h.1, decide_eq_false h.2.1, rfl, h.2.2⟩
  unfold turnAndFlips turnParts at written
  -- Each of the four turns with or without either flip is spelled in words alone.
  split at written
  · cases flipH <;> cases flipV <;> cases written <;> exact words _ (by decide)
  · split at written
    · cases flipH <;> cases flipV <;> cases written <;> exact words _ (by decide)
    · split at written
      · cases flipH <;> cases flipV <;> cases written <;> exact words _ (by decide)
      · split at written
        · cases flipH <;> cases flipV <;> cases written <;> exact words _ (by decide)
        · cases written

section

open GraphText

variable {action : String}

theorem reads_colorSource (output : Label) (color : String) (width height : Int)
    (duration : Binary64) (fps : Int)
    (writable : FilterOp.IsWritable (.colorSource output color width height duration fps))
    (written : FilterOp.action (.colorSource output color width height duration fps) = .ok action) :
    Reads (.colorSource output color width height duration fps) action.toList := by
  have black := writable.black _ _ _ _ _ _ rfl
  cases written
  -- Up to its duration the text is a template with three integers.
  let rest := ":d=".toList ++ duration.fixed.toList
  have text : (s!"color=c={color}:s={width}x{height}:r={fps}:d=" ++ duration.fixed).toList =
      spell FilterKind.colorSource.template [width, height, fps] rest := by
    simp [spell, rest, toString, FilterKind.template, black]
  rw [text]
  exact reads_of_spell (.colorSource output color width height duration fps) rest rfl
    (by simp [FilterOp.numbers]) rfl (stops_cons _ (by decide))
    (isUnmarked_append.mpr ⟨by decide, isUnmarked_fixed _⟩)

theorem reads_crop (source output : Label) (rect : PixelRect)
    (written : FilterOp.action (.crop source output rect) = .ok action) :
    Reads (.crop source output rect) action.toList := by
  cases written
  have text : s!"crop={rect.width}:{rect.height}:{rect.x}:{rect.y}".toList =
      spell FilterKind.crop.template [rect.width, rect.height, rect.x, rect.y] [] := by
    simp [spell, toString, FilterKind.template]
  rw [text]
  exact reads_of_spell (.crop source output rect) [] rfl (by simp [FilterOp.numbers]) rfl nofun
    isUnmarked_nil

theorem reads_trim (source output : Label) (start duration offset : Binary64) (loop : Bool)
    (written : FilterOp.action (.trim source output start duration offset loop) = .ok action) :
    Reads (.trim source output start duration offset loop) action.toList := by
  cases written
  let rest := start.fixed.toList ++ (":duration=".toList ++ (duration.fixed.toList ++
    (",setpts=PTS-STARTPTS+".toList ++ (offset.fixed.toList ++ "/TB".toList))))
  have unmarked : IsUnmarked rest := by
    simp only [rest, isUnmarked_append, isUnmarked_fixed, true_and]
    decide
  cases loop with
  -- A loop is put before the trim, so the text of a looped trim has another front.
  | false =>
    have text : (commas (trimParts start duration offset false)).toList =
        "trim=start=".toList ++ rest := by
      simp [commas, trimParts, rest]
    rw [text]
    exact reads_of_front _ "trim=start=" rest (by decide) rfl rfl ⟨rfl, rfl⟩ (by decide) unmarked
  | true =>
    have text : (commas (trimParts start duration offset true)).toList =
        "loop=loop=-1:size=1:start=0,trim=start=".toList ++ rest := by
      simp [commas, trimParts, rest]
    rw [text]
    exact reads_of_front _ "loop=loop=-1:size=1:start=0,trim=start=" rest (by decide)
      rfl rfl ⟨rfl, rfl⟩ (by decide) unmarked

theorem reads_colorAdjust (source output : Label)
    (brightness contrast saturation gamma ratio : Binary64)
    (written : FilterOp.action
      (.colorAdjust source output brightness contrast saturation gamma ratio) = .ok action) :
    Reads (.colorAdjust source output brightness contrast saturation gamma ratio)
      action.toList := by
  cases written
  -- The kind is told by the front, and no integers follow. The rest only has to be unmarked.
  let rest := brightness.text.toList ++ (":contrast=".toList ++ (contrast.text.toList ++
    (":saturation=".toList ++ (saturation.text.toList ++ (":gamma=".toList ++
      (gamma.text.toList ++ (luminance ratio).toList))))))
  have text : ("eq=brightness=" ++ brightness.text ++ ":contrast=" ++ contrast.text
      ++ ":saturation=" ++ saturation.text ++ ":gamma=" ++ gamma.text
      ++ luminance ratio).toList = "eq=brightness=".toList ++ rest := by
    simp [rest]
  have unmarked : IsUnmarked rest := by
    simp only [rest, isUnmarked_append, isUnmarked_text, isUnmarked_luminance, true_and, and_true]
    decide
  rw [text]
  exact reads_of_front _ "eq=brightness=" rest (by decide) rfl rfl ⟨rfl, rfl⟩ (by decide)
    unmarked

theorem reads_scale (source output : Label) (width height : Int)
    (written : FilterOp.action (.scale source output width height) = .ok action) :
    Reads (.scale source output width height) action.toList := by
  cases written
  have text : s!"scale={width}:{height}".toList =
      spell FilterKind.scale.template [width, height] [] := by
    simp [spell, toString, FilterKind.template]
  rw [text]
  exact reads_of_spell (.scale source output width height) [] rfl (by simp [FilterOp.numbers])
    rfl nofun isUnmarked_nil

theorem reads_overlay (base top output : Label) (x y : Int) (start stop : Binary64)
    (written : FilterOp.action (.overlay base top output x y start stop) = .ok action) :
    Reads (.overlay base top output x y start stop) action.toList := by
  cases written
  let rest := ":eof_action=pass:enable='gte(t,".toList ++ (start.fixed.toList ++
    (")*lt(t,".toList ++ (stop.fixed.toList ++ ")'".toList)))
  have text : (s!"overlay=x={x}:y={y}:eof_action=pass:enable='gte(t," ++ start.fixed
      ++ ")*lt(t," ++ stop.fixed ++ ")'").toList =
      spell FilterKind.overlay.template [x, y] rest := by
    simp [spell, rest, toString, FilterKind.template]
  have unmarked : IsUnmarked rest := by
    simp only [rest, isUnmarked_append, isUnmarked_fixed, true_and]
    decide
  rw [text]
  exact reads_of_spell (.overlay base top output x y start stop) rest rfl
    (by simp [FilterOp.numbers]) rfl (stops_cons _ (by decide)) unmarked

theorem reads_audioTrim (source output : Label) (start duration delay gain : Binary64)
    (written : FilterOp.action (.audioTrim source output start duration delay gain) = .ok action) :
    Reads (.audioTrim source output start duration delay gain) action.toList := by
  obtain ⟨ms, _, written⟩ := Except.bind_eq_ok_iff.mp written
  cases written
  let rest := start.fixed.toList ++ (":duration=".toList ++ (duration.fixed.toList ++
    (",asetpts=PTS-STARTPTS,adelay=".toList ++ ((toString ms).toList ++
      (":all=1,volume=".toList ++ gain.text.toList)))))
  have text : ("atrim=start=" ++ start.fixed ++ ":duration=" ++ duration.fixed
      ++ s!",asetpts=PTS-STARTPTS,adelay={ms}:all=1,volume=" ++ gain.text).toList =
      "atrim=start=".toList ++ rest := by
    simp [rest, toString]
  have unmarked : IsUnmarked rest := by
    simp only [rest, isUnmarked_append, isUnmarked_fixed, isUnmarked_text, isUnmarked_integer,
      true_and, and_true]
    decide
  rw [text]
  exact reads_of_front _ "atrim=start=" rest (by decide) rfl rfl ⟨rfl, rfl⟩ (by decide) unmarked

theorem reads_audioMix (sources : List Label) (output : Label) (count : Nat) (normalize : Bool)
    (written : FilterOp.action (.audioMix sources output count normalize) = .ok action) :
    Reads (.audioMix sources output count normalize) action.toList := by
  cases written
  let rest := ":duration=longest:normalize=".toList
    ++ (toString (if normalize then 1 else 0 : Nat)).toList
  have text :
      s!"amix=inputs={count}:duration=longest:normalize={if normalize then 1 else 0}".toList =
        spell FilterKind.audioMix.template [(count : Int)] rest := by
    have number : (count : Int).repr.toList = Nat.toDigits 10 count :=
      Labels.toList_toString_natCast count
    simp [spell, rest, toString, FilterKind.template, number]
  rw [text]
  exact reads_of_spell (.audioMix sources output count normalize) rest rfl
    (by simp [FilterOp.numbers]) rfl (stops_cons _ (by decide))
    (isUnmarked_append.mpr ⟨by decide, isUnmarked_natural _⟩)

/-- The text of an operation tells its kind, its numbers and whether it loops. -/
theorem reads_action (op : FilterOp Binary64) (writable : op.IsWritable) (action : String)
    (written : op.action = .ok action) : Reads op action.toList := by
  cases op with
  | colorSource output color width height duration fps =>
    exact reads_colorSource output color width height duration fps writable written
  | crop source output rect =>
    exact reads_crop source output rect written
  | trim source output start duration offset loop =>
    exact reads_trim source output start duration offset loop written
  | colorAdjust source output brightness contrast saturation gamma ratio =>
    exact reads_colorAdjust source output brightness contrast saturation gamma ratio written
  | scale source output width height =>
    exact reads_scale source output width height written
  | rotateFlip source output degrees flipH flipV =>
    exact reads_turnAndFlips source output degrees flipH flipV action written
  | overlay base top output x y start stop =>
    exact reads_overlay base top output x y start stop written
  | audioTrim source output start duration delay gain =>
    exact reads_audioTrim source output start duration delay gain written
  | audioMix sources output count normalize =>
    exact reads_audioMix sources output count normalize written

end

theorem toList_labels (names : List Label) :
    (GraphText.labels names).toList = names.flatMap fun name => '[' :: (name.toList ++ [']']) := by
  rw [GraphText.labels, String.toList_join, List.flatMap_map]
  congr 1
  funext name
  simp

section

open GraphText

theorem ne_open_of_unmarked {chars : List Char} (h : IsUnmarked chars) (c : Char)
    (member : c ∈ chars) : c ≠ '[' := by
  rintro rfl
  exact absurd (h '[' member) (by decide)

theorem ne_close_of_unmarked {chars : List Char} (h : IsUnmarked chars) (c : Char)
    (member : c ∈ chars) : c ≠ ']' := by
  rintro rfl
  exact absurd (h ']' member) (by decide)

theorem bracketed_append (chars rest : List Char) (h : ∀ c ∈ chars, c ≠ '[') :
    bracketed (chars ++ rest) = bracketed rest := by
  induction chars with
  | nil => rfl
  | cons c chars ih =>
    rw [List.cons_append, bracketed, if_neg (h c List.mem_cons_self)]
    exact ih fun d member => h d (List.mem_cons_of_mem _ member)

/-- Labels in brackets are read back in their order. -/
theorem bracketed_labels (names : List Label) (unmarked : ∀ name ∈ names, IsUnmarked name.toList)
    (rest : List Char) :
    bracketed ((GraphText.labels names).toList ++ rest) = names ++ bracketed rest := by
  rw [toList_labels]
  induction names with
  | nil => rfl
  | cons name names ih =>
    have first := unmarked name List.mem_cons_self
    -- A name is read up to the bracket behind it, as it has no brackets itself.
    have inside : ∀ c ∈ name.toList, decide (c ≠ ']') = true :=
      fun c member => decide_eq_true (ne_close_of_unmarked first c member)
    have outside : ∀ c ∈ name.toList ++ [']'], c ≠ '[' := by
      refine List.forall_mem_append.mpr ⟨ne_open_of_unmarked first, ?_⟩
      exact List.forall_mem_singleton.mpr (by decide)
    rw [List.flatMap_cons, List.append_assoc, List.cons_append, bracketed, if_pos rfl,
      bracketed_append _ _ outside, ih fun n member => unmarked n (List.mem_cons_of_mem _ member),
      List.append_assoc, List.takeWhile_append_of_pos inside]
    simp

theorem unbracketed_append (action rest : List Char) (unmarked : IsUnmarked action) :
    unbracketed false (action ++ rest) = action ++ unbracketed false rest := by
  induction action with
  | nil => rfl
  | cons c action ih =>
    have plain := ne_open_of_unmarked unmarked c List.mem_cons_self
    have plain' := ne_close_of_unmarked unmarked c List.mem_cons_self
    rw [List.cons_append, unbracketed, if_neg plain, if_neg plain', if_neg Bool.false_ne_true,
      ih (isUnmarked_cons.mp unmarked).2, List.cons_append]

theorem unbracketed_inside (name rest : List Char) (unmarked : IsUnmarked name) :
    unbracketed true (name ++ ']' :: rest) = unbracketed false rest := by
  induction name with
  | nil => rfl
  | cons c name ih =>
    have plain := ne_open_of_unmarked unmarked c List.mem_cons_self
    have plain' := ne_close_of_unmarked unmarked c List.mem_cons_self
    rw [List.cons_append, unbracketed, if_neg plain, if_neg plain', if_pos rfl,
      ih (isUnmarked_cons.mp unmarked).2]

theorem unbracketed_labels (names : List Label)
    (unmarked : ∀ name ∈ names, IsUnmarked name.toList) (rest : List Char) :
    unbracketed false ((GraphText.labels names).toList ++ rest) = unbracketed false rest := by
  rw [toList_labels]
  induction names with
  | nil => rfl
  | cons name names ih =>
    rw [List.flatMap_cons, List.append_assoc, List.cons_append, unbracketed, if_pos rfl,
      List.append_assoc, List.singleton_append,
      unbracketed_inside _ _ (unmarked name List.mem_cons_self),
      ih fun n member => unmarked n (List.mem_cons_of_mem _ member)]

/-- The outline of an operation is read off its text. -/
theorem ofLine?_text (op : FilterOp Binary64) (writable : op.IsWritable) (line : String)
    (written : op.text = .ok line) : ofLine? line.toList = some op.outline := by
  obtain ⟨action, acted, written⟩ := Except.bind_eq_ok_iff.mp written
  cases written
  have reads := reads_action op writable action acted
  have output : ∀ name ∈ [op.output], IsUnmarked name.toList :=
    List.forall_mem_singleton.mpr writable.output
  -- Brackets stand around labels only, since the action has no marks.
  have names : bracketed (GraphText.labels op.inputs ++ action
      ++ GraphText.labels [op.output]).toList = op.inputs ++ [op.output] := by
    rw [String.toList_append, String.toList_append, List.append_assoc,
      bracketed_labels _ writable.inputs, bracketed_append _ _ (ne_open_of_unmarked reads.unmarked)]
    have last := bracketed_labels [op.output] output []
    rw [List.append_nil] at last
    rw [last]
    rfl
  have between : unbracketed false (GraphText.labels op.inputs ++ action
      ++ GraphText.labels [op.output]).toList = action.toList := by
    rw [String.toList_append, String.toList_append, List.append_assoc,
      unbracketed_labels _ writable.inputs, unbracketed_append _ _ reads.unmarked]
    have last := unbracketed_labels [op.output] output []
    rw [List.append_nil] at last
    rw [last, unbracketed, List.append_nil]
  rw [ofLine?, between, names]
  simp [reads.kind, reads.loop, reads.numbers, FilterOp.outline]

example : ofLine? "[0:v]crop=64:48:0:0[crop0]".toList =
    some ⟨.crop, ["0:v"], "crop0", [64, 48, 0, 0], false⟩ := by decide

/-- An operation's text has brackets, but no mark that divides it from others. -/
theorem undivided_text (op : FilterOp Binary64) (writable : op.IsWritable) (line : String)
    (written : op.text = .ok line) : ';' ∉ line.toList ∧ '\n' ∉ line.toList := by
  obtain ⟨action, acted, written⟩ := Except.bind_eq_ok_iff.mp written
  cases written
  have reads := reads_action op writable action acted
  -- Of the four marks only the brackets occur, and only around labels.
  have absent (mark : Char) (marks : isMark mark = true) (other : mark ≠ '[' ∧ mark ≠ ']') :
      mark ∉ (GraphText.labels op.inputs ++ action ++ GraphText.labels [op.output]).toList := by
    have unlabelled (names : List Label) (unmarked : ∀ name ∈ names, IsUnmarked name.toList) :
        mark ∉ (GraphText.labels names).toList := by
      rw [toList_labels, List.mem_flatMap]
      rintro ⟨name, listed, member⟩
      rcases List.mem_cons.mp member with rfl | member
      · exact other.1 rfl
      · rcases List.mem_append.mp member with member | member
        · rw [unmarked name listed mark member] at marks
          cases marks
        · exact other.2 (List.mem_singleton.mp member)
    rw [String.toList_append, String.toList_append, List.mem_append, List.mem_append]
    rintro ((member | member) | member)
    · exact unlabelled _ writable.inputs member
    · rw [reads.unmarked mark member] at marks
      cases marks
    · exact unlabelled _ (List.forall_mem_singleton.mpr writable.output) member
  exact ⟨absent ';' (by decide) (by decide), absent '\n' (by decide) (by decide)⟩

end

theorem filter_intercalate (lines : List (List Char)) (h : ∀ line ∈ lines, '\n' ∉ line) :
    (List.intercalate [';', '\n'] lines).filter (· ≠ '\n') = List.intercalate [';'] lines := by
  -- The only line breaks are those between the lines.
  have kept (line : List Char) (member : line ∈ lines) : line.filter (· ≠ '\n') = line := by
    refine List.filter_eq_self.mpr fun c inLine => decide_eq_true ?_
    rintro rfl
    exact h line member inLine
  induction lines with
  | nil => rfl
  | cons line rest ih =>
    have first := kept line List.mem_cons_self
    cases rest with
    | nil => simpa using first
    | cons next rest =>
      have tail := ih (fun l member => h l (List.mem_cons_of_mem _ member))
        (fun l member => kept l (List.mem_cons_of_mem _ member))
      rw [List.intercalate_cons_cons, List.intercalate_cons_cons, List.filter_append,
        List.filter_append, first, tail]
      rfl

theorem mapM_ofLine? (ops : List (FilterOp Binary64)) (lines : List String)
    (pairs : List.Forall₂ (fun op line => FilterOp.text op = .ok line) ops lines)
    (writable : ∀ op ∈ ops, op.IsWritable) :
    (lines.map String.toList).mapM ofLine? = some (ops.map FilterOp.outline) := by
  induction pairs with
  | nil => rfl
  | @cons op line ops lines first _ ih =>
    have tail := ih fun op member => writable op (List.mem_cons_of_mem _ member)
    rw [List.map_cons, List.mapM_cons, ofLine?_text op (writable op List.mem_cons_self) line first,
      tail]
    rfl

/-- The outlines of operations are read off their text. -/
theorem ofText?_graphText (ops : List (FilterOp Binary64)) (some_op : ops ≠ [])
    (writable : ∀ op ∈ ops, op.IsWritable) (text : String) (written : graphText ops = .ok text) :
    ofText? text = some (ops.map FilterOp.outline) := by
  obtain ⟨lines, each, written⟩ := Except.bind_eq_ok_iff.mp written
  cases written
  have pairs := Except.forall₂_of_mapM_eq_ok each
  -- No operation has a dividing mark in its own text, so the text falls apart into them again.
  have undivided : ∀ line ∈ lines.map String.toList, ';' ∉ line ∧ '\n' ∉ line := by
    refine List.forall_mem_map.mpr fun line member => ?_
    obtain ⟨op, listed, written⟩ := (Except.mem_of_mapM_eq_ok each).2 line member
    exact undivided_text op (writable op listed) line written
  have some_line : lines.map String.toList ≠ [] := by
    intro none
    rw [List.map_eq_nil_iff] at none
    rw [none, List.forall₂_nil_right_iff] at pairs
    exact some_op pairs
  rw [ofText?, String.toList_intercalate]
  change (List.splitOn ';'
    ((List.intercalate [';', '\n'] (lines.map String.toList)).filter _)).mapM ofLine? = _
  rw [filter_intercalate _ fun line member => (undivided line member).2,
    List.splitOn_intercalate ';' (fun line member => (undivided line member).1) some_line]
  exact mapM_ofLine? ops lines pairs writable

end Outline

theorem CompiledGraph.ofText?_graphText (timeline : Timeline Binary64) (cache : SourceCache)
    (options : CompileOptions Binary64) (g : CompiledGraph Binary64)
    (h : (compileTimeline timeline cache options).graph = .ok g) (text : String)
    (written : graphText g.ops = .ok text) :
    Outline.ofText? text = some (g.ops.map FilterOp.outline) := by
  obtain ⟨placed, assembled⟩ := compileTimeline_assembled timeline cache options g h
  exact Outline.ofText?_graphText g.ops assembled.ops_ne_nil assembled.isWritable text written

/-- The text of a compiled graph settles its outline: it can be read off, so graphs with one text
have one outline. -/
theorem outline_graphText (timeline : Timeline Binary64) (cache : SourceCache)
    (options : CompileOptions Binary64) (g : CompiledGraph Binary64)
    (h : (compileTimeline timeline cache options).graph = .ok g) (text : String)
    (written : graphText g.ops = .ok text) :
    Outline.ofText? text = some (g.ops.map FilterOp.outline) ∧
      ∀ (timeline' : Timeline Binary64) (cache' : SourceCache)
        (options' : CompileOptions Binary64) (g' : CompiledGraph Binary64),
        (compileTimeline timeline' cache' options').graph = .ok g' →
        graphText g'.ops = .ok text →
        g'.ops.map FilterOp.outline = g.ops.map FilterOp.outline := by
  have read := CompiledGraph.ofText?_graphText timeline cache options g h text written
  refine ⟨read, fun timeline' cache' options' g' h' written' => ?_⟩
  have read' := CompiledGraph.ofText?_graphText timeline' cache' options' g' h' text written'
  exact Option.some.inj (read'.symm.trans read)

theorem outline_graphText_overlapping :
    ∃ g text, (compileTimeline Timeline.overlapping SourceCache.sounding .standard).graph = .ok g ∧
      graphText g.ops = .ok text ∧ Outline.ofText? text = some (g.ops.map FilterOp.outline) := by
  obtain ⟨g, compiled⟩ := CompileOutcome.exists_graph
    (compileTimeline Timeline.overlapping SourceCache.sounding .standard) (by decide +kernel)
  have writes : ((compileTimeline Timeline.overlapping SourceCache.sounding .standard).graph.map
      fun g => (graphText g.ops).isOk) = .ok true := by decide +kernel
  rw [compiled] at writes
  cases written : graphText g.ops with
  | error e =>
    rw [Except.map, written] at writes
    exact absurd (Except.ok.inj writes) Bool.false_ne_true
  | ok text =>
    exact ⟨g, text, compiled, written, (outline_graphText _ _ _ g compiled text written).1⟩

end Montage
