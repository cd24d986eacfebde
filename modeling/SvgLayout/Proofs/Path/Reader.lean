import SvgLayout.Path.Basic
import SvgLayout.Proofs.Number.Decimal

/-!
# Reading the text of a path

A reader of path data goes through the text once. Blanks and commas divide, a letter starts a
command, and everything else is part of a word. The text of a number, also of one that is not
finite, is such a word. So the reader finds the commands of a path again, with the text of each
number in the number's place.

## Main definitions

* `PathCommand.map` — a command with each number replaced.
* `PathCommand.Agrees` — two commands of one kind, with equal flags and related numbers.
* `pathTokens`, `readTokens`, `readPath` — the reader.

## Main statements

* `isWord_formatNumber` — the text of a number is a word.
* `Path.readPath_text` — the reader finds the commands of a path.
* `Path.text_eq_text_iff_agrees` — paths have the same text exactly if they agree.
-/

namespace SvgLayout

variable {α β : Type}

/-! ## Commands with other numbers -/

namespace PathCommand

def map (f : α → β) : PathCommand α → PathCommand β
  | move target => move ⟨f target.x, f target.y⟩
  | line target => line ⟨f target.x, f target.y⟩
  | arc rx ry rotation large sweep target =>
    arc (f rx) (f ry) (f rotation) large sweep ⟨f target.x, f target.y⟩
  | quad control target => quad ⟨f control.x, f control.y⟩ ⟨f target.x, f target.y⟩
  | cubic control1 control2 target =>
    cubic ⟨f control1.x, f control1.y⟩ ⟨f control2.x, f control2.y⟩ ⟨f target.x, f target.y⟩
  | close => close

/-- The coordinates of two points are related. -/
def PointsAgree (r : α → α → Prop) (p q : Point α) : Prop :=
  r p.x q.x ∧ r p.y q.y

/-- Two commands of one kind, with the same flags and related numbers. -/
def Agrees (r : α → α → Prop) : PathCommand α → PathCommand α → Prop
  | move p, move q | line p, line q => PointsAgree r p q
  | arc rx ry rotation large sweep p, arc rx' ry' rotation' large' sweep' q =>
    r rx rx' ∧ r ry ry' ∧ r rotation rotation' ∧ large = large' ∧ sweep = sweep' ∧
      PointsAgree r p q
  | quad c p, quad d q => PointsAgree r c d ∧ PointsAgree r p q
  | cubic b c p, cubic b' d q => PointsAgree r b b' ∧ PointsAgree r c d ∧ PointsAgree r p q
  | close, close => True
  | _, _ => False

/-- Commands agree in what a function makes of their numbers exactly if it makes them equal. -/
theorem map_eq_map_iff {f : α → β} {c d : PathCommand α} :
    c.map f = d.map f ↔ Agrees (fun x y => f x = f y) c d := by
  cases c <;> cases d <;> simp [map, Agrees, PointsAgree, and_assoc]

end PathCommand

/-! ## The reader -/

/-- What path data is made of: the letters of commands, and words. -/
inductive PathToken
  | move
  | line
  | arc
  | quad
  | cubic
  | close
  | word (text : String)
  deriving DecidableEq

/-- The characters between words. -/
def dividers : List Char :=
  [' ', ',']

def commandToken? (c : Char) : Option PathToken :=
  [('M', .move), ('L', .line), ('A', .arc), ('Q', .quad), ('C', .cubic), ('Z', .close)].lookup c

/-- A word that is complete, unless it has no characters. -/
def endWord (chars : List Char) (tokens : List PathToken) : List PathToken :=
  if chars = [] then tokens else .word (String.ofList chars) :: tokens

/-- The tokens of a text, after the characters of a word that it may go on with. -/
def pathTokens (chars : List Char) : List Char → List PathToken
  | [] => endWord chars []
  | c :: rest =>
    if c ∈ dividers then endWord chars (pathTokens [] rest)
    else match commandToken? c with
      | some token => endWord chars (token :: pathTokens [] rest)
      | none => pathTokens (chars ++ [c]) rest

/-- The flag that a word stands for. -/
def readFlag (text : String) : Option Bool :=
  [("0", false), ("1", true)].lookup text

/-- The commands that tokens make up. -/
def readTokens : List PathToken → Option (Path String)
  | [] => some []
  | .move :: .word x :: .word y :: rest => do
    return .move ⟨x, y⟩ :: (← readTokens rest)
  | .line :: .word x :: .word y :: rest => do
    return .line ⟨x, y⟩ :: (← readTokens rest)
  | .arc :: .word rx :: .word ry :: .word rotation :: .word large :: .word sweep ::
      .word x :: .word y :: rest => do
    return .arc rx ry rotation (← readFlag large) (← readFlag sweep) ⟨x, y⟩ :: (← readTokens rest)
  | .quad :: .word x1 :: .word y1 :: .word x :: .word y :: rest => do
    return .quad ⟨x1, y1⟩ ⟨x, y⟩ :: (← readTokens rest)
  | .cubic :: .word x1 :: .word y1 :: .word x2 :: .word y2 :: .word x :: .word y :: rest => do
    return .cubic ⟨x1, y1⟩ ⟨x2, y2⟩ ⟨x, y⟩ :: (← readTokens rest)
  | .close :: rest => do
    return .close :: (← readTokens rest)
  | _ => none

/-- Path data read: commands whose numbers are still texts. -/
def readPath (text : String) : Option (Path String) :=
  readTokens (pathTokens [] text.toList)

/-! ## Words -/

/-- A character that neither divides nor is the letter of a command. -/
def isWordChar (c : Char) : Bool :=
  !dividers.contains c && (commandToken? c).isNone

/-- A text that is one word to the reader. -/
structure IsWord (text : String) : Prop where
  nonempty : text.toList ≠ []
  ordinary : text.toList.all isWordChar = true

/-- The characters of a word are collected. -/
theorem pathTokens_append {word : List Char} (ordinary : word.all isWordChar = true)
    (chars rest : List Char) :
    pathTokens chars (word ++ rest) = pathTokens (chars ++ word) rest := by
  induction word generalizing chars with
  | nil => rw [List.nil_append, List.append_nil]
  | cons c word ih =>
    rw [List.all_cons, Bool.and_eq_true] at ordinary
    obtain ⟨first, ordinary⟩ := ordinary
    simp only [isWordChar, Bool.and_eq_true, Bool.not_eq_true', List.contains_eq_mem,
      decide_eq_false_iff_not, Option.isNone_iff_eq_none] at first
    obtain ⟨noDivider, noCommand⟩ := first
    have collected : pathTokens chars (c :: (word ++ rest)) =
        pathTokens (chars ++ [c]) (word ++ rest) := by
      rw [pathTokens, if_neg noDivider, noCommand]
    rw [List.cons_append, collected, ih ordinary, List.append_assoc, List.singleton_append]

theorem pathTokens_divider {c : Char} (divider : c ∈ dividers) (rest : List Char) :
    pathTokens [] (c :: rest) = pathTokens [] rest := by
  rw [pathTokens, if_pos divider]
  rfl

/-- **The text of a number is a word**, whether or not it is finite. -/
theorem isWord_formatNumber (x : Float) (precision : ℕ) : IsWord (formatNumber x precision) := by
  have fixed : NumberText.fixed x precision = (Binary64.ofFloat x).toFixed precision := rfl
  cases reads : Binary64.ofFloat x with
  | finite negative mantissa exponent =>
    have text := toList_formatNumber_of_finite reads precision
    have ordinary : ('0' :: leadingDigits).all isWordChar = true := by decide
    refine ⟨text.trans_ne (unitsText_ne_nil _ _), List.all_eq_true.mpr fun c mem => ?_⟩
    rw [text] at mem
    rcases sign_or_digit_of_mem_unitsText _ _ mem with rfl | rfl | digit
    · decide
    · decide
    · exact List.all_eq_true.mp ordinary c (mem_of_isDigit digit)
  | nan =>
    rw [formatNumber, fixed, reads, Binary64.toFixed]
    exact ⟨by decide, by decide⟩
  | infinite negative =>
    rw [formatNumber, fixed, reads, Binary64.toFixed]
    cases negative with
    | false => exact ⟨by decide, by decide⟩
    | true => exact ⟨by decide, by decide⟩

/-! ## Texts with given tokens -/

/-- The text has these tokens, if a divider follows it or nothing. -/
def HasTokens (text : String) (tokens : List PathToken) : Prop :=
  ∀ rest : List Char, (∀ c ∈ rest.head?, c ∈ dividers) →
    pathTokens [] (text.toList ++ rest) = tokens ++ pathTokens [] rest

namespace HasTokens

variable {s t : String} {tokens tokens' : List PathToken}

theorem empty : HasTokens "" [] := fun _ _ => rfl

theorem word (word : IsWord s) : HasTokens s [.word s] := by
  intro rest ends
  have complete (tokens : List PathToken) : endWord s.toList tokens = .word s :: tokens := by
    rw [endWord, if_neg word.nonempty, String.ofList_toList]
  rw [pathTokens_append word.ordinary, List.nil_append]
  cases rest with
  | nil => exact complete []
  | cons c rest =>
    have divider : c ∈ dividers := ends c rfl
    rw [pathTokens, if_pos divider, complete, pathTokens_divider divider]
    rfl

/-- Texts around a divider have the tokens of both. -/
theorem append {divider : String} {c : Char} (single : divider.toList = [c])
    (divides : c ∈ dividers) (before : HasTokens s tokens) (after : HasTokens t tokens') :
    HasTokens (s ++ divider ++ t) (tokens ++ tokens') := by
  intro rest ends
  have text : (s ++ divider ++ t).toList ++ rest = s.toList ++ c :: (t.toList ++ rest) := by
    simp [single]
  have between : ∀ d ∈ (c :: (t.toList ++ rest)).head?, d ∈ dividers := by
    intro d head
    cases head
    exact divides
  rw [text, before _ between, pathTokens_divider divides, after rest ends, List.append_assoc]

theorem comma (before : HasTokens s tokens) (after : HasTokens t tokens') :
    HasTokens (s ++ "," ++ t) (tokens ++ tokens') :=
  append rfl (by decide) before after

theorem blank (before : HasTokens s tokens) (after : HasTokens t tokens') :
    HasTokens (s ++ " " ++ t) (tokens ++ tokens') :=
  append rfl (by decide) before after

/-- The letter of a command is a token of its own. -/
theorem command {letter : String} {c : Char} {token : PathToken} (single : letter.toList = [c])
    (other : c ∉ dividers) (stands : commandToken? c = some token) (after : HasTokens t tokens) :
    HasTokens (letter ++ t) (token :: tokens) := by
  intro rest ends
  have text : (letter ++ t).toList ++ rest = c :: (t.toList ++ rest) := by
    simp [single]
  rw [text, pathTokens, if_neg other, stands]
  exact congrArg (token :: ·) (after rest ends)

end HasTokens

/-! ## Commands read back -/

namespace PathCommand

def pointTokens (p : Point String) : List PathToken :=
  [.word p.x, .word p.y]

def tokens : PathCommand String → List PathToken
  | move target => .move :: pointTokens target
  | line target => .line :: pointTokens target
  | arc rx ry rotation large sweep target =>
    .arc :: pointTokens ⟨rx, ry⟩ ++ [.word rotation] ++ [.word (flagText large)] ++
      [.word (flagText sweep)] ++ pointTokens target
  | quad control target => .quad :: pointTokens control ++ pointTokens target
  | cubic control1 control2 target =>
    .cubic :: pointTokens control1 ++ pointTokens control2 ++ pointTokens target
  | close => [.close]

theorem hasTokens_flagText (flag : Bool) : HasTokens (flagText flag) [.word (flagText flag)] := by
  cases flag with
  | false => exact .word ⟨by decide, by decide⟩
  | true => exact .word ⟨by decide, by decide⟩

theorem readFlag_flagText (flag : Bool) : readFlag (flagText flag) = some flag := by
  cases flag <;> decide

/-- The tokens of a command are read as the command. -/
theorem readTokens_tokens_append (c : PathCommand String) (rest : List PathToken) :
    readTokens (c.tokens ++ rest) = (readTokens rest).map (c :: ·) := by
  cases c <;>
    simp [tokens, pointTokens, readTokens, readFlag_flagText, Option.map_eq_bind]

section

variable [NumberText α] {precision : ℕ}

/-- The text of a command only depends on the texts of its numbers. -/
theorem text_eq_of_agrees {c d : PathCommand α}
    (agree : Agrees (fun x y => formatNumber x precision = formatNumber y precision) c d) :
    c.text precision = d.text precision := by
  cases c <;> cases d <;> simp only [Agrees, PointsAgree] at agree <;>
    simp only [text, pointText, agree]

variable (words : ∀ x : α, IsWord (formatNumber x precision))

include words

/-- The coordinates of a point are words around a comma. -/
theorem hasTokens_pointText (p : Point α) :
    HasTokens (pointText precision p)
      (pointTokens ⟨formatNumber p.x precision, formatNumber p.y precision⟩) :=
  .comma (.word (words p.x)) (.word (words p.y))

/-- The text of a command has the command's tokens, with the text of each number. -/
theorem hasTokens_text (c : PathCommand α) :
    HasTokens (c.text precision) (c.map (formatNumber · precision)).tokens := by
  have point := hasTokens_pointText words
  cases c with
  | move target => exact .command rfl (by decide) rfl (point target)
  | line target => exact .command rfl (by decide) rfl (point target)
  | arc rx ry rotation large sweep target =>
    have radii : HasTokens ("A" ++ pointText precision ⟨rx, ry⟩) (.arc :: _) :=
      .command rfl (by decide) rfl (point ⟨rx, ry⟩)
    have turned := radii.blank (.word (words rotation))
    have flagged := (turned.blank (hasTokens_flagText large)).blank (hasTokens_flagText sweep)
    exact flagged.blank (point target)
  | quad control target =>
    exact .blank (.command rfl (by decide) rfl (point control)) (point target)
  | cubic control1 control2 target =>
    exact .blank (.blank (.command rfl (by decide) rfl (point control1)) (point control2))
      (point target)
  | close =>
    -- The letter stands alone, so nothing is the text after it.
    have alone : HasTokens ("Z" ++ "") [.close] := .command rfl (by decide) rfl .empty
    exact alone

end

end PathCommand

namespace Path

section

variable [NumberText α] {precision : ℕ}

/-- The text of a path has the tokens of its commands. -/
theorem hasTokens_text (words : ∀ x : α, IsWord (formatNumber x precision)) (path : Path α) :
    HasTokens (path.text precision)
      (path.flatMap fun c => (c.map (formatNumber · precision)).tokens) := by
  induction path with
  | nil => exact .empty
  | cons c path ih =>
    cases path with
    | nil =>
      have only : Path.text [c] precision = c.text precision := by simp [text]
      rw [only, List.flatMap_singleton]
      exact c.hasTokens_text words
    | cons d path =>
      have split : Path.text (c :: d :: path) precision =
          c.text precision ++ " " ++ Path.text (d :: path) precision := by
        simp only [text, List.map_cons, String.intercalate_cons_cons]
      rw [split, List.flatMap_cons]
      exact (c.hasTokens_text words).blank ih

theorem readTokens_flatMap_tokens (path : Path String) :
    readTokens (path.flatMap PathCommand.tokens) = some path := by
  induction path with
  | nil => rfl
  | cons c path ih =>
    rw [List.flatMap_cons, PathCommand.readTokens_tokens_append, ih, Option.map_some]

/-- The reader finds the commands of a path, with the text of each number in its place. -/
theorem readPath_text (words : ∀ x : α, IsWord (formatNumber x precision)) (path : Path α) :
    readPath (path.text precision) =
      some (path.map (PathCommand.map (formatNumber · precision))) := by
  have tokens := hasTokens_text words path [] (by simp)
  rw [List.append_nil] at tokens
  rw [readPath, tokens, ← readTokens_flatMap_tokens, List.flatMap_map]
  exact congrArg readTokens (List.append_nil _)

/-- A line that goes to no number, and back. -/
example : readPath "M0,1 L-2.5,NaN Z" =
    some [.move ⟨"0", "1"⟩, .line ⟨"-2.5", "NaN"⟩, .close] := by rfl

/-- Lists are mapped to the same list exactly if their entries are, one by one. -/
theorem map_eq_map_iff_forall₂ {γ δ : Type} {f : γ → δ} {xs ys : List γ} :
    xs.map f = ys.map f ↔ List.Forall₂ (fun x y => f x = f y) xs ys := by
  rw [← List.forall₂_eq_eq_eq, List.forall₂_map_left_iff, List.forall₂_map_right_iff]

/-- Paths agree in the texts of their numbers exactly if these texts make them equal. -/
theorem map_eq_map_iff_agrees {p q : Path α} :
    p.map (PathCommand.map (formatNumber · precision)) =
      q.map (PathCommand.map (formatNumber · precision)) ↔
    List.Forall₂
      (PathCommand.Agrees fun x y => formatNumber x precision = formatNumber y precision) p q := by
  simp only [map_eq_map_iff_forall₂, PathCommand.map_eq_map_iff]

/-- The text of a path only depends on the texts of its numbers. -/
theorem text_eq_of_agrees {p q : Path α}
    (agree : List.Forall₂
      (PathCommand.Agrees fun x y => formatNumber x precision = formatNumber y precision) p q) :
    p.text precision = q.text precision := by
  have texts : p.map (PathCommand.text precision) = q.map (PathCommand.text precision) :=
    map_eq_map_iff_forall₂.mpr (agree.imp fun _ _ => PathCommand.text_eq_of_agrees)
  rw [text, text, texts]

end

/-- **Paths have the same text exactly if they agree**, and a reader finds their commands. -/
theorem text_eq_text_iff_agrees (precision : ℕ) :
    (∀ p q : Path Float, p.text precision = q.text precision ↔
      List.Forall₂
        (PathCommand.Agrees fun x y => formatNumber x precision = formatNumber y precision) p q) ∧
    ∀ p : Path Float, readPath (p.text precision) =
      some (p.map (PathCommand.map (formatNumber · precision))) := by
  have words := fun x => isWord_formatNumber x precision
  refine ⟨fun p q => ⟨?_, text_eq_of_agrees⟩, readPath_text words⟩
  intro same
  have read := readPath_text words q
  rw [← same, readPath_text words p, Option.some.injEq] at read
  exact map_eq_map_iff_agrees.mp read

end Path

end SvgLayout
