/-!
# Positions in a text

A position is a line and a column, both counted from one. Only the line feed begins a new line, and
every other character takes one column, whatever its width on a screen.
-/

namespace MiniPascal

/-- A line and a column, both counted from one. A column is counted in characters, not in bytes and
not in what a screen shows. Zero occurs only in tokens that were made elsewhere. -/
structure Position where
  line : Nat
  column : Nat
deriving DecidableEq, Repr

namespace Position

/-- The position of the first character of a text: the first column of the first line. -/
def start : Position := ⟨1, 1⟩

/-- The position right after a character: the next column, or the beginning of the next line if the
character is a line feed. No other character ends a line here. -/
def step (pos : Position) (c : Char) : Position :=
  if c = '\n' then ⟨pos.line + 1, 1⟩ else ⟨pos.line, pos.column + 1⟩

/-- The position right after a stretch of text that begins at a position, one step for each
character. It only depends on the line feeds and on what stands behind the last of them. -/
def after (pos : Position) (text : List Char) : Position :=
  text.foldl step pos

@[simp]
theorem after_nil (pos : Position) : pos.after [] = pos := rfl

@[simp]
theorem after_cons (pos : Position) (c : Char) (text : List Char) :
    pos.after (c :: text) = (pos.step c).after text := rfl

/-- Stretches of text can be passed one by one. -/
theorem after_append (pos : Position) (text more : List Char) :
    pos.after (text ++ more) = (pos.after text).after more :=
  List.foldl_append

/-- A text without line feeds moves the column only. -/
theorem after_of_not_mem {text : List Char} (pos : Position) (h : '\n' ∉ text) :
    pos.after text = ⟨pos.line, pos.column + text.length⟩ := by
  induction text generalizing pos with
  | nil => rfl
  | cons c text ih =>
    simp only [List.mem_cons, not_or] at h
    rw [after_cons, ih _ h.2, step, if_neg (Ne.symm h.1), List.length_cons]
    simp only [mk.injEq, true_and]
    omega

end Position

end MiniPascal
