/-!
# Text in columns

A text is brought to a given width by blanks on one side. A text that is wider already is left as
it is, and width is counted in characters.
-/

namespace MiniPascal

/-- As many blanks as asked for, as one text: what fills a column, and what stands to the left of a
caret. It is empty if the count is zero. -/
def blanks (count : Nat) : String :=
  String.ofList (List.replicate count ' ')

/-- Moves a text to the right end of a column of the given width, by blanks on its left. A text that
is wider than the column is left as it is and not cut. -/
def alignRight (width : Nat) (text : String) : String :=
  blanks (width - text.length) ++ text

/-- Moves a text to the left end of a column of the given width, by blanks on its right. A text that
is wider than the column is left as it is and not cut. -/
def alignLeft (width : Nat) (text : String) : String :=
  text ++ blanks (width - text.length)

/-- A text in a column fills it. -/
theorem length_alignRight (width : Nat) (text : String) :
    (alignRight width text).length = max width text.length := by
  simp [alignRight, blanks]
  omega

/-- A text in a column fills it. -/
theorem length_alignLeft (width : Nat) (text : String) :
    (alignLeft width text).length = max width text.length := by
  simp [alignLeft, blanks]
  omega

end MiniPascal
