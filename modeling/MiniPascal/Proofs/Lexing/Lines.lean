import MiniPascal.Text.Lines
import MiniPascal.Token.Position

/-!
# Positions and lines

A position counts line feeds, and the lines of a text are cut at line feeds, but the two part where
lines end: a carriage return before the line feed takes a column and belongs to no line, and behind
a line feed at the end of the text there is a position and no line. For a character that ends no
line they agree: it stands in the line and in the column that its position says
(`exists_line_of_visible`).
-/

namespace MiniPascal

namespace Position

/-- Lines and columns are counted from one. -/
theorem one_le_after_start (text : List Char) :
    1 ≤ (start.after text).line ∧ 1 ≤ (start.after text).column := by
  have hafter : ∀ pos : Position, 1 ≤ pos.line → 1 ≤ pos.column →
      1 ≤ (pos.after text).line ∧ 1 ≤ (pos.after text).column := by
    induction text with
    | nil => exact fun pos hline hcolumn => ⟨hline, hcolumn⟩
    | cons c text ih =>
      intro pos hline hcolumn
      rw [after_cons, step]
      split
      · exact ih _ (Nat.le_add_left 1 _) (Nat.le_refl 1)
      · exact ih _ hline (Nat.le_add_left 1 _)
  exact hafter start (Nat.le_refl 1) (Nat.le_refl 1)

/-- The position some lines further down, in the same column: where a character is if lines are put
in front of the text. -/
def down (lines : Nat) (pos : Position) : Position :=
  ⟨pos.line + lines, pos.column⟩

/-- A text that begins some lines further down ends as many lines further down. -/
theorem after_down (lines : Nat) (pos : Position) (text : List Char) :
    (pos.down lines).after text = (pos.after text).down lines := by
  induction text generalizing pos with
  | nil => rfl
  | cons c text ih =>
    have hstep : (pos.down lines).step c = (pos.step c).down lines := by
      by_cases hc : c = '\n'
      · simp only [step, down, if_pos hc, Nat.add_right_comm]
      · simp only [step, down, if_neg hc]
    rw [after_cons, after_cons, hstep, ih]

/-- Behind a first line, positions are counted from the second. -/
theorem after_start_append_newline {row : List Char} (h : '\n' ∉ row) (text : List Char) :
    start.after (row ++ '\n' :: text) =
      ⟨(start.after text).line + 1, (start.after text).column⟩ := by
  rw [after_append, after_of_not_mem start h, after_cons, step, if_pos rfl]
  exact after_down 1 start text

end Position

/-! ### Lines -/

/-- A character that neither ends a line nor begins an ending belongs to the first line. -/
theorem linesOf_cons {c : Char} {cs : List Char} (hnewline : c ≠ '\n')
    (hreturn : ¬(c = '\r' ∧ cs.head? = some '\n')) :
    linesOf (c :: cs) = (c :: (linesOf cs).headD []) :: (linesOf cs).tail := by
  rw [linesOf.eq_def]
  split
  · next heq => cases heq
  · next heq => exact absurd (List.cons.inj heq).1 hnewline
  · next heq =>
    obtain ⟨rfl, rfl⟩ := List.cons.inj heq
    exact absurd ⟨rfl, rfl⟩ hreturn
  · next heq =>
    obtain ⟨rfl, rfl⟩ := List.cons.inj heq
    cases linesOf cs <;> rfl

/-- A text that is not empty has a line. -/
theorem linesOf_ne_nil {text : List Char} (h : text ≠ []) : linesOf text ≠ [] := by
  unfold linesOf
  split
  · exact absurd rfl h
  · exact List.cons_ne_nil _ _
  · exact List.cons_ne_nil _ _
  · split <;> exact List.cons_ne_nil _ _

/-- A line of a text holds no line feed. -/
theorem newline_not_mem_of_mem_linesOf {text row : List Char} (h : row ∈ linesOf text) :
    '\n' ∉ row := by
  fun_induction linesOf text generalizing row with
  | case1 => cases h
  | case2 cs ih | case3 cs ih =>
    obtain rfl | h := List.mem_cons.1 h
    · exact List.not_mem_nil
    · exact ih h
  | case4 c cs hnewline hreturn hnil =>
    obtain rfl := List.mem_singleton.1 h
    exact List.not_mem_cons_of_ne_of_not_mem (Ne.symm hnewline) List.not_mem_nil
  | case5 c cs hnewline hreturn first rest hlines ih =>
    obtain rfl | h := List.mem_cons.1 h
    · exact List.not_mem_cons_of_ne_of_not_mem (Ne.symm hnewline) (ih (by simp [hlines]))
    · exact ih (by simp [hlines, h])

/-- What precedes a line feed is one line, and the other lines are those of the rest. -/
theorem exists_linesOf_append_newline {cs : List Char} (h : '\n' ∉ cs) (rest : List Char) :
    ∃ row, linesOf (cs ++ '\n' :: rest) = row :: linesOf rest := by
  induction cs with
  | nil => exact ⟨[], by rw [List.nil_append, linesOf]⟩
  | cons c cs ih =>
    obtain ⟨hc, hcs⟩ := List.ne_and_not_mem_of_not_mem_cons h
    rw [List.cons_append]
    by_cases hreturn : c = '\r' ∧ (cs ++ '\n' :: rest).head? = some '\n'
    · -- a carriage return is dropped right before the line feed only
      obtain ⟨rfl, hhead⟩ := hreturn
      cases cs with
      | nil => exact ⟨[], by rw [List.nil_append, linesOf]⟩
      | cons d cs => exact absurd (Option.some.inj hhead ▸ List.mem_cons_self) hcs
    · obtain ⟨row, hline⟩ := ih hcs
      exact ⟨c :: row, by rw [linesOf_cons hc.symm hreturn, hline]; rfl⟩

/-- A character that ends no line stands in the first line, if no line feed stands before it. -/
theorem exists_linesOf_append_visible {cs : List Char} (h : '\n' ∉ cs) {c : Char}
    (hnewline : c ≠ '\n') (hreturn : c ≠ '\r') (rest : List Char) :
    ∃ row more, linesOf (cs ++ c :: rest) = row :: more ∧ row[cs.length]? = some c := by
  induction cs with
  | nil => exact ⟨_, _, linesOf_cons hnewline fun h => hreturn h.1, rfl⟩
  | cons d cs ih =>
    obtain ⟨hd, hcs⟩ := List.ne_and_not_mem_of_not_mem_cons h
    obtain ⟨row, more, hlines, hc⟩ := ih hcs
    have hhead : (cs ++ c :: rest).head? ≠ some '\n' := by
      cases cs with
      | nil => exact fun heq => hnewline (Option.some.inj heq)
      | cons e cs => exact fun heq => hcs (Option.some.inj heq ▸ List.mem_cons_self)
    refine ⟨d :: row, more, ?_, hc⟩
    rw [List.cons_append, linesOf_cons hd.symm fun h => hhead h.2, hlines]
    rfl

/-- A character that ends no line stands where its position says. -/
theorem exists_line_of_visible (before : List Char) {c : Char} (hnewline : c ≠ '\n')
    (hreturn : c ≠ '\r') (rest : List Char) :
    ∃ row, (linesOf (before ++ c :: rest))[(Position.start.after before).line - 1]? = some row ∧
      row[(Position.start.after before).column - 1]? = some c := by
  induction hlength : before.length using Nat.strongRecOn generalizing before with
  | _ length ih =>
    by_cases hmem : '\n' ∈ before
    · -- the first line is passed, and positions are counted from the next one
      obtain ⟨first, below, rfl, hfirst⟩ := List.eq_append_cons_of_mem hmem
      have hshorter : below.length < length := by
        rw [← hlength, List.length_append, List.length_cons]
        omega
      obtain ⟨row, hline, hc⟩ := ih _ hshorter below rfl
      obtain ⟨top, htop⟩ := exists_linesOf_append_newline hfirst (below ++ c :: rest)
      obtain ⟨n, hn⟩ := Nat.exists_eq_add_of_le' (Position.one_le_after_start below).1
      refine ⟨row, ?_, ?_⟩
      · rw [Position.after_start_append_newline hfirst, List.append_assoc, List.cons_append, htop]
        rw [hn] at hline ⊢
        exact hline
      · rw [Position.after_start_append_newline hfirst]
        exact hc
    · obtain ⟨row, more, hlines, hc⟩ := exists_linesOf_append_visible hmem hnewline hreturn rest
      rw [Position.after_of_not_mem _ hmem, hlines]
      refine ⟨row, rfl, ?_⟩
      rw [Position.start, Nat.add_sub_cancel_left]
      exact hc

end MiniPascal
