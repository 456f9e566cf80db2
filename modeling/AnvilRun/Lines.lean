namespace AnvilRun.Lines

/-- A character that ends a line for the line reader. -/
def isLineEnd (c : Char) : Bool :=
  c == '\n' || c == '\r' || c == '\u2028' || c == '\u2029'

/-- The lines of a text of which `line` has been read already. A last line without a line end
counts when it is not empty. -/
def splitFrom : List Char → List Char → List (List Char)
  | line, [] => if line.isEmpty then [] else [line]
  | line, '\r' :: '\n' :: s => line :: splitFrom [] s
  | line, c :: s => if isLineEnd c then line :: splitFrom [] s else splitFrom (line ++ [c]) s

def splitLines (s : List Char) : List (List Char) :=
  splitFrom [] s

theorem splitFrom_cons_of_ne {c : Char} (hc : c ≠ '\r') (line s : List Char) :
    splitFrom line (c :: s)
      = if isLineEnd c then line :: splitFrom [] s else splitFrom (line ++ [c]) s := by
  rw [splitFrom.eq_3 _ _ _ (fun t h => absurd h (by simp [hc]))]

theorem splitFrom_append {s : List Char} (hs : ∀ c ∈ s, isLineEnd c = false)
    (line rest : List Char) : splitFrom line (s ++ rest) = splitFrom (line ++ s) rest := by
  induction s generalizing line with
  | nil => simp
  | cons c s ih =>
      have hend := hs c (List.mem_cons_self ..)
      have hc : c ≠ '\r' := by
        rintro rfl
        simp [isLineEnd] at hend
      rw [List.cons_append, splitFrom_cons_of_ne hc, hend, if_neg Bool.false_ne_true,
        ih (fun d hd => hs d (List.mem_cons_of_mem _ hd)), List.append_assoc]
      rfl

/-- A text without line ends in front of a line end is the first line. -/
theorem splitLines_line {s : List Char} (hs : ∀ c ∈ s, isLineEnd c = false) {c : Char}
    (hc : c ≠ '\r') (hend : isLineEnd c = true) (rest : List Char) :
    splitLines (s ++ c :: rest) = s :: splitLines rest := by
  rw [splitLines, splitFrom_append hs, List.nil_append, splitFrom_cons_of_ne hc, hend, if_pos rfl]
  rfl

end AnvilRun.Lines
