import Mathlib.Data.List.DropRight
import SwitchLexicon.Line.Split
import SwitchLexicon.Proofs.Text.Words

/-!
Where a line is cut. The text in front of the word under the cursor is empty or ends in a blank, so
a word that is put in its place becomes the next of the complete words.
-/
namespace SwitchLexicon

/-- A character that is put after this text begins a word of its own. -/
def IsOpen (cs : List Char) : Prop := ∀ h : cs ≠ [], Text.isBlank (cs.getLast h) = true

theorem splitBefore_completed (before : List Char) :
    (splitBefore before).completed =
      Text.words (String.ofList (before.take (splitBefore before).start)) := by
  simp only [splitBefore]

theorem splitBefore_query (before : List Char) :
    (splitBefore before).query = String.ofList (before.drop (splitBefore before).start) := by
  simp only [splitBefore]

theorem take_trailingRun (cs : List Char) :
    cs.take (cs.length - trailingRun cs) = cs.rdropWhile fun c => !Text.isBlank c := by
  have hsplit : (cs.rdropWhile fun c => !Text.isBlank c) ++
      (cs.rtakeWhile fun c => !Text.isBlank c) = cs := List.rdropWhile_append_rtakeWhile
  have hrun : trailingRun cs = (cs.rtakeWhile fun c => !Text.isBlank c).length := by
    simp [trailingRun, List.rtakeWhile]
  have hlength : cs.length - trailingRun cs = (cs.rdropWhile fun c => !Text.isBlank c).length := by
    have := congrArg List.length hsplit
    rw [List.length_append] at this
    omega
  rw [hlength]
  exact (List.prefix_iff_eq_take.mp (List.rdropWhile_prefix _ _)).symm

theorem isOpen_take_trailingRun (cs : List Char) :
    IsOpen (cs.take (cs.length - trailingRun cs)) := by
  rw [take_trailingRun]
  intro h
  simpa using List.rdropWhile_last_not (p := fun c => !Text.isBlank c) cs h

theorem isOpen_take_start (before : List Char) :
    IsOpen (before.take (splitBefore before).start) := by
  simp only [splitBefore, partialLength]
  split
  next h =>
    obtain ⟨hrun, hlast⟩ := h
    split
    · rw [← hrun]
      exact isOpen_take_trailingRun before
    next hinner =>
      -- the cut lies before the final line feed, so it is the cut of the text without it
      obtain ⟨init, rfl⟩ := List.getLast?_eq_some_iff.mp hlast
      rw [List.dropLast_concat] at hinner ⊢
      have hcut := isOpen_take_trailingRun init
      rwa [List.length_append, List.length_singleton, Nat.add_sub_add_right,
        List.take_append_of_le_length (Nat.sub_le _ _)]
  next h => exact isOpen_take_trailingRun before

theorem start_le_length (before : List Char) : (splitBefore before).start ≤ before.length :=
  Nat.sub_le _ _

theorem wordsOf_append_run {cs w : List Char} (hcs : IsOpen cs) (hw : Text.IsRun w) :
    Text.wordsOf (cs ++ w) = Text.wordsOf cs ++ [w] := by
  rcases List.eq_nil_or_concat' cs with rfl | ⟨init, b, rfl⟩
  · exact Text.wordsOf_run hw
  · have hb : Text.isBlank b = true := by simpa using hcs (by simp)
    have hinit : Text.wordsOf (init ++ [b]) = Text.wordsOf init := by
      rw [Text.wordsOf_append_blank hb]
      exact List.append_nil _
    rw [List.append_assoc, List.singleton_append, Text.wordsOf_append_blank hb, hinit,
      Text.wordsOf_run hw]

theorem splitBefore_concat_space (cs : List Char) :
    splitBefore (cs ++ [' ']) =
      { completed := (Text.wordsOf cs).map String.ofList
        query := ""
        start := cs.length + 1 } := by
  have hrun : trailingRun (cs ++ [' ']) = 0 := by
    simp [trailingRun, Text.isBlank_space]
  have hpartial : partialLength (cs ++ [' ']) = 0 := by
    simp [partialLength, hrun]
  have hwords : Text.wordsOf (cs ++ [' ']) = Text.wordsOf cs := by
    rw [Text.wordsOf_append_blank Text.isBlank_space]
    exact List.append_nil _
  simp only [splitBefore, hpartial, Nat.sub_zero, List.take_length, List.drop_length, Text.words,
    String.toList_ofList, hwords]
  simp

theorem beforeCursor_eq_ok_iff {line : String} {cursor : Int} {before : List Char} :
    beforeCursor line cursor = .ok before ↔
      0 ≤ cursor ∧ cursor ≤ line.length ∧ before = line.toList.take cursor.toNat := by
  unfold beforeCursor
  split
  next h => simp [h, eq_comm]
  next h => simp; omega

end SwitchLexicon
