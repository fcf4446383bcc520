import SwitchLexicon.Text.Lines

/-!
The lines of a text do not depend on how its line ends are written.
-/
namespace SwitchLexicon.Text

theorem linesOf_feed (cs : List Char) : linesOf ('\n' :: cs) = [] :: linesOf cs := by
  simp [linesOf, endsLine]

/-- Whether line ends are made alike first does not matter to the lines. -/
theorem linesOf_unifyLineEnds (cs : List Char) : linesOf (unifyLineEnds cs) = linesOf cs := by
  fun_induction unifyLineEnds cs with
  | case1 => rfl
  | case2 cs ih => rw [linesOf_feed, ih, linesOf]
  | case3 cs hne ih =>
    rw [linesOf_feed, ih, linesOf]
    · rfl
    · exact fun ds _ hds => hne ds hds
  | case4 c cs _ hc ih =>
    rw [linesOf, linesOf, ih]
    · exact fun _ h => absurd h hc
    · exact fun _ h => absurd h hc

end SwitchLexicon.Text
