import Mathlib.Data.List.Flatten
import SwitchLexicon.Json.Writer
import SwitchLexicon.Proofs.Text.Encodable

/-!
The text of written JSON. It is plain ASCII whatever the value is, so it can always be encoded. The
text of a mapping of two is its first value between two others, and what is put into a text shows in
its literal.
-/
namespace SwitchLexicon.Json

open Text

/-! ## Characters -/

theorem unitEscape_ascii (n : Nat) : ∀ c ∈ unitEscape n, c.toNat < 128 := by
  intro c hc
  rcases List.mem_cons.mp hc with rfl | hc
  · decide
  · rcases List.mem_cons.mp hc with rfl | hc
    · decide
    · exact isAscii_hexDigits c hc

theorem escapedChar_ascii (c : Char) : ∀ d ∈ escapedChar c, d.toNat < 128 := by
  rw [escapedChar]
  split_ifs with hquote hslash hb hf hn hr ht hplain hshort
  case pos => simp [hquote]
  case pos => simp [hslash]
  case pos => simp
  case pos => simp
  case pos => simp
  case pos => simp
  case pos => simp
  case pos =>
    intro d hd
    obtain rfl := List.mem_singleton.mp hd
    omega
  case pos => split <;> exact unitEscape_ascii _
  case neg =>
    split
    · exact unitEscape_ascii _
    · intro d hd
      exact (List.mem_append.mp hd).elim (unitEscape_ascii _ d) (unitEscape_ascii _ d)

theorem isEncodable_textLiteral (s : String) : isEncodable (textLiteral s) = true := by
  have hbody : isEncodable (String.ofList (s.toList.flatMap escapedChar)) = true := by
    refine isEncodable_of_ascii fun d hd => ?_
    obtain ⟨c, -, hc⟩ := List.mem_flatMap.mp hd
    exact escapedChar_ascii c d hc
  rw [textLiteral, isEncodable_append, isEncodable_append, hbody]
  decide

theorem isEncodable_floatLiteral (x : Binary64) : isEncodable (floatLiteral x) = true := by
  rw [floatLiteral]
  split_ifs
  · decide
  · decide
  · decide
  · exact x.isEncodable_text

theorem isEncodable_newline (i : Indent) : isEncodable i.newline = true := by
  cases i with
  | none => decide
  | some level =>
    rw [Indent.newline, isEncodable_append, isEncodable_replicate (by decide)]
    decide

theorem isEncodable_container (i : Indent) {opening closing : String}
    (hopening : isEncodable opening = true) (hclosing : isEncodable closing = true)
    {parts : List String} (hparts : parts.all isEncodable = true) :
    isEncodable (container i opening closing parts) = true := by
  have hseparator : isEncodable ("," ++ i.deeper.newline) = true := by
    rw [isEncodable_append, isEncodable_newline]
    decide
  rw [container]
  split
  · simp only [isEncodable_append, hopening, hclosing, Bool.and_self]
  · simp only [isEncodable_append, hopening, hclosing, isEncodable_newline,
      isEncodable_intercalate hseparator, hparts, Bool.and_self]

mutual

theorem isEncodable_write (i : Indent) : ∀ v, isEncodable (write i v) = true
  | .null => show isEncodable "null" = true by decide
  | .bool b => by
    rw [write]
    cases b <;> decide
  | .int n => isEncodable_int n
  | .float x => isEncodable_floatLiteral x
  | .text s => isEncodable_textLiteral s
  | .moment m => isEncodable_textLiteral m.text
  | .list xs => isEncodable_container i (by decide) (by decide) (all_writeItems i.deeper xs)
  | .map es => isEncodable_container i (by decide) (by decide) (all_writeEntries i.deeper es)

theorem all_writeItems (i : Indent) : ∀ vs, (writeItems i vs).all isEncodable = true
  | [] => rfl
  | v :: vs => by
    rw [writeItems, List.all_cons, isEncodable_write i v, all_writeItems i vs]
    rfl

theorem all_writeEntries (i : Indent) : ∀ es, (writeEntries i es).all isEncodable = true
  | [] => rfl
  | (k, v) :: es => by
    have hcolon : isEncodable (if i.isSome then ": " else ":") = true := by
      split <;> decide
    rw [writeEntries, List.all_cons, isEncodable_append, isEncodable_append,
      isEncodable_textLiteral, hcolon, isEncodable_write i v, all_writeEntries i es]
    rfl

end

/-! ## Mappings of two, and texts with characters put in -/

def beforeFirst (level : Nat) (name : String) : String :=
  "\x7b" ++ Indent.newline (some (level + 1)) ++ textLiteral name ++ ": "

def afterFirst (level : Nat) (name : String) (v : Value) : String :=
  "," ++ Indent.newline (some (level + 1)) ++ textLiteral name ++ ": " ++
    write (some (level + 1)) v ++ Indent.newline (some level) ++ "\x7d"

theorem write_pair (level : Nat) (a b : String) (v w : Value) :
    write (some level) (.ofEntries [(a, v), (b, w)]) =
      beforeFirst level a ++ (write (some (level + 1)) v ++ afterFirst level b w) := by
  simp only [Value.ofEntries, List.map_cons, List.map_nil, write, writeEntries, keyText,
    Indent.deeper, Option.map_some, Option.isSome_some, ↓reduceIte, container, List.isEmpty_cons,
    Bool.false_eq_true, String.intercalate_cons_cons, String.intercalate_singleton, beforeFirst,
    afterFirst]
  simp only [String.append_assoc]

theorem escapedChar_ne_nil (c : Char) : escapedChar c ≠ [] := by
  rw [escapedChar]
  repeat' split
  all_goals exact List.cons_ne_nil _ _

/-- A text that only had characters put in is written as before only if none were put in. -/
theorem eq_of_flatMap_escapedChar {cs ds : List Char} (h : cs.Sublist ds)
    (heq : cs.flatMap escapedChar = ds.flatMap escapedChar) : cs = ds := by
  induction h with
  | slnil => rfl
  | @cons cs ds d h ih =>
    -- What was put in is written too, so the written text would be longer.
    have hle := (h.flatMap escapedChar).length_le
    have hpos := List.length_pos_iff.mpr (escapedChar_ne_nil d)
    rw [heq, List.flatMap_cons, List.length_append] at hle
    omega
  | @cons_cons cs ds d h ih =>
    rw [List.flatMap_cons, List.flatMap_cons, List.append_right_inj] at heq
    rw [ih heq]

end SwitchLexicon.Json
