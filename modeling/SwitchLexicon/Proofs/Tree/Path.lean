import SwitchLexicon.Proofs.Text.Lowercase
import SwitchLexicon.Tree.Path

/-!
Tokens are the words that lowercasing leaves alone. The path of a command consists of tokens, and a
list of tokens is the path of its own joined text.
-/
namespace SwitchLexicon

structure IsToken (w : String) : Prop where
  word : Text.IsWord w
  lowered : Text.lower w = w

theorem isToken_lower {w : String} (hw : Text.IsWord w) : IsToken (Text.lower w) :=
  ⟨hw.lower, Text.lower_lower w⟩

theorem isToken_of_mem_tokenize {w command : String} (h : w ∈ tokenize command) : IsToken w := by
  obtain ⟨v, hv, rfl⟩ := List.mem_map.mp h
  exact isToken_lower (Text.isWord_of_mem_words hv)

theorem map_lower_tokens {path : List String} (h : ∀ w ∈ path, IsToken w) :
    path.map Text.lower = path :=
  (List.map_congr_left fun w hw => (h w hw).lowered).trans (List.map_id path)

theorem tokenize_unwords {path : List String} (h : ∀ w ∈ path, IsToken w) :
    tokenize (Text.unwords path) = path := by
  rw [tokenize, Text.words_unwords fun w hw => (h w hw).word, map_lower_tokens h]

theorem tokenize_unwords_words (command : String) :
    tokenize (Text.unwords (Text.words command)) = tokenize command := by
  rw [tokenize, Text.words_unwords_words, tokenize]

theorem tokenize_eq_nil_iff (command : String) :
    tokenize command = [] ↔ Text.isBlankText command = true := by
  rw [tokenize, List.map_eq_nil_iff, Text.words_eq_nil_iff]

end SwitchLexicon
