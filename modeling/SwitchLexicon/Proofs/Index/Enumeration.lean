import SwitchLexicon.Proofs.Index.Lookup
import SwitchLexicon.Proofs.Value.Mapping

/-!
The commands of an index in their order. The tree gives them in the order of their paths, every
complete place once, and a mapping from names to entries keeps them all. The names themselves are in
order as well if no character of a word comes before the space that joins the words.
-/
namespace SwitchLexicon

namespace Text

def spaced (path : List String) : List Char :=
  path.flatMap fun w => ' ' :: w.toList

theorem spaced_cons (w : String) (path : List String) :
    spaced (w :: path) = ' ' :: (w.toList ++ spaced path) := rfl

theorem cons_unwords {path : List String} (h : path ≠ []) :
    ' ' :: (unwords path).toList = spaced path := by
  induction path with
  | nil => exact absurd rfl h
  | cons w path ih =>
    rw [spaced_cons, unwords, String.toList_intercalate, List.map_cons]
    cases path with
    | nil => simp [spaced]
    | cons v path =>
      have htail := ih (by simp)
      rw [unwords, String.toList_intercalate, List.map_cons] at htail
      rw [List.map_cons, List.intercalate_cons_cons, List.append_assoc, ← htail]
      rfl

def AboveSpace (cs : List Char) : Prop := ∀ c ∈ cs, ' ' < c

theorem IsWord.aboveSpace {w : String} (hw : IsWord w) (h : ∀ c ∈ w.toList, 0x20 ≤ c.toNat) :
    AboveSpace w.toList := by
  intro c hc
  have hne : c ≠ ' ' := by
    intro hspace
    exact absurd (hw.2 c hc) (by rw [hspace]; decide)
  have hcode : c.toNat ≠ ' '.toNat := fun hcode => hne (Char.toNat_inj.mp hcode)
  have hlow := h c hc
  have hspace : ' '.toNat = 0x20 := rfl
  change ' '.toNat < c.toNat
  omega

theorem append_lt_append {v w r s : List Char} (hw : AboveSpace w) (hvw : v < w)
    (hr : r = [] ∨ ∃ t, r = ' ' :: t) : v ++ r < w ++ s := by
  induction v generalizing w with
  | nil =>
    cases w with
    | nil => exact absurd hvw (lt_irrefl _)
    | cons b w =>
      -- the shorter word is at its end, and the space after it comes before any character
      rcases hr with rfl | ⟨t, rfl⟩
      · exact List.nil_lt_cons b _
      · exact List.cons_lt_cons_iff.mpr (Or.inl (hw b (by simp)))
  | cons a v ih =>
    cases w with
    | nil => exact absurd hvw (List.not_lt_nil _)
    | cons b w =>
      rw [List.cons_append, List.cons_append]
      rcases List.cons_lt_cons_iff.mp hvw with hab | ⟨rfl, htails⟩
      · exact List.cons_lt_cons_iff.mpr (Or.inl hab)
      · have hrest := ih (fun c hc => hw c (List.mem_cons_of_mem _ hc)) htails
        exact List.cons_lt_cons_iff.mpr (Or.inr ⟨rfl, hrest⟩)

theorem spaced_cases (path : List String) : spaced path = [] ∨ ∃ t, spaced path = ' ' :: t := by
  cases path with
  | nil => exact Or.inl rfl
  | cons w path => exact Or.inr ⟨_, spaced_cons w path⟩

theorem spaced_lt {p q : List String} (hq : ∀ w ∈ q, AboveSpace w.toList) (hpq : p < q) :
    spaced p < spaced q := by
  induction p generalizing q with
  | nil =>
    cases q with
    | nil => exact absurd hpq (lt_irrefl _)
    | cons w q =>
      rw [spaced_cons]
      exact List.nil_lt_cons _ _
  | cons v p ih =>
    cases q with
    | nil => exact absurd hpq (List.not_lt_nil _)
    | cons w q =>
      rw [spaced_cons, spaced_cons]
      refine List.cons_lt_cons_iff.mpr (Or.inr ⟨rfl, ?_⟩)
      rcases List.cons_lt_cons_iff.mp hpq with hvw | ⟨rfl, htails⟩
      · exact append_lt_append (hq w (by simp)) (String.lt_iff.mp hvw) (spaced_cases p)
      · exact List.append_left_lt (ih (fun w hw => hq w (List.mem_cons_of_mem _ hw)) htails)

theorem unwords_lt {p q : List String} (hp : p ≠ []) (hq : ∀ w ∈ q, AboveSpace w.toList)
    (hpq : p < q) : unwords p < unwords q := by
  have hqne : q ≠ [] := by
    intro hnil
    exact List.not_lt_nil p (hnil ▸ hpq)
  have hlt := spaced_lt hq hpq
  rw [← cons_unwords hp, ← cons_unwords hqne] at hlt
  rcases List.cons_lt_cons_iff.mp hlt with habsurd | ⟨-, hlt⟩
  · exact absurd habsurd (lt_irrefl _)
  · exact String.lt_iff.mpr hlt

end Text

namespace CommandTree

mutual

def completeCount : CommandTree → Nat
  | .node d cs => (if d.isSome then 1 else 0) + completeCountAll cs

def completeCountAll : Children → Nat
  | [] => 0
  | (_, t) :: rest => t.completeCount + completeCountAll rest

end

theorem length_entryAt {path : List String} (hpath : path ≠ []) (d : Option Detail) :
    (entryAt path d).length = if d.isSome then 1 else 0 := by
  cases d <;> simp [entryAt, hpath]

mutual

theorem length_commandsFrom {path : List String} (hpath : path ≠ []) :
    (t : CommandTree) → (t.commandsFrom path).length = t.completeCount
  | .node d cs => by
    rw [commandsFrom, completeCount, List.length_append, length_entryAt hpath,
      length_commandsFromAll path cs]

theorem length_commandsFromAll (path : List String) :
    (cs : Children) → (commandsFromAll path cs).length = completeCountAll cs
  | [] => by rw [commandsFromAll, completeCountAll, List.length_nil]
  | (w, t) :: rest => by
    rw [commandsFromAll, completeCountAll, List.length_append,
      length_commandsFrom (by simp) t, length_commandsFromAll path rest]

end

theorem WellBuilt.length_commands {t : CommandTree} (ht : t.WellBuilt) :
    t.commands.length = t.completeCount := by
  have hroot := ht.detailAt_nil
  rw [CommandTree.detailAt_nil] at hroot
  obtain ⟨d, cs⟩ := t
  obtain rfl : d = none := hroot
  rw [commands, commandsFrom, completeCount, List.length_append, length_commandsFromAll]
  rfl

theorem WellBuilt.count_commands {t : CommandTree} (ht : t.WellBuilt) (p : List String)
    (d : Detail) : t.commands.count (p, d) = if t.detailAt p = some d then 1 else 0 := by
  have hnodup : t.commands.Nodup :=
    (commands_sorted ht.ordered).imp fun hlt heq => hlt.ne (congrArg Prod.fst heq)
  have hmem : (p, d) ∈ t.commands ↔ t.detailAt p = some d := by
    rw [mem_commands ht.ordered]
    exact and_iff_right_of_imp fun hd => (ht.named p d hd).1
  rw [hnodup.count]
  exact if_congr hmem rfl rfl

theorem WellBuilt.unwords_sorted {t : CommandTree} (ht : t.WellBuilt)
    (h : ∀ c ∈ t.commands, ∀ w ∈ c.1, ∀ x ∈ w.toList, 0x20 ≤ x.toNat) :
    t.commands.Pairwise fun a b => Text.unwords a.1 < Text.unwords b.1 := by
  refine (commands_sorted ht.ordered).imp_of_mem fun {a b} ha hb hlt => ?_
  obtain ⟨hne, -⟩ := (mem_commands ht.ordered a.1 a.2).mp ha
  obtain ⟨-, hd⟩ := (mem_commands ht.ordered b.1 b.2).mp hb
  refine Text.unwords_lt hne (fun w hw => ?_) hlt
  exact (ht.tokens_of_detailAt hd w hw).word.aboveSpace (h b hb w hw)

end CommandTree

namespace Index

def pairs (i : Index) : Entries :=
  i.entries.map fun e => (.text e.1, e.2.toValue)

theorem ofPairs_pairs {i : Index} (h : (i.entries.map Prod.fst).Nodup) :
    Entries.ofPairs i.pairs = i.pairs := by
  apply Entries.ofPairs_of_distinct
  rw [List.Nodup, List.pairwise_map] at h
  rw [Entries.Distinct, pairs, List.pairwise_map]
  refine h.imp fun hne => ?_
  rw [Key.same_text]
  simpa using hne

theorem commands_enumerated {raw : Value} {shape : Option Shape} {b : Build}
    (h : build raw shape = .ok b) :
    let t := b.tree
    let i := ofBuild b
    (∀ p d, t.commands.count (p, d) = if t.detailAt p = some d then 1 else 0) ∧
      t.commands.Pairwise (fun x y => x.1 < y.1) ∧
      i.entries = t.commands.map (fun c => (Text.unwords c.1, c.2)) ∧
      (i.entries.map Prod.fst).Nodup ∧
      Entries.ofPairs i.pairs = i.pairs ∧
      i.size = t.completeCount ∧
      i.commands = t.commands.map Prod.snd ∧
      ((∀ c ∈ t.commands, ∀ w ∈ c.1, ∀ x ∈ w.toList, 0x20 ≤ x.toNat) →
        (i.entries.map Prod.fst).Pairwise (· < ·)) := by
  intro t i
  have ht : t.WellBuilt := wellBuilt_of_build h
  have hi : i.tree = some t := rfl
  have hentries : i.entries = t.commands.map fun c => (Text.unwords c.1, c.2) := rfl
  have hnames := nodup_names hi ht
  refine ⟨ht.count_commands, CommandTree.commands_sorted ht.ordered, hentries, hnames,
    ofPairs_pairs hnames, ?_, ?_, fun hlow => ?_⟩
  · rw [size, hentries, List.length_map, ht.length_commands]
  · rw [commands, hentries, List.map_map]
    rfl
  · rw [hentries, List.map_map, List.pairwise_map]
    exact ht.unwords_sorted hlow

def showEntries : Entries :=
  [(.text "show-all", .null), (.text "SHOW ip", .text "IP"), (.text " Show", .null)]

theorem commands_enumerated_show :
    ∃ b, build (.map showEntries) none = .ok b ∧
      (ofBuild b).entries.map Prod.fst = ["show", "show ip", "show-all"] ∧
      (ofBuild b).size = b.tree.completeCount ∧ b.tree.completeCount = 3 ∧
      (∀ c ∈ b.tree.commands, ∀ w ∈ c.1, ∀ x ∈ w.toList, 0x20 ≤ x.toNat) ∧
      ((ofBuild b).entries.map Prod.fst).Pairwise (· < ·) := by
  have h : build (.map showEntries) none =
      .ok (.ofReadings .flat (Reading.ofFlat showEntries)) := rfl
  obtain ⟨-, -, -, -, -, hsize, -, hsorted⟩ := commands_enumerated h
  have hlow : ∀ c ∈ (Build.ofReadings .flat (Reading.ofFlat showEntries)).tree.commands,
      ∀ w ∈ c.1, ∀ x ∈ w.toList, 0x20 ≤ x.toNat := by
    have hall : ((Build.ofReadings .flat (Reading.ofFlat showEntries)).tree.commands.all fun c =>
        c.1.all fun w => w.toList.all fun x => decide (0x20 ≤ x.toNat)) = true := by
      decide +kernel
    simpa only [List.all_eq_true, decide_eq_true_eq] using hall
  exact ⟨_, h, by decide +kernel, hsize, by decide +kernel, hlow, hsorted hlow⟩

-- with a control character the order of the paths is not the one of the names
example : ["a", "b"] < ["a\u0001"] ∧ Text.unwords ["a\u0001"] < Text.unwords ["a", "b"] := by
  decide

end Index

end SwitchLexicon
