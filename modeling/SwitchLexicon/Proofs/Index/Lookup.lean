import SwitchLexicon.Proofs.Dictionary.Construct

/-!
Looking up a command. An index finds it by its joined name among the entries, by following its words
in the tree, or as the longest command that a line starts with. Paths of tokens are told apart by
their joined names, so the three ways give the same entry.
-/
namespace SwitchLexicon

theorem eq_of_unwords_eq {p q : List String} (hp : ∀ w ∈ p, IsToken w) (hq : ∀ w ∈ q, IsToken w)
    (h : Text.unwords p = Text.unwords q) : p = q := by
  rw [← tokenize_unwords hp, h, tokenize_unwords hq]

namespace Index

theorem mem_entries_iff {i : Index} {t : CommandTree} (hi : i.tree = some t) (ht : t.Ordered)
    (name : String) (d : Detail) :
    (name, d) ∈ i.entries ↔ ∃ p, p ≠ [] ∧ t.detailAt p = some d ∧ Text.unwords p = name := by
  simp only [entries, hi, List.mem_map, Prod.mk.injEq, Prod.exists]
  constructor
  · rintro ⟨p, e, hmem, hname, rfl⟩
    obtain ⟨hp, hd⟩ := (CommandTree.mem_commands ht p e).mp hmem
    exact ⟨p, hp, hd, hname⟩
  · rintro ⟨p, hp, hd, hname⟩
    exact ⟨p, d, (CommandTree.mem_commands ht p d).mpr ⟨hp, hd⟩, hname, rfl⟩

theorem nodup_names {i : Index} {t : CommandTree} (hi : i.tree = some t) (ht : t.WellBuilt) :
    (i.entries.map Prod.fst).Nodup := by
  have hnames : i.entries.map Prod.fst = t.commands.map fun c => Text.unwords c.1 := by
    simp [entries, hi, Function.comp_def]
  rw [hnames, List.Nodup, List.pairwise_map]
  refine (CommandTree.commands_sorted ht.ordered).imp_of_mem fun {a b} ha hb hlt hname => ?_
  have htokens : ∀ c ∈ t.commands, ∀ w ∈ c.1, IsToken w := fun c hc =>
    ht.tokens_of_detailAt ((CommandTree.mem_commands ht.ordered c.1 c.2).mp hc).2
  exact hlt.ne (eq_of_unwords_eq (htokens a ha) (htokens b hb) hname)

theorem find?_eq_detailAt {i : Index} {t : CommandTree} (hi : i.tree = some t) (ht : t.WellBuilt)
    (command : String) : i.find? command = t.detailAt (tokenize command) := by
  have hname : ∀ p d, t.detailAt p = some d → Text.unwords p = canonical command →
      p = tokenize command := fun p d hd h =>
    eq_of_unwords_eq (ht.tokens_of_detailAt hd) (fun w hw => isToken_of_mem_tokenize hw) h
  cases hd : t.detailAt (tokenize command) with
  | none =>
    -- an entry of that name would stand at the path that has none
    rw [find?, Option.map_eq_none_iff, List.find?_eq_none]
    rintro ⟨name, d⟩ hmem hfound
    obtain ⟨p, -, hp, rfl⟩ := (mem_entries_iff hi ht.ordered name d).mp hmem
    rw [hname p d hp (by simpa using hfound), hd] at hp
    simp at hp
  | some d =>
    have hmem : (canonical command, d) ∈ i.entries :=
      (mem_entries_iff hi ht.ordered _ d).mpr ⟨tokenize command, (ht.named _ d hd).1, hd, rfl⟩
    have hfound : (i.entries.find? fun e => e.1 == canonical command).isSome = true :=
      List.find?_isSome.mpr ⟨_, hmem, by simp⟩
    obtain ⟨⟨name, e⟩, he⟩ := Option.isSome_iff_exists.mp hfound
    obtain ⟨p, -, hp, rfl⟩ :=
      (mem_entries_iff hi ht.ordered name e).mp (List.mem_of_find?_eq_some he)
    have hpath := hname p e hp (by simpa using List.find?_some he)
    rw [hpath, hd, Option.some.injEq] at hp
    rw [find?, he, hp]
    rfl

/-- What the longest command at the start of `words` is, by looking up one beginning after the
other. -/
inductive LongestMatch (i : Index) (words : List String) : LongestCommand → Prop
  | command {k : Nat} {d : Detail} (pos : 1 ≤ k) (within : k ≤ words.length)
      (found : i.find? (Text.unwords (words.take k)) = some d)
      (longest : ∀ j, k < j → j ≤ words.length →
        i.find? (Text.unwords (words.take j)) = none) :
      LongestMatch i words ⟨some d, words.drop k⟩
  | unknown (none_found : ∀ k, 1 ≤ k → i.find? (Text.unwords (words.take k)) = none) :
      LongestMatch i words ⟨none, words⟩

theorem detailAt_take_cons (t : CommandTree) (w : String) (ws : List String) (j : Nat) :
    t.detailAt (((w :: ws).take (j + 1)).map Text.lower) =
      (t.child? (Text.lower w)).bind (CommandTree.detailAt ((ws.take j).map Text.lower)) := by
  rw [List.take_succ_cons, List.map_cons, CommandTree.detailAt_cons]

/-- After `k` words no entry stands on the way that the words go. -/
def NoneAfter (t : CommandTree) (ws : List String) (k : Nat) : Prop :=
  ∀ j, k < j → j ≤ ws.length → t.detailAt ((ws.take j).map Text.lower) = none

theorem NoneAfter.cons {t c : CommandTree} {w : String} (hc : t.child? (Text.lower w) = some c)
    {ws : List String} {k : Nat} (h : NoneAfter c ws k) : NoneAfter t (w :: ws) (k + 1) := by
  intro j hkj hj
  obtain ⟨j, rfl⟩ := Nat.exists_eq_add_of_le' (Nat.one_le_of_lt hkj)
  rw [detailAt_take_cons, hc, Option.bind_some]
  exact h j (by omega) (by simpa using hj)

/-- The scan ends with the last complete node on the way that the words go, or with what it had. -/
theorem longestFrom_cases (t : CommandTree) (best : LongestCommand) (ws : List String) :
    (∃ k d, 1 ≤ k ∧ k ≤ ws.length ∧ t.detailAt ((ws.take k).map Text.lower) = some d ∧
      NoneAfter t ws k ∧ longestFrom t best ws = ⟨some d, ws.drop k⟩) ∨
    NoneAfter t ws 0 ∧ longestFrom t best ws = best := by
  induction ws generalizing t best with
  | nil => exact Or.inr ⟨fun j hj hle => absurd hle (Nat.not_le_of_lt hj), rfl⟩
  | cons w ws ih =>
    cases hc : t.child? (Text.lower w) with
    | none =>
      have hrun : longestFrom t best (w :: ws) = best := by simp [longestFrom, hc]
      refine Or.inr ⟨fun j hj _ => ?_, hrun⟩
      obtain ⟨j, rfl⟩ := Nat.exists_eq_add_of_le' hj
      rw [detailAt_take_cons, hc, Option.bind_none]
    | some c =>
      have hrun : longestFrom t best (w :: ws) =
          longestFrom c (if c.isComplete then ⟨c.detail, ws⟩ else best) ws := by
        simp [longestFrom, hc]
      have hstep : ∀ j, t.detailAt (((w :: ws).take (j + 1)).map Text.lower) =
          c.detailAt ((ws.take j).map Text.lower) := by
        intro j
        rw [detailAt_take_cons, hc, Option.bind_some]
      rw [hrun]
      rcases ih c (if c.isComplete then ⟨c.detail, ws⟩ else best) with
        ⟨k, d, hk, hle, hd, hlongest, heq⟩ | ⟨hnone, heq⟩
      · exact Or.inl ⟨k + 1, d, by omega, by simpa using hle, by rw [hstep, hd], hlongest.cons hc,
          heq⟩
      · -- no complete node lies further down, so the child itself decides
        have hchild : t.detailAt (((w :: ws).take 1).map Text.lower) = c.detail := by
          rw [hstep, List.take_zero, List.map_nil, CommandTree.detailAt_nil]
        rw [heq]
        cases hd : c.detail with
        | none =>
          refine Or.inr ⟨fun j hj hle => ?_, by simp [CommandTree.isComplete, hd]⟩
          rcases Nat.eq_or_lt_of_le (Nat.succ_le_of_lt hj) with rfl | hlt
          · rw [hchild, hd]
          · exact hnone.cons hc j hlt hle
        | some d =>
          exact Or.inl ⟨1, d, le_rfl, by simp, by rw [hchild, hd], hnone.cons hc,
            by simp [CommandTree.isComplete, hd]⟩

theorem find?_take_words {i : Index} {t : CommandTree} (hi : i.tree = some t) (ht : t.WellBuilt)
    (line : String) (k : Nat) :
    i.find? (Text.unwords ((Text.words line).take k)) =
      t.detailAt (((Text.words line).take k).map Text.lower) := by
  have hwords : ∀ w ∈ (Text.words line).take k, Text.IsWord w := fun w hw =>
    Text.isWord_of_mem_words (List.mem_of_mem_take hw)
  rw [find?_eq_detailAt hi ht, tokenize, Text.words_unwords hwords]

theorem longestMatch_longestCommand {i : Index} {t : CommandTree} (hi : i.tree = some t)
    (ht : t.WellBuilt) (line : String) :
    i.LongestMatch (Text.words line) (i.longestCommand line) := by
  have hfind := find?_take_words hi ht line
  have hscan : i.longestCommand line =
      longestFrom t ⟨none, Text.words line⟩ (Text.words line) := by
    simp [longestCommand, hi]
  rw [hscan]
  rcases longestFrom_cases t ⟨none, Text.words line⟩ (Text.words line) with
    ⟨k, d, hk, hle, hd, hlongest, heq⟩ | ⟨hnone, heq⟩
  · rw [heq]
    exact .command hk hle (by rw [hfind, hd]) fun j hkj hj => by rw [hfind, hlongest j hkj hj]
  · rw [heq]
    refine .unknown fun k hk => ?_
    -- past the end of the line a beginning is the whole line, which may have no word at all
    rw [hfind, List.take_eq_take_min]
    rcases Nat.eq_zero_or_pos (min k (Text.words line).length) with hzero | hpos
    · rw [hzero, List.take_zero, List.map_nil, ht.detailAt_nil]
    · exact hnone _ hpos (Nat.min_le_right _ _)

theorem wellBuilt_of_ofValue {raw : Value} {shape : Option Shape} {i : Index}
    (h : (ofValue raw shape).result = .ok i) : ∃ t, i.tree = some t ∧ t.WellBuilt := by
  obtain ⟨b, hb, -, rfl, -⟩ := exists_build_of_ofValue h
  exact ⟨b.tree, rfl, wellBuilt_of_build hb⟩

theorem lookups_agree {raw : Value} {shape : Option Shape} {i : Index}
    (h : (ofValue raw shape).result = .ok i) :
    ∃ t, i.tree = some t ∧ (i.entries.map Prod.fst).Nodup ∧
      (∀ command, i.find? command =
        (t.resolve (Text.words command)).bind CommandTree.detail) ∧
      (∀ command, Text.isBlankText command = true → i.find? command = none) ∧
      ∀ line, i.LongestMatch (Text.words line) (i.longestCommand line) := by
  obtain ⟨t, hi, ht⟩ := wellBuilt_of_ofValue h
  refine ⟨t, hi, nodup_names hi ht, find?_eq_detailAt hi ht, fun command hblank => ?_,
    longestMatch_longestCommand hi ht⟩
  rw [find?_eq_detailAt hi ht, (tokenize_eq_nil_iff command).mpr hblank, ht.detailAt_nil]

/-- The way goes on from `show` over `ip`, which is no command, and breaks off there. -/
theorem lookups_agree_show_ip :
    ∃ i t, (ofValue (.ofEntries [("show", .ofEntries [("_desc", .text "Show commands"),
        ("IP interface", .null)])]) none).result = .ok i ∧ i.tree = some t ∧
      i.find? " SHOW ip  Interface" =
        (t.resolve (Text.words " SHOW ip  Interface")).bind CommandTree.detail ∧
      i.LongestMatch (Text.words "Show IP 10") (i.longestCommand "Show IP 10") ∧
      (i.longestCommand "Show IP 10").rest = ["IP", "10"] := by
  let raw : Value := .ofEntries [("show", .ofEntries [("_desc", .text "Show commands"),
    ("IP interface", .null)])]
  have h : (ofValue raw none).result =
      .ok (.ofBuild (.ofReadings .nested (Reading.ofLevel [] [(.text "show",
        .ofEntries [("_desc", .text "Show commands"), ("IP interface", .null)])]))) :=
    result_ofValue_of_isOk rfl (by decide +kernel)
  obtain ⟨t, hi, -, hfind, -, hlongest⟩ := lookups_agree h
  exact ⟨_, t, h, hi, hfind _, hlongest _, by decide +kernel⟩

end Index

end SwitchLexicon
