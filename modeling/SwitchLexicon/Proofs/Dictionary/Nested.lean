import SwitchLexicon.Proofs.Dictionary.Accepted
import SwitchLexicon.Proofs.Tree.Commands

/-!
Nested dictionaries against their flattening. The leaves of a nested dictionary, in the order in
which they are met, are the records of a plain one with the same commands; what the nested form adds
are ways that were opened by mappings and options. A way that passes through a complete command, or
that is opened again, never takes its entry away.
-/
namespace SwitchLexicon

/-- Induction over a level of a nested mapping, down into the mappings that it holds. -/
theorem Entries.levelInduction {motive : Entries → Prop} (nil : motive [])
    (cons : ∀ k v rest, (∀ es, v = .map es → motive es) → motive rest → motive ((k, v) :: rest)) :
    ∀ es, motive es
  | [] => nil
  | (k, v) :: rest =>
    cons k v rest (fun es _ => levelInduction nil cons es) (levelInduction nil cons rest)
termination_by es => sizeOf es
decreasing_by
  · subst v
    simp
    omega
  · simp

inductive KeyRole where
  | options
  | description
  | words (ws : List String)
  | other
deriving DecidableEq, Repr

def Key.role : Key → KeyRole
  | .text key =>
    if key = optionsKey then .options
    else if key = descriptionKey then .description
    else if isReserved key || (tokenize key).isEmpty then .other
    else .words (tokenize key)
  | _ => .other

abbrev Leaf := List String × String

namespace Leaf

def detail (l : Leaf) : Detail := { command := Text.unwords l.1, description := l.2 }

def record (l : Leaf) : Value :=
  .ofEntries [("command", .text (Text.unwords l.1)), ("description", .text l.2)]

mutual

/-- The leaves of a level at `path`: texts and nulls under their keys, and the descriptions of
levels below the top one. -/
def ofLevel (path : List String) : List (Key × Value) → List Leaf
  | [] => []
  | (k, v) :: rest => ofEntry path k v ++ ofLevel path rest

def ofEntry (path : List String) (k : Key) (v : Value) : List Leaf :=
  match k.role with
  | .description =>
    match v with
    | .text description => if path = [] then [] else [(path, description)]
    | _ => []
  | .words ws =>
    match v with
    | .map es => ofLevel (path ++ ws) es
    | .text description => [(path ++ ws, description)]
    | .null => [(path ++ ws, "")]
    | _ => []
  | _ => []

end

end Leaf

def optionPath? (path : List String) : Value → Option (List String)
  | .text option => if Text.isBlankText option then none else some (path ++ tokenize option)
  | _ => none

mutual

def openedBy (path : List String) : List (Key × Value) → List (List String)
  | [] => []
  | (k, v) :: rest => openedByEntry path k v ++ openedBy path rest

def openedByEntry (path : List String) (k : Key) (v : Value) : List (List String) :=
  match k.role with
  | .options =>
    match v with
    | .list options => options.filterMap (optionPath? path)
    | _ => []
  | .words ws =>
    match v with
    | .map es => (path ++ ws) :: openedBy (path ++ ws) es
    | _ => []
  | _ => []

end

theorem Key.words_of_role {k : Key} {ws : List String} (h : k.role = .words ws) :
    ws ≠ [] ∧ ∀ w ∈ ws, IsToken w := by
  cases k with
  | text key =>
    rw [Key.role] at h
    split at h
    · simp at h
    · split at h
      · simp at h
      · split at h
        · simp at h
        next hkey =>
          rw [KeyRole.words.injEq] at h
          subst h
          refine ⟨fun hnil => hkey (by simp [hnil]), fun w hw => isToken_of_mem_tokenize hw⟩
  | _ => simp [Key.role] at h

theorem Key.eq_of_role_options {k : Key} (h : k.role = .options) : k = .text optionsKey := by
  cases k with
  | text key =>
    rw [Key.role] at h
    split at h
    next hkey => rw [hkey]
    next => split_ifs at h
  | _ => cases h

namespace Reading

theorem ofEntry_role (path : List String) (k : Key) (v : Value) :
    match k.role with
    | .options => ofEntry path k v = ofOptions path v
    | .description => ofEntry path k v = [ofDescription path v]
    | .words ws => ofEntry path k v =
        match v with
        | .map es => .opened (path ++ ws) :: ofLevel (path ++ ws) es
        | v => [ofLeaf (path ++ ws) v]
    | .other => ∃ r, ofEntry path k v = [r] ∧ r.command? = none ∧ r.opened? = none := by
  cases k with
  | text key =>
    rw [Key.role, ofEntry.eq_def]
    by_cases hoptions : key = optionsKey
    · simp [hoptions]
    · by_cases hdescription : key = descriptionKey
      · simp [hdescription, show descriptionKey ≠ optionsKey by decide]
      · by_cases hreserved : isReserved key = true
        · simp [hoptions, hdescription, hreserved, command?, opened?]
        · by_cases hempty : (tokenize key).isEmpty = true
          · simp [hoptions, hdescription, hreserved, hempty, command?, opened?]
          · have hwords : ¬(isReserved key || (tokenize key).isEmpty) = true := by
              simp [hreserved, hempty]
            cases v <;>
              simp only [if_neg hoptions, if_neg hdescription, if_neg hreserved, if_neg hempty,
                if_neg hwords]
  | _ =>
    rw [Key.role, ofEntry.eq_def]
    · exact ⟨_, rfl, rfl, rfl⟩
    · simp

theorem commands_ofOptions (path : List String) (v : Value) :
    (ofOptions path v).filterMap command? = [] := by
  have hoption : ∀ o, (ofOption path o).command? = none := by
    intro o
    cases o with
    | text option =>
      rw [ofOption]
      split <;> rfl
    | _ => rfl
  cases v with
  | list options => simp [ofOptions, hoption]
  | _ => rfl

theorem opened_ofOptions (path : List String) (v : Value) :
    (ofOptions path v).filterMap opened? =
      match v with
      | .list options => options.filterMap (optionPath? path)
      | _ => [] := by
  have hoption : ∀ o, (ofOption path o).opened? = optionPath? path o := by
    intro o
    cases o with
    | text option =>
      rw [ofOption, optionPath?]
      split <;> rfl
    | _ => rfl
  cases v with
  | list options => simp [ofOptions, hoption]
  | _ => rfl

theorem command?_ofDescription (path : List String) (v : Value) :
    (ofDescription path v).command? =
      match v with
      | .text description =>
        if path = [] then none else some (path, Leaf.detail (path, description))
      | _ => none := by
  cases v with
  | text description =>
    by_cases hpath : path = [] <;> simp [ofDescription, command?, hpath, Leaf.detail]
  | _ => rfl

theorem opened?_ofDescription (path : List String) (v : Value) :
    (ofDescription path v).opened? = none := by
  cases v with
  | text description =>
    rw [ofDescription]
    split <;> rfl
  | _ => rfl

theorem opened?_ofLeaf (path : List String) (v : Value) : (ofLeaf path v).opened? = none := by
  cases v with
  | list vs => rfl
  | _ =>
    rw [ofLeaf.eq_def]
    dsimp only
    split <;> rfl

theorem commands_ofLevel (path : List String) (es : Entries) :
    (ofLevel path es).filterMap command? = (Leaf.ofLevel path es).map fun l => (l.1, l.detail) := by
  induction es using Entries.levelInduction generalizing path with
  | nil => rfl
  | cons k v rest ihv ihrest =>
    rw [ofLevel, Leaf.ofLevel, List.filterMap_append, List.map_append, ihrest path]
    refine congrArg (· ++ _) ?_
    have hrole := ofEntry_role path k v
    rw [Leaf.ofEntry.eq_def]
    cases hk : k.role with
    | options =>
      rw [hk] at hrole
      rw [hrole, commands_ofOptions]
      rfl
    | description =>
      rw [hk] at hrole
      rw [hrole, List.filterMap_cons, command?_ofDescription]
      cases v with
      | text description => by_cases hpath : path = [] <;> simp [hpath]
      | _ => rfl
    | words ws =>
      rw [hk] at hrole
      rw [hrole]
      cases v with
      | map es => exact ihv es rfl (path ++ ws)
      | _ => rfl
    | other =>
      rw [hk] at hrole
      obtain ⟨r, hr, hcommand, -⟩ := hrole
      simp [hr, hcommand]

theorem opened_ofLevel (path : List String) (es : Entries) :
    (ofLevel path es).filterMap opened? = openedBy path es := by
  induction es using Entries.levelInduction generalizing path with
  | nil => rfl
  | cons k v rest ihv ihrest =>
    rw [ofLevel, openedBy, List.filterMap_append, ihrest path]
    refine congrArg (· ++ _) ?_
    have hrole := ofEntry_role path k v
    rw [openedByEntry.eq_def]
    cases hk : k.role with
    | options =>
      rw [hk] at hrole
      rw [hrole, opened_ofOptions]
    | description =>
      rw [hk] at hrole
      simp [hrole, opened?_ofDescription]
    | words ws =>
      rw [hk] at hrole
      rw [hrole]
      cases v with
      | map es => exact congrArg _ (ihv es rfl (path ++ ws))
      | _ => simp [opened?_ofLeaf]
    | other =>
      rw [hk] at hrole
      obtain ⟨r, hr, -, hopened⟩ := hrole
      simp [hr, hopened]

end Reading

theorem tokens_append {path ws : List String} (hpath : ∀ w ∈ path, IsToken w)
    (hws : ∀ w ∈ ws, IsToken w) : ∀ w ∈ path ++ ws, IsToken w :=
  fun w hw => (List.mem_append.mp hw).elim (hpath w) (hws w)

theorem Leaf.tokens_of_mem {path : List String} (hpath : ∀ w ∈ path, IsToken w) {es : Entries}
    {l : Leaf} (h : l ∈ Leaf.ofLevel path es) : l.1 ≠ [] ∧ ∀ w ∈ l.1, IsToken w := by
  induction es using Entries.levelInduction generalizing path with
  | nil => simp [Leaf.ofLevel] at h
  | cons k v rest ihv ihrest =>
    rw [Leaf.ofLevel, List.mem_append] at h
    rcases h with h | h
    · rw [Leaf.ofEntry.eq_def] at h
      cases hk : k.role with
      | options => simp [hk] at h
      | description =>
        cases v with
        | text description =>
          by_cases hnil : path = []
          · simp [hk, hnil] at h
          · have hl : l = (path, description) := by simpa [hk, hnil] using h
            exact hl ▸ ⟨hnil, hpath⟩
        | _ => simp [hk] at h
      | words ws =>
        obtain ⟨hne, hws⟩ := Key.words_of_role hk
        have happend := tokens_append hpath hws
        have hnil : path ++ ws ≠ [] := by simp [hne]
        cases v with
        | map es => exact ihv es rfl happend (by simpa [hk] using h)
        | text description =>
          have hl : l = (path ++ ws, description) := by simpa [hk] using h
          exact hl ▸ ⟨hnil, happend⟩
        | null =>
          have hl : l = (path ++ ws, "") := by simpa [hk] using h
          exact hl ▸ ⟨hnil, happend⟩
        | _ => simp [hk] at h
      | other => simp [hk] at h
    · exact ihrest hpath h

theorem Leaf.ofRecord_record {l : Leaf} (hne : l.1 ≠ []) (htokens : ∀ w ∈ l.1, IsToken w)
    (position : Nat) : Reading.ofRecord position l.record = .command l.1 l.detail := by
  have hpath : tokenize (Text.unwords l.1) = l.1 := tokenize_unwords htokens
  have hwords : Text.words (Text.unwords l.1) = l.1 :=
    Text.words_unwords fun w hw => (htokens w hw).word
  have hblank : Text.isBlankText (Text.unwords l.1) = false := by
    rw [← Bool.not_eq_true, ← tokenize_eq_nil_iff, hpath]
    exact hne
  have hrecord : Reading.ofRecord position l.record =
      Reading.ofCommand (.text (Text.unwords l.1)) l.record := rfl
  have hdetail : Detail.ofRecord (Text.unwords l.1) l.record = .ok l.detail := rfl
  rw [hrecord, Reading.ofCommand, hblank, hwords, hdetail, hpath]
  rfl

theorem Leaf.ofRecords_record {ls : List Leaf}
    (h : ∀ l ∈ ls, l.1 ≠ [] ∧ ∀ w ∈ l.1, IsToken w) (position : Nat) :
    Reading.ofRecords position (ls.map Leaf.record) = ls.map fun l => .command l.1 l.detail := by
  induction ls generalizing position with
  | nil => rfl
  | cons l ls ih =>
    obtain ⟨hne, htokens⟩ := h l (by simp)
    rw [List.map_cons, Reading.ofRecords, Leaf.ofRecord_record hne htokens,
      ih fun m hm => h m (List.mem_cons_of_mem _ hm), List.map_cons]

theorem Leaf.commands_records (es : Entries) :
    (Reading.ofRecords 0 ((Leaf.ofLevel [] es).map Leaf.record)).filterMap Reading.command? =
      (Leaf.ofLevel [] es).map fun l => (l.1, l.detail) := by
  rw [Leaf.ofRecords_record fun l hl => Leaf.tokens_of_mem (by simp) hl, List.filterMap_map]
  exact congrFun List.filterMap_eq_map _

theorem build_nested_flattening (es : Entries) :
    ∃ b c, build (.map es) (some .nested) = .ok b ∧
      build (.list ((Leaf.ofLevel [] es).map Leaf.record)) (some .records) = .ok c ∧
      b.tree.commands = c.tree.commands ∧
      (∀ p, (b.tree.get? p).isSome = true ↔
        (c.tree.get? p).isSome = true ∨ ∃ path ∈ openedBy [] es, p <+: path) ∧
      ∀ p, (b.tree.detailAt p).isSome = true ↔
        ∃ description, (p, description) ∈ Leaf.ofLevel [] es := by
  have hnested := Reading.commands_ofLevel [] es
  have hrecords := Leaf.commands_records es
  have hopened := Reading.opened_ofRecords 0 ((Leaf.ofLevel [] es).map Leaf.record)
  refine ⟨.ofReadings .nested (Reading.ofLevel [] es),
    .ofReadings .records (Reading.ofRecords 0 ((Leaf.ofLevel [] es).map Leaf.record)),
    rfl, rfl, ?_, fun p => ?_, fun p => ?_⟩
  · refine CommandTree.commands_congr (CommandTree.ordered_ofReadings _)
      (CommandTree.ordered_ofReadings _) fun p => ?_
    rw [Build.tree_ofReadings, Build.tree_ofReadings, CommandTree.detailAt_ofReadings,
      CommandTree.detailAt_ofReadings, hnested, hrecords]
  · simp only [Build.tree_ofReadings, CommandTree.isSome_get?_ofReadings, hnested, hrecords,
      hopened, Reading.opened_ofLevel]
    simp [or_assoc]
  · rw [Build.tree_ofReadings, CommandTree.isSome_detailAt_ofReadings, hnested]
    simp

end SwitchLexicon
