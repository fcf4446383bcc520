import SwitchLexicon.Index.Search
import SwitchLexicon.Proofs.Index.Lookup
import SwitchLexicon.Proofs.Text.Strip

/-!
Commands that a search finds. Each of them is a command of the index, found once, and its own name
leads back to it. Those whose name holds the query come before those where only the description
does, and neither letter case nor blanks around the query make a difference.
-/
namespace SwitchLexicon.Index

variable {i : Index} {t : CommandTree}

theorem canonical_of_mem_entries (hi : i.tree = some t) (ht : t.WellBuilt) {name : String}
    {d : Detail} (h : (name, d) ∈ i.entries) : canonical d.command = name := by
  obtain ⟨p, -, hd, hname⟩ := (mem_entries_iff hi ht.ordered name d).mp h
  rw [canonical, (ht.named p d hd).2, hname]

theorem nodup_commands (hi : i.tree = some t) (ht : t.WellBuilt) :
    (i.commands.map Detail.command).Nodup := by
  apply List.Nodup.of_map canonical
  have hnames : (i.commands.map Detail.command).map canonical = i.entries.map Prod.fst := by
    rw [commands, List.map_map, List.map_map]
    exact List.map_congr_left fun e he => canonical_of_mem_entries hi ht he
  rw [hnames]
  exact nodup_names hi ht

theorem find?_command (hi : i.tree = some t) (ht : t.WellBuilt) {d : Detail}
    (h : d ∈ i.commands) : i.find? d.command = some d := by
  obtain ⟨⟨name, e⟩, he, rfl⟩ := List.mem_map.mp h
  obtain ⟨p, -, hd, -⟩ := (mem_entries_iff hi ht.ordered name e).mp he
  rw [find?_eq_detailAt hi ht, (ht.named p e hd).2, hd]

theorem mem_commands_of_mem_matching {query : String} {d : Detail} (h : d ∈ i.matching query) :
    d ∈ i.commands := by
  rw [matching] at h
  split at h
  · exact h
  · rcases List.mem_append.mp h with h | h
    · exact (List.mem_filter.mp h).1
    · exact (List.mem_filter.mp h).1

theorem nodup_matching (hi : i.tree = some t) (ht : t.WellBuilt) (query : String) :
    ((i.matching query).map Detail.command).Nodup := by
  have hcommands := nodup_commands hi ht
  rw [matching]
  split
  · exact hcommands
  · rw [List.map_append]
    refine List.Nodup.append (hcommands.sublist (List.filter_sublist.map _))
      (hcommands.sublist (List.filter_sublist.map _)) fun name hname hother => ?_
    -- whether the name holds the query is seen from the name alone
    obtain ⟨d, hd, rfl⟩ := List.mem_map.mp hname
    obtain ⟨e, he, hsame⟩ := List.mem_map.mp hother
    have hin : d.nameContains (Text.lower (Text.strip query)) = true := (List.mem_filter.mp hd).2
    have hout := (List.mem_filter.mp he).2
    rw [Detail.nameContains] at hin
    simp only [Detail.nameContains, hsame, hin] at hout
    simp at hout

theorem search_sublist (i : Index) (query : String) (limit : Int) :
    (i.search query limit).Sublist (i.matching query) := by
  rw [search, Text.frontSlice]
  split
  · exact List.take_sublist _ _
  · exact List.take_sublist _ _

theorem mem_commands_of_mem_search {query : String} {limit : Int} {d : Detail}
    (h : d ∈ i.search query limit) : d ∈ i.commands :=
  mem_commands_of_mem_matching ((search_sublist i query limit).subset h)

theorem nodup_search (hi : i.tree = some t) (ht : t.WellBuilt) (query : String) (limit : Int) :
    ((i.search query limit).map Detail.command).Nodup :=
  (nodup_matching hi ht query).sublist ((search_sublist i query limit).map _)

/-- The ways in which an index is made: of a value, of what was loaded, or disabled. -/
inductive Made : Index → Prop
  | ofValue {raw : Value} {shape : Option Shape} {i : Index}
      (h : (ofValue raw shape).result = .ok i) : Made i
  | ofLoaded {loaded : Logged Value} {i : Index} (h : (ofLoaded loaded).result = .ok i) : Made i
  | disabled (error : String) : Made (.disabled error)

theorem wellBuilt_tree_of_ofValue {raw : Value} {shape : Option Shape}
    (h : (ofValue raw shape).result = .ok i) (hi : i.tree = some t) : t.WellBuilt := by
  obtain ⟨s, hs, hwell⟩ := wellBuilt_of_ofValue h
  obtain rfl := Option.some.inj (hs.symm.trans hi)
  exact hwell

theorem wellBuilt_tree_of_ofLoaded {loaded : Logged Value} (h : (ofLoaded loaded).result = .ok i)
    (hi : i.tree = some t) : t.WellBuilt := by
  rw [ofLoaded] at h
  dsimp only at h
  split at h
  next j hj =>
    obtain rfl := Except.ok.inj h
    split at hj
    next => cases hj
    next => exact wellBuilt_tree_of_ofValue hj hi
  next e he =>
    split at h
    next =>
      obtain rfl := Except.ok.inj h
      cases hi
    next => cases he.symm.trans h

theorem Made.wellBuilt (hmade : i.Made) (hi : i.tree = some t) : t.WellBuilt := by
  cases hmade with
  | ofValue h => exact wellBuilt_tree_of_ofValue h hi
  | ofLoaded h => exact wellBuilt_tree_of_ofLoaded h hi
  | disabled error => cases hi

theorem Made.nodup_matching (hmade : i.Made) (query : String) : (i.matching query).Nodup := by
  cases hi : i.tree with
  | some t => exact List.Nodup.of_map _ (Index.nodup_matching hi (hmade.wellBuilt hi) query)
  | none =>
    have hcommands : i.commands = [] := by simp [commands, entries, hi]
    have hmatching : i.matching query = [] := by simp [matching, hcommands]
    rw [hmatching]
    exact List.nodup_nil

def named (i : Index) (needle : String) : List Detail :=
  i.commands.filter fun d => Text.Occurs needle (Text.lower d.command)

def described (i : Index) (needle : String) : List Detail :=
  i.commands.filter fun d =>
    ¬Text.Occurs needle (Text.lower d.command) ∧ Text.Occurs needle (Text.lower d.description)

theorem nameContains_eq (d : Detail) (needle : String) :
    d.nameContains needle = decide (Text.Occurs needle (Text.lower d.command)) := by
  rw [Detail.nameContains, Bool.eq_iff_iff, Text.contains_iff, decide_eq_true_eq]

theorem isMatch_iff (d : Detail) (query : String) :
    d.isMatch query = true ↔ Text.Occurs (Text.lower query) (Text.lower d.command) ∨
      Text.Occurs (Text.lower query) (Text.lower d.description) := by
  rw [Detail.isMatch, Bool.or_eq_true, Detail.nameContains, Detail.descriptionContains,
    Text.contains_iff, Text.contains_iff]

theorem matching_of_empty {query : String} (h : Text.strip query = "") :
    i.matching query = i.commands := by
  simp [matching, h]

theorem matching_of_nonempty {query : String} (h : Text.strip query ≠ "") :
    i.matching query =
      i.named (Text.lower (Text.strip query)) ++ i.described (Text.lower (Text.strip query)) := by
  have hempty : (Text.strip query).isEmpty = false := by simpa using h
  have hsplit : i.matching query =
      i.commands.filter (fun d => d.nameContains (Text.lower (Text.strip query))) ++
        i.commands.filter fun d => !d.nameContains (Text.lower (Text.strip query)) &&
          d.isMatch (Text.strip query) := by
    rw [matching, hempty]
    rfl
  rw [hsplit, named, described]
  refine congrArg₂ _ (List.filter_congr fun d _ => nameContains_eq d _)
    (List.filter_congr fun d _ => ?_)
  rw [nameContains_eq, Bool.eq_iff_iff, Bool.and_eq_true, isMatch_iff]
  by_cases hname : Text.Occurs (Text.lower (Text.strip query)) (Text.lower d.command)
  · simp [hname]
  · simp [hname]

theorem mem_matching_iff {query : String} {d : Detail} :
    d ∈ i.matching query ↔ d ∈ i.commands ∧ d.isMatch (Text.strip query) = true := by
  by_cases h : Text.strip query = ""
  · have hall : d.isMatch "" = true := by
      rw [isMatch_iff, (Text.lower_eq_empty_iff "").mpr rfl]
      exact Or.inl ⟨"", Text.lower d.command, by rw [String.empty_append, String.empty_append]⟩
    rw [matching_of_empty h, h, hall]
    exact (and_iff_left rfl).symm
  · rw [matching_of_nonempty h, List.mem_append, named, described, List.mem_filter,
      List.mem_filter, isMatch_iff]
    by_cases hname : Text.Occurs (Text.lower (Text.strip query)) (Text.lower d.command)
    · simp [hname]
    · simp [hname]

theorem matching_congr {query other : String}
    (h : Text.lower (Text.strip other) = Text.lower (Text.strip query)) :
    i.matching other = i.matching query := by
  have hempty : Text.strip other = "" ↔ Text.strip query = "" := by
    rw [← Text.lower_eq_empty_iff, h, Text.lower_eq_empty_iff]
  by_cases hquery : Text.strip query = ""
  · rw [matching_of_empty hquery, matching_of_empty (hempty.mpr hquery)]
  · rw [matching_of_nonempty hquery, matching_of_nonempty (fun hother => hquery (hempty.mp hother)),
      h]

theorem search_eq_take (query : String) (limit : Nat) :
    i.search query limit = (i.matching query).take limit := by
  rw [search, Text.frontSlice, if_neg (by omega), Int.toNat_natCast]

theorem search_matches (hi : i.Made) (query : String) (limit : Nat) :
    let q := Text.strip query
    let hits := i.named (Text.lower q) ++ i.described (Text.lower q)
    (q ≠ "" → i.search query limit = hits.take limit ∧
        (hits.length ≤ limit → ∀ d, (i.search query limit).count d =
          if d ∈ i.commands ∧ d.isMatch q = true then 1 else 0)) ∧
      (q = "" → i.search query limit = i.commands.take limit) ∧
      i.search (Text.lower query) limit = i.search query limit ∧
      (∀ front back, Text.isBlankText front = true → Text.isBlankText back = true →
        i.search (front ++ query ++ back) limit = i.search query limit) ∧
      ∀ more : Nat, limit ≤ more → i.search query limit <+: i.search query more := by
  intro q hits
  refine ⟨fun hq => ?_, fun hq => ?_, ?_, fun front back hfront hback => ?_, fun more hmore => ?_⟩
  · have hmatching : i.matching query = hits := matching_of_nonempty hq
    refine ⟨by rw [search_eq_take, hmatching], fun hall d => ?_⟩
    rw [search_eq_take, List.take_of_length_le (by rwa [hmatching]),
      (hi.nodup_matching query).count]
    exact if_congr mem_matching_iff rfl rfl
  · rw [search_eq_take, matching_of_empty hq]
  · rw [search_eq_take, search_eq_take]
    exact congrArg _ (matching_congr (by rw [← Text.lower_strip, Text.lower_lower]))
  · rw [search_eq_take, search_eq_take]
    exact congrArg _ (matching_congr (by rw [Text.strip_append hfront hback]))
  · rw [search_eq_take, search_eq_take]
    exact List.take_prefix_take_left hmore

def portEntries : Entries :=
  [(.text "vlan", .text "Assigns PORTS"), (.text "show", .null), (.text "Port  security", .null)]

theorem search_matches_port :
    ∃ i : Index, i.Made ∧ (i.named "port" ++ i.described "port").length ≤ 5 ∧
      i.search "\u00a0pOrt" 5 = (i.named "port" ++ i.described "port").take 5 ∧
      (i.search "\u00a0pOrt" 5).map Detail.command = ["Port security", "vlan"] ∧
      i.search (" " ++ "\u00a0pOrt" ++ "\t") 5 = i.search "\u00a0pOrt" 5 ∧
      i.search "\u00a0pOrt" 5 <+: i.search "\u00a0pOrt" 7 := by
  have h : (ofValue (.map portEntries) none).result =
      .ok (.ofBuild (.ofReadings .flat (Reading.ofFlat portEntries))) :=
    result_ofValue_of_isOk rfl (by decide +kernel)
  have hquery : Text.strip "\u00a0pOrt" = "pOrt" := by rfl
  have hneedle : Text.lower "pOrt" = "port" := by rfl
  obtain ⟨hhits, -, -, hblanks, hmore⟩ := search_matches (.ofValue h) "\u00a0pOrt" 5
  rw [hquery, hneedle] at hhits
  exact ⟨_, .ofValue h, by decide +kernel, (hhits (by decide)).1, by decide +kernel,
    hblanks " " "\t" (by decide) (by decide), hmore 7 (by decide)⟩

end SwitchLexicon.Index
