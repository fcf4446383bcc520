import SwitchLexicon.Browser
import SwitchLexicon.Proofs.Index.Search

/-!
Runs of the command browser. Whatever happens, the list shows what was found for the last query that
was entered, under names that tell the entries apart, and every entry opens its own command.
-/
namespace SwitchLexicon.Browser

def Event.query? (initial : String) : Event → Option String
  | .mount => some initial
  | .input query => some query
  | _ => none

def lastQuery (initial : String) (es : List Event) : Option String :=
  (es.filterMap (Event.query? initial)).getLast?

def listing (b : Browser) (query : Option String) : List Detail :=
  query.elim b.shown (b.index.search · b.limit)

/-- The index, the limit and the first query never change, and only a query changes the list. -/
structure Follows (b c : Browser) (query : Option String) : Prop where
  index : c.index = b.index
  limit : c.limit = b.limit
  initialQuery : c.initialQuery = b.initialQuery
  shown : c.shown = b.listing query

theorem follows_open {b : Browser} {name : String} {r : Browser × Detail}
    (h : b.open? name = .ok r) : b.Follows r.1 none := by
  rw [open?] at h
  cases hget : b.index.get name with
  | error e => simp [hget, Except.map] at h
  | ok d =>
    obtain rfl : ({ b with screens := d :: b.screens }, d) = r := by
      simpa [hget, Except.map] using h
    exact ⟨rfl, rfl, rfl, rfl⟩

theorem follows_apply {b : Browser} {e : Event} {r : Browser × Option Detail}
    (h : b.apply e = .ok r) : b.Follows r.1 (e.query? b.initialQuery) := by
  have hopen : ∀ name, (b.open? name).map (fun r => (r.1, some r.2)) = .ok r →
      b.Follows r.1 none := by
    intro name hname
    cases hr : b.open? name with
    | error e => simp [hr, Except.map] at hname
    | ok s =>
      obtain rfl : (s.1, some s.2) = r := by simpa [hr, Except.map] using hname
      exact follows_open hr
  cases e with
  | mount => exact Except.ok.inj h ▸ ⟨rfl, rfl, rfl, rfl⟩
  | input query => exact Except.ok.inj h ▸ ⟨rfl, rfl, rfl, rfl⟩
  | submit =>
    rw [apply] at h
    split at h <;> exact Except.ok.inj h ▸ ⟨rfl, rfl, rfl, rfl⟩
  | chooseAt position =>
    rw [apply] at h
    split at h
    next d hd => exact hopen (optionId d) h
    next => exact Except.ok.inj h ▸ ⟨rfl, rfl, rfl, rfl⟩
  | choose name =>
    cases name with
    | some name => exact hopen name h
    | none => exact Except.ok.inj h ▸ ⟨rfl, rfl, rfl, rfl⟩
  | focusSearch => exact Except.ok.inj h ▸ ⟨rfl, rfl, rfl, rfl⟩
  | back => exact Except.ok.inj h ▸ ⟨rfl, rfl, rfl, rfl⟩

theorem apply_query_ok (b : Browser) {e : Event} {query : String}
    (h : e.query? b.initialQuery = some query) : ∃ r, b.apply e = .ok r := by
  cases e with
  | mount => exact ⟨_, rfl⟩
  | input query => exact ⟨_, rfl⟩
  | _ => simp [Event.query?] at h

theorem follows_after (b : Browser) (e : Event) :
    b.Follows (b.after e) (e.query? b.initialQuery) := by
  rw [after]
  cases h : b.apply e with
  | ok r => exact follows_apply h
  | error failure =>
    have hnone : e.query? b.initialQuery = none := by
      rw [Option.eq_none_iff_forall_ne_some]
      intro query hquery
      obtain ⟨r, hr⟩ := apply_query_ok b hquery
      cases h.symm.trans hr
    rw [hnone]
    exact ⟨rfl, rfl, rfl, rfl⟩

theorem follows_run (b : Browser) (es : List Event) :
    b.Follows (b.run es) (lastQuery b.initialQuery es) := by
  induction es using List.reverseRecOn with
  | nil => exact ⟨rfl, rfl, rfl, rfl⟩
  | append_singleton es e ih =>
    have hstep := follows_after (b.run es) e
    have hrun : b.run (es ++ [e]) = (b.run es).after e := by simp [run]
    rw [hrun]
    refine ⟨hstep.index.trans ih.index, hstep.limit.trans ih.limit,
      hstep.initialQuery.trans ih.initialQuery, ?_⟩
    rw [hstep.shown, ih.initialQuery, listing, ih.index, ih.limit, ih.shown, lastQuery, lastQuery,
      List.filterMap_append]
    cases hquery : e.query? b.initialQuery with
    | none => simp [hquery, listing]
    | some query => simp [hquery, listing]

theorem open?_listed {b : Browser} {t : CommandTree} (hi : b.index.tree = some t)
    (ht : t.WellBuilt) {d : Detail} (h : d ∈ b.index.commands) :
    b.open? (optionId d) = .ok ({ b with screens := d :: b.screens }, d) := by
  rw [open?, optionId, Index.get, Index.find?_command hi ht h]
  rfl

theorem listed_options_open {raw : Value} {shape : Option Shape} {i : Index}
    (h : (Index.ofValue raw shape).result = .ok i) (limit : Int) (query : String)
    (es : List Event) :
    let b := run { index := i, limit := limit, initialQuery := query } es
    b.shown.map optionId =
        ((lastQuery query es).elim [] fun q => (i.search q limit).map Detail.command) ∧
      (b.shown.map optionId).Nodup ∧
      ∀ position d, b.shown[position]? = some d →
        b.apply (.chooseAt position) = .ok ({ b with screens := d :: b.screens }, some d) ∧
        b.apply (.choose (some (optionId d))) =
          .ok ({ b with screens := d :: b.screens }, some d) := by
  intro b
  obtain ⟨t, hi, ht⟩ := Index.wellBuilt_of_ofValue h
  have hrun := follows_run { index := i, limit := limit, initialQuery := query } es
  have hindex : b.index = i := hrun.index
  have hshown : b.shown = (lastQuery query es).elim [] (i.search · limit) := hrun.shown
  have hcommands : ∀ d ∈ b.shown, d ∈ b.index.commands := by
    rw [hshown, hindex]
    cases lastQuery query es with
    | none => simp
    | some q => exact fun d hd => Index.mem_commands_of_mem_search hd
  have hids : b.shown.map optionId =
      (lastQuery query es).elim [] fun q => (i.search q limit).map Detail.command := by
    rw [hshown]
    cases lastQuery query es <;> rfl
  refine ⟨hids, ?_, fun position d hd => ?_⟩
  · rw [hids]
    cases lastQuery query es with
    | none => exact List.nodup_nil
    | some q => exact Index.nodup_search hi ht q limit
  · have hopen := open?_listed (hindex ▸ hi) ht (hcommands d (List.mem_of_getElem? hd))
    constructor
    · simp only [apply, hd, hopen, Except.map]
    · simp only [apply, hopen, Except.map]

def vlanEntries : Entries :=
  [(.text "Show  VLAN", .text "VLANs"), (.text "vlan", .null), (.text "show ip", .null)]

def vlanEvents : List Event := [.mount, .submit, .input " Vlan", .choose none, .submit]

theorem listed_options_open_vlan :
    ∃ i, (Index.ofValue (.map vlanEntries) none).result = .ok i ∧
      let b := run { index := i, limit := -1, initialQuery := "ip" } vlanEvents
      b.shown.map optionId = ["Show VLAN"] ∧
        ∃ d, b.shown[0]? = some d ∧
          b.apply (.chooseAt 0) = .ok ({ b with screens := d :: b.screens }, some d) := by
  have h : (Index.ofValue (.map vlanEntries) none).result =
      .ok (.ofBuild (.ofReadings .flat (Reading.ofFlat vlanEntries))) :=
    result_ofValue_of_isOk rfl (by decide +kernel)
  have hfound : ((Index.ofBuild (.ofReadings .flat (Reading.ofFlat vlanEntries))).search " Vlan"
      (-1)).map Detail.command = ["Show VLAN"] := by decide +kernel
  have hlast : lastQuery "ip" vlanEvents = some " Vlan" := by decide
  generalize Index.ofBuild (.ofReadings .flat (Reading.ofFlat vlanEntries)) = i at h hfound
  obtain ⟨hids, -, hopen⟩ := listed_options_open h (-1) "ip" vlanEvents
  rw [hlast, Option.elim_some, hfound] at hids
  refine ⟨i, h, hids, ?_⟩
  obtain ⟨d, hd, -⟩ := List.map_eq_singleton_iff.mp hids
  rw [hd] at hopen ⊢
  exact ⟨d, rfl, (hopen 0 d rfl).1⟩

end SwitchLexicon.Browser
