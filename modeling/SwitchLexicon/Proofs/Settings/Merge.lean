import SwitchLexicon.Proofs.Value.Mapping

/-!
Merging by what is found. A key of the second mapping shows its merged value, any other key shows
what the first mapping has. A value covers another when it has all keys of it, down to where one of
the two is no mapping: what is merged over a base covers the base, and to merge what covers the base
over it again changes nothing.
-/
namespace SwitchLexicon.Settings

theorem mergeValue_none (v : Value) : mergeValue none v = v := by
  cases v <;> rfl

theorem find?_merge (k : Key) {os : Entries} (h : os.Distinct) (base : Entries) :
    find? k (merge base os) =
      match find? k os with
      | some v => some (mergeValue (find? k base) v)
      | none => find? k base := by
  induction os generalizing base with
  | nil => rw [merge, find?]
  | cons o os ih =>
    obtain ⟨l, v⟩ := o
    rw [merge, ih (List.pairwise_cons.mp h).2, find?_insert, find?]
    cases hlk : l.same k with
    | true =>
      rw [h.find?_tail hlk, find?_congr hlk]
      rfl
    | false => rfl

/-- All keys of the base are there, down to where one side is no mapping. -/
inductive Covers : Value → Value → Prop
  | plain_base {b v : Value} (plain : ∀ bs, b ≠ .map bs) : Covers b v
  | plain_value {b v : Value} (plain : ∀ es, v ≠ .map es) : Covers b v
  | map {bs es : Entries}
      (keys : ∀ k, (find? k bs).isSome = true → (find? k es).isSome = true)
      (values : ∀ k b v, find? k bs = some b → find? k es = some v → Covers b v) :
      Covers (.map bs) (.map es)

namespace Covers

theorem keys {bs es : Entries} (h : Covers (.map bs) (.map es)) {k : Key}
    (hk : (find? k bs).isSome = true) : (find? k es).isSome = true := by
  cases h with
  | plain_base plain => exact absurd rfl (plain bs)
  | plain_value plain => exact absurd rfl (plain es)
  | map keys values => exact keys k hk

theorem values {bs es : Entries} (h : Covers (.map bs) (.map es)) {k : Key} {b v : Value}
    (hb : find? k bs = some b) (hv : find? k es = some v) : Covers b v := by
  cases h with
  | plain_base plain => exact absurd rfl (plain bs)
  | plain_value plain => exact absurd rfl (plain es)
  | map keys values => exact values k b v hb hv

theorem refl {v : Value} (h : v.Proper) : Covers v v := by
  induction h with
  | plain plain => exact .plain_base fun bs hbs => by simp [hbs, Value.isPlain] at plain
  | list items ih => exact .plain_base (by simp)
  | map distinct values ih =>
    refine .map (fun k hk => hk) fun k b v hb hv => ?_
    obtain rfl : b = v := Option.some.inj (hb.symm.trans hv)
    obtain ⟨l, hl⟩ := mem_of_find? hb
    exact ih _ hl

theorem congr {b v w : Value} (h : Covers b v) (hvw : v.Same w) : Covers b w := by
  induction h generalizing w with
  | plain_base plain => exact .plain_base plain
  | @plain_value b v plain =>
    refine .plain_value fun es hes => ?_
    have hface : v.face = .mapping := Option.some.inj ((hvw []).trans (hes ▸ rfl))
    cases v <;> simp_all [Value.face]
  | @map bs es keys values ih =>
    have hface : w.face = .mapping := Option.some.inj (hvw []).symm
    cases w with
    | map fs =>
      have hstep (k : Key) (path : List Value.Step) :
          (find? k es).bind (Value.faceAt path) = (find? k fs).bind (Value.faceAt path) :=
        hvw.step (.entry k) path
      refine .map (fun k hk => ?_) fun k b x hb hx => ?_
      · rw [← Value.isSome_of_bind_face (hstep k [])]
        exact keys k hk
      · obtain ⟨v, hv⟩ := Option.isSome_iff_exists.mp (keys k (by simp [hb]))
        refine ih k b v hb hv fun path => ?_
        have hpath := hstep k path
        rwa [hv, hx] at hpath
    | _ => cases hface

end Covers

theorem covers_mergeValue {b v : Value} (hb : b.Proper) (hv : v.Proper) :
    Covers b (mergeValue (some b) v) := by
  induction hv generalizing b with
  | @plain v plain =>
    exact .plain_value fun es hes => by cases v <;> simp_all [mergeValue, Value.isPlain]
  | list items ih => exact .plain_value (by simp [mergeValue])
  | @map os distinct values ih =>
    cases b with
    | map bs =>
      refine .map (fun k hk => ?_) fun k b w hbk hw => ?_
      · rw [find?_merge k distinct]
        split
        · rfl
        · exact hk
      · rw [find?_merge k distinct, hbk] at hw
        split at hw
        next v hv =>
          obtain rfl := Option.some.inj hw
          obtain ⟨l, hl⟩ := mem_of_find? hv
          exact ih _ hl (hb.find? hbk)
        next =>
          obtain rfl := Option.some.inj hw
          exact .refl (hb.find? hbk)
    | _ => exact .plain_base (by simp)

theorem same_mergeValue {b v : Value} (h : Covers b v) (hv : v.Proper) :
    (mergeValue (some b) v).Same v := by
  induction h with
  | @plain_base b v plain =>
    have hmerge : mergeValue (some b) v = v := by cases v <;> cases b <;> simp_all [mergeValue]
    exact fun path => congrArg (Value.faceAt path) hmerge
  | @plain_value b v plain =>
    have hmerge : mergeValue (some b) v = v := by cases v <;> simp_all [mergeValue]
    exact fun path => congrArg (Value.faceAt path) hmerge
  | @map bs es keys values ih =>
    intro path
    match path with
    | [] => rfl
    | .item n :: path => rfl
    | .entry k :: path =>
      show (find? k (merge bs es)).bind _ = (find? k es).bind _
      rw [find?_merge k hv.distinct]
      cases hk : find? k es with
      | none =>
        have hnone : find? k bs = none := by
          cases hb : find? k bs with
          | none => rfl
          | some b => simpa [hk] using keys k (by simp [hb])
        simp only [hnone]
      | some v =>
        cases hb : find? k bs with
        | none => simp only [mergeValue_none]
        | some b => exact ih k b v hb hk (hv.find? hk) path

end SwitchLexicon.Settings
