import Mathlib.Data.List.TakeWhile
import SwitchLexicon.Proofs.Files.Put

/-!
Where paths lead. A way that nothing stops ends at a place its names alone decide, and wherever the
path of a directory leads, the path with one more name leads on from there.
-/
namespace SwitchLexicon

namespace Path

/-- What the texts of paths are read to: a root of slashes and names that are not empty. -/
structure IsRead (p : Path) : Prop where
  root : p.root = "" ∨ p.root = "/" ∨ p.root = "//"
  names : ∀ n ∈ p.names, n ≠ ""

theorem isRead_ofText (s : String) : (ofText s).IsRead where
  root := by
    rw [ofText, rootOf]
    split
    · exact Or.inl rfl
    · exact Or.inr (Or.inr rfl)
    · exact Or.inr (Or.inl rfl)
  names n hn := by
    obtain ⟨-, hn⟩ := List.mem_filter.mp hn
    simp only [Bool.and_eq_true, bne_iff_ne] at hn
    exact hn.1

theorem IsRead.append {p : Path} (hp : p.IsRead) {names : List String}
    (hnames : ∀ n ∈ names, n ≠ "") : IsRead { p with names := p.names ++ names } := by
  refine ⟨hp.root, fun n hn => ?_⟩
  rcases List.mem_append.mp hn with hn | hn
  · exact hp.names n hn
  · exact hnames n hn

theorem IsRead.expandHome {p q : Path} (hp : p.IsRead) {home : String}
    {homes : List (String × String)} (h : p.expandHome home homes = some q) : q.IsRead := by
  rw [Path.expandHome] at h
  split at h
  next first rest hroot hnames =>
    split at h
    next name hfirst =>
      obtain ⟨found, -, hfound⟩ := Option.bind_eq_some_iff.mp h
      dsimp only at hfound
      split at hfound
      · cases hfound
      · obtain rfl := Option.some.inj hfound
        have hrest : ∀ n ∈ rest, n ≠ "" := fun n hn =>
          hp.names n (hnames ▸ List.mem_cons_of_mem _ hn)
        exact (isRead_ofText (homeText found)).append hrest
    next =>
      rw [Option.some.injEq] at h
      exact h ▸ hp
  next =>
    rw [Option.some.injEq] at h
    exact h ▸ hp

theorem namesBetween_slash (acc cs ds : List Char) :
    namesBetween acc (cs ++ '/' :: ds) = namesBetween acc cs ++ namesBetween [] ds := by
  induction cs generalizing acc with
  | nil => simp [namesBetween]
  | cons c cs ih =>
    rw [List.cons_append, namesBetween, namesBetween]
    split
    · rw [ih, List.cons_append]
    · exact ih _

theorem namesBetween_plain (acc : List Char) {cs : List Char} (h : '/' ∉ cs) :
    namesBetween acc cs = [String.ofList (acc.reverse ++ cs)] := by
  induction cs generalizing acc with
  | nil => simp [namesBetween]
  | cons c cs ih =>
    rw [List.mem_cons, not_or] at h
    rw [namesBetween, if_neg (Ne.symm h.1), ih _ h.2]
    simp

theorem intercalate_concat (n : String) (ns : List String) (name : String) :
    "/".intercalate (n :: ns ++ [name]) = "/".intercalate (n :: ns) ++ "/" ++ name := by
  rw [← String.toList_inj]
  induction ns generalizing n with
  | nil => simp
  | cons m ns ih =>
    have hrest := ih m
    simp only [List.cons_append, String.toList_append, String.toList_intercalate,
      List.map_cons] at hrest
    simp only [List.cons_append, String.toList_append, String.toList_intercalate, List.map_cons,
      List.intercalate_cons_cons, hrest, List.append_assoc]

theorem text_cons (root : String) {n : String} (hn : n ≠ "") (ns : List String) :
    text ⟨root, n :: ns⟩ = root ++ "/".intercalate (n :: ns) := by
  rw [text, if_neg]
  rw [String.isEmpty_iff, String.append_eq_empty_iff, not_and]
  intro _ hempty
  have hchars := congrArg String.toList hempty
  cases ns with
  | nil => simp [hn] at hchars
  | cons m ns => simp [String.toList_intercalate] at hchars

end Path

namespace Files

def isPathChar (c : Char) : Bool :=
  c != Char.ofNat 0 && isEncodable c

theorem unencodable?_eq_none_iff (cs : List Char) :
    unencodable? cs = none ↔ ∀ c ∈ cs, isEncodable c = true := by
  rw [unencodable?, ← List.dropWhile_eq_nil_iff]
  cases cs.dropWhile isEncodable <;> simp

theorem pathError?_eq_none_iff (path : String) :
    pathError? path = none ↔ ∀ c ∈ path.toList, isPathChar c = true := by
  rw [pathError?, Option.or_eq_none_iff, unencodable?_eq_none_iff, and_comm]
  simp only [isPathChar, Bool.and_eq_true, bne_iff_ne, forall_and, ite_eq_right_iff, reduceCtorEq,
    imp_false, List.contains_iff_mem, ne_eq, List.forall_mem_ne']

end Files

structure IsFileName (name : String) : Prop where
  steps : name ≠ "" ∧ name ≠ "." ∧ name ≠ ".."
  short : Files.isTooLong name = false
  plain : '/' ∉ name.toList ∧ ∀ c ∈ name.toList, Files.isPathChar c = true

namespace Files

variable {files : Files} {here middle : Place} {name : String}

/-- Where names lead if nothing stops the way. -/
def destination (here : Place) : List String → Place
  | [] => here
  | name :: rest =>
    if name == "" || name == "." then destination here rest
    else if name == ".." then destination (above here) rest
    else destination (here ++ [name]) rest

theorem eq_destination_of_walk {files : Files} {here place : Place} {names : List String}
    (h : files.walk here names = .ok place) : place = destination here names := by
  induction names generalizing here with
  | nil => exact (Except.ok.inj h).symm
  | cons name rest ih =>
    rw [walk] at h
    rw [destination]
    split at h
    · cases h
    · cases h
    · split_ifs at h ⊢
      · exact ih h
      · exact ih h
      · exact ih h

theorem locate_of_locateForWriting {files : Files} {path : String} {place : Place}
    (h : files.locateForWriting path = .ok place) : files.locate path = .ok place := by
  unfold locateForWriting at h
  cases hfound : files.locate path with
  | error e =>
    rw [hfound] at h
    cases h
  | ok found =>
    simp only [hfound] at h
    split at h
    · cases h
    · rw [Except.ok.inj h]

theorem walk_append {front : List String} (h : files.walk here front = .ok middle)
    (rest : List String) : files.walk here (front ++ rest) = files.walk middle rest := by
  induction front generalizing here with
  | nil =>
    obtain rfl : here = middle := by simpa [walk] using h
    rfl
  | cons n ns ih =>
    rw [walk] at h
    rw [List.cons_append, walk]
    split at h
    · simp at h
    · simp at h
    · split_ifs at h ⊢
      · exact ih h
      · exact ih h
      · exact ih h

theorem walk_name (hhere : files.node? here = some .directory) (hname : IsFileName name) :
    files.walk here [name] = .ok (here ++ [name]) := by
  simp [walk, hhere, hname.steps, hname.short]

theorem node?_startOf (files : Files) (path : String) :
    files.node? (startOf path) = some .directory := by
  rw [node?, if_pos]
  rw [startOf]
  split <;> decide

theorem locate_slash {path : String} {place : Place} (h : files.locate path = .ok place)
    (hplace : files.node? place = some .directory) (hname : IsFileName name) :
    files.locate (path ++ "/" ++ name) = .ok (place ++ [name]) := by
  obtain ⟨hnull, hsome, hwalk⟩ := locate_eq_ok_iff.mp h
  obtain ⟨hslash, hnull'⟩ := hname.plain
  have hchars : (path ++ "/" ++ name).toList = path.toList ++ '/' :: name.toList := by simp
  have hstart : startOf (path ++ "/" ++ name) = startOf path := by
    obtain ⟨c, cs, hc⟩ := List.exists_cons_of_ne_nil hsome
    rw [startOf, startOf, hchars, hc]
    rfl
  rw [pathError?_eq_none_iff] at hnull
  refine locate_eq_ok_iff.mpr ⟨?_, by simp [hchars], ?_⟩
  · rw [pathError?_eq_none_iff, hchars, List.forall_mem_append, List.forall_mem_cons]
    exact ⟨hnull, by decide, hnull'⟩
  · rw [hstart, hchars, Path.namesBetween_slash, walk_append hwalk,
      Path.namesBetween_plain [] hslash, List.reverse_nil, List.nil_append, String.ofList_toList,
      walk_name hplace hname]

/-- Empty names before the last one stay where the way begins. -/
theorem locate_root {root : String} (hroot : root = "" ∨ root = "/" ∨ root = "//")
    (hname : IsFileName name) : ∃ place, files.locate (root ++ name) = .ok place := by
  obtain ⟨hslash, hnull⟩ := hname.plain
  have hsome : name.toList ≠ [] := by simpa using hname.steps.1
  have hlast : ∀ here, files.node? here = some .directory →
      files.walk here (Path.namesBetween [] name.toList) = .ok (here ++ [name]) := by
    intro here hhere
    rw [Path.namesBetween_plain [] hslash, List.reverse_nil, List.nil_append,
      String.ofList_toList, walk_name hhere hname]
  have hstay : ∀ here names, files.node? here = some .directory →
      files.walk here ("" :: names) = files.walk here names := by
    intro here names hhere
    simp [walk, hhere]
  have hstart := node?_startOf files (root ++ name)
  refine ⟨startOf (root ++ name) ++ [name], locate_eq_ok_iff.mpr ?_⟩
  generalize startOf (root ++ name) = start at hstart ⊢
  rcases hroot with rfl | rfl | rfl
  · rw [String.empty_append]
    exact ⟨(pathError?_eq_none_iff name).mpr hnull, hsome, hlast _ hstart⟩
  · have hchars : ("/" ++ name).toList = [] ++ '/' :: name.toList := by simp
    refine ⟨?_, by simp, ?_⟩
    · rw [pathError?_eq_none_iff, hchars, List.nil_append, List.forall_mem_cons]
      exact ⟨by decide, hnull⟩
    · rw [hchars, Path.namesBetween_slash]
      exact (hstay _ _ hstart).trans (hlast _ hstart)
  · have hchars : ("//" ++ name).toList = [] ++ '/' :: ([] ++ '/' :: name.toList) := by simp
    refine ⟨?_, by simp, ?_⟩
    · rw [pathError?_eq_none_iff, hchars, List.nil_append, List.forall_mem_cons, List.nil_append,
        List.forall_mem_cons]
      exact ⟨by decide, by decide, hnull⟩
    · rw [hchars, Path.namesBetween_slash, Path.namesBetween_slash]
      exact (hstay _ _ hstart).trans ((hstay _ _ hstart).trans (hlast _ hstart))

theorem locate_join {dir : Path} (hdir : dir.IsRead) (hname : IsFileName name)
    (h : files.isDirectory dir.text = true) :
    ∃ place, files.locate (dir.join name).text = .ok place := by
  obtain ⟨root, names⟩ := dir
  have hnamed : ∀ s : String, s ++ name ≠ "" := by
    intro s hs
    exact hname.steps.1 (String.append_eq_empty_iff.mp hs).2
  cases names with
  | nil =>
    have htext : (Path.join ⟨root, []⟩ name).text = root ++ name := by
      simp [Path.text, Path.join, hnamed]
    rw [htext]
    exact locate_root hdir.root hname
  | cons n ns =>
    obtain ⟨place, hplace, hnode⟩ := stat_eq_ok_iff.mp (isDirectory_iff.mp h)
    have hn : n ≠ "" := hdir.names n (by simp)
    have htext : (Path.join ⟨root, n :: ns⟩ name).text =
        Path.text ⟨root, n :: ns⟩ ++ "/" ++ name := by
      rw [Path.join, List.cons_append, Path.text_cons _ hn, Path.text_cons _ hn,
        ← List.cons_append, Path.intercalate_concat]
      simp only [String.append_assoc]
    rw [htext]
    exact ⟨_, locate_slash hplace hnode hname⟩

end Files

end SwitchLexicon
