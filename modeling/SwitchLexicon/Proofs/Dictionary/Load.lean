import SwitchLexicon.Proofs.Dictionary.Extent
import SwitchLexicon.Proofs.Files.Join
import SwitchLexicon.Proofs.Json.Limits
import SwitchLexicon.Proofs.Line.Suggestion
import SwitchLexicon.Proofs.Text.Utf8

/-!
Loading of a dictionary file. Most broken files leave a disabled index, which answers with no words.
Some do not: a path that no bytes stand for, bytes that are no text, a number with too many digits,
brackets that are nested too deep and a dictionary that meets a bound when it is built end in a
failure instead.
-/
namespace SwitchLexicon

/-- The bytes of the file are the written form of a text, whose line ends are then unified. -/
def Files.HoldsText (files : Files) (path text : String) : Prop :=
  ∃ s, files.read path = .ok (Text.encodeUtf8 s) ∧
    text = String.ofList (Text.unifyLineEnds s.toList)

inductive Value.IsContainer : Value → Prop
  | list (vs : List Value) : IsContainer (.list vs)
  | map (es : Entries) : IsContainer (.map es)

def Files.HoldsDictionary (files : Files) (path : String) (v : Value) : Prop :=
  ∃ text, files.HoldsText path text ∧ Json.read text = .ok v ∧ v.IsContainer

/-- The files that no index is made of, not even a disabled one. -/
inductive Files.Escapes (files : Files) (path : String) : Prop
  | badPath {c : Char} (hmem : c ∈ path.toList) (hbad : isPathChar c = false)
  | notText {bytes : List UInt8} (hread : files.read path = .ok bytes)
      (hbytes : ∀ s, bytes ≠ Text.encodeUtf8 s)
  | overLimit {text : String} {e : Json.Error} (htext : files.HoldsText path text)
      (hjson : Json.read text = .error e) (hlimit : e.isLimit = true)
  | overBound {v : Value} {l : Limit} (hdictionary : files.HoldsDictionary path v)
      (hmeets : Meets v none l)

structure Files.IsPlain (files : Files) (path : String) : Prop where
  chars : ∀ c ∈ path.toList, isPathChar c = true
  text : ∀ bytes, files.read path = .ok bytes →
    ∃ text, files.HoldsText path text ∧ Json.IsModest text
  extent : ∀ v, files.HoldsDictionary path v → v.extent ≤ Stack.levels levelCalls

structure Index.IsDisabled (i : Index) : Prop where
  tree : i.tree = none
  error : i.error ≠ ""
  silent : ∀ line cursor, 0 ≤ cursor.getD line.length → cursor.getD line.length ≤ line.length →
    ∃ s, i.suggest line cursor = .ok s ∧ s.tokens = []

structure Index.IsLoadedFrom (files : Files) (path : String) (i : Index) : Prop where
  enabled : ∀ v, files.HoldsDictionary path v → ∃ b, build v none = .ok b ∧ i = .ofBuild b
  disabled : (¬ ∃ v, files.HoldsDictionary path v) → i.IsDisabled

namespace Files

variable (files : Files) {path : String}

theorem fault_of_read_error (hpath : pathError? path = none) {e : FileError}
    (h : files.read path = .error e) : ∃ fault p, e = .fault fault p := by
  have hlocate {e : FileError} (h : files.locate path = .error e) :
      ∃ fault p, e = .fault fault p := by
    simp only [locate, hpath] at h
    split at h
    · exact ⟨_, _, (Except.error.inj h).symm⟩
    · split at h
      · cases h
      · exact ⟨_, _, (Except.error.inj h).symm⟩
  have hstat {e : FileError} (h : files.stat path = .error e) : ∃ fault p, e = .fault fault p := by
    rw [stat] at h
    split at h
    next e' he => exact Except.error.inj h ▸ hlocate he
    next =>
      split at h
      · cases h
      · exact ⟨_, _, (Except.error.inj h).symm⟩
  rw [read] at h
  split at h
  next e' he => exact Except.error.inj h ▸ hstat he
  next => exact ⟨_, _, (Except.error.inj h).symm⟩
  next => cases h

theorem pathError?_ne_fault (path : String) (fault : FileFault) (p : String) :
    pathError? path ≠ some (.fault fault p) := by
  intro h
  rw [pathError?, Option.or_eq_some_iff, unencodable?] at h
  rcases h with h | ⟨-, h⟩
  · split at h <;> cases h
  · split at h <;> cases h

theorem read_of_pathError? {e : FileError} (hpath : pathError? path = some e) :
    files.read path = .error e := by
  simp only [read, stat, locate, hpath]

variable {files}

theorem holdsText_unique {text other : String} (h : files.HoldsText path text)
    (h' : files.HoldsText path other) : other = text := by
  obtain ⟨s, hread, rfl⟩ := h
  obtain ⟨t, hread', rfl⟩ := h'
  have hst : t = s := Text.encodeUtf8_injective (Except.ok.inj (hread'.symm.trans hread))
  rw [hst]

theorem IsPlain.not_escapes (h : files.IsPlain path) : ¬ files.Escapes path := by
  intro hescapes
  cases hescapes with
  | badPath hmem hbad => exact Bool.false_ne_true (hbad.symm.trans (h.chars _ hmem))
  | notText hread hbytes =>
    obtain ⟨-, ⟨s, hs, -⟩, -⟩ := h.text _ hread
    exact hbytes s (Except.ok.inj (hread.symm.trans hs))
  | overLimit htext hjson hlimit =>
    obtain ⟨s, hread, hs⟩ := htext
    obtain ⟨text, htext, hmodest⟩ := h.text _ hread
    rw [holdsText_unique htext ⟨s, hread, hs⟩] at hjson
    simp [hmodest.isLimit_eq_false hjson] at hlimit
  | overBound hdictionary hmeets =>
    have hextent := h.extent _ hdictionary
    obtain ⟨text, -, hjson, -⟩ := hdictionary
    exact not_meets_of_extent_le (Value.hasShortNumbers_of_layered (Json.layered_of_read hjson))
      hextent none _ hmeets

end Files

theorem build_of_not_container {v : Value} (hv : ¬ v.IsContainer) :
    ∃ e, build v none = .error e := by
  cases v with
  | list vs => exact absurd (.list vs) hv
  | map es => exact absurd (.map es) hv
  | _ => exact ⟨_, rfl⟩

theorem build_of_container {v : Value} (hv : v.IsContainer) : ∃ b, build v none = .ok b := by
  cases hv with
  | list vs => exact ⟨_, rfl⟩
  | map es =>
    cases hflat : es.all isFlatEntry with
    | true => exact ⟨_, build_of_flat hflat⟩
    | false => exact ⟨_, build_of_not_flat hflat⟩

namespace Dictionary

variable {files : Files} {path text : String}

theorem readFile_of_json {v : Value} (htext : files.HoldsText path text)
    (hjson : Json.read text = .ok v) : readFile files path = .ok v := by
  obtain ⟨s, hread, rfl⟩ := htext
  simp only [readFile, hread, parse, (Text.decodeUtf8_eq_ok_iff _ s).mpr rfl, hjson]

theorem readFile_of_json_error {e : Json.Error} (htext : files.HoldsText path text)
    (hjson : Json.read text = .error e) :
    ∃ f, readFile files path = .error f ∧ isTolerated f = !e.isLimit := by
  obtain ⟨s, hread, rfl⟩ := htext
  simp only [readFile, hread, parse, (Text.decodeUtf8_eq_ok_iff _ s).mpr rfl, hjson]
  cases e <;> exact ⟨_, rfl, rfl⟩

theorem readFile_of_not_text {bytes : List UInt8} (hread : files.read path = .ok bytes)
    (hbytes : ∀ s, bytes ≠ Text.encodeUtf8 s) :
    ∃ f, readFile files path = .error f ∧ isTolerated f = false := by
  cases hdecode : Text.decodeUtf8 bytes with
  | ok s => exact absurd ((Text.decodeUtf8_eq_ok_iff bytes s).mp hdecode) (hbytes s)
  | error e => exact ⟨.undecodable e, by simp only [readFile, hread, parse, hdecode], rfl⟩

theorem readFile_of_escapes (h : files.Escapes path) :
    (∃ f, readFile files path = .error f ∧ isTolerated f = false) ∨
      ∃ v l, v.IsContainer ∧ readFile files path = .ok v ∧ Meets v none l := by
  cases h with
  | badPath hmem hbad =>
    cases hpath : Files.pathError? path with
    | none =>
      exact absurd ((Files.pathError?_eq_none_iff path).mp hpath _ hmem) (by simp [hbad])
    | some e =>
      have hread := files.read_of_pathError? hpath
      cases e with
      | fault fault p => exact absurd hpath (Files.pathError?_ne_fault path fault p)
      | _ => exact Or.inl ⟨.file _, by rw [readFile, hread], rfl⟩
  | notText hread hbytes => exact Or.inl (readFile_of_not_text hread hbytes)
  | overLimit htext hjson hlimit =>
    obtain ⟨f, hf, htolerated⟩ := readFile_of_json_error htext hjson
    exact Or.inl ⟨f, hf, by rw [htolerated, hlimit]; rfl⟩
  | overBound hdictionary hmeets =>
    obtain ⟨text, htext, hjson, hv⟩ := hdictionary
    exact Or.inr ⟨_, _, hv, readFile_of_json htext hjson, hmeets⟩

theorem readFile_of_not_escapes (h : ¬ files.Escapes path) :
    (∃ text v, files.HoldsText path text ∧ Json.read text = .ok v ∧ readFile files path = .ok v) ∨
      ∃ f, readFile files path = .error f ∧ isTolerated f = true := by
  cases hread : files.read path with
  | error e =>
    have hpath : Files.pathError? path = none := by
      rw [Files.pathError?_eq_none_iff]
      intro c hmem
      by_contra hbad
      exact h (.badPath hmem (by simpa using hbad))
    obtain ⟨fault, p, rfl⟩ := files.fault_of_read_error hpath hread
    exact Or.inr ⟨.unreadable (.fault fault p), by rw [readFile, hread], rfl⟩
  | ok bytes =>
    by_cases hbytes : ∀ s, bytes ≠ Text.encodeUtf8 s
    · exact absurd (.notText hread hbytes) h
    · simp only [ne_eq, not_forall, not_not] at hbytes
      obtain ⟨s, rfl⟩ := hbytes
      have htext : files.HoldsText path (String.ofList (Text.unifyLineEnds s.toList)) :=
        ⟨s, hread, rfl⟩
      cases hjson : Json.read (String.ofList (Text.unifyLineEnds s.toList)) with
      | ok v => exact Or.inl ⟨_, v, htext, hjson, readFile_of_json htext hjson⟩
      | error e =>
        obtain ⟨f, hf, htolerated⟩ := readFile_of_json_error htext hjson
        refine Or.inr ⟨f, hf, ?_⟩
        cases hlimit : e.isLimit with
        | true => exact absurd (.overLimit htext hjson hlimit) h
        | false => rw [htolerated, hlimit]; rfl

theorem append_ne_empty {s : String} (hs : s ≠ "") (t : String) : s ++ t ≠ "" :=
  fun h => hs (String.append_eq_empty_iff.mp h).1

theorem message_ne_empty {f : Failure} (h : isTolerated f = true) : f.message ≠ "" := by
  cases f with
  | unreadable e => exact append_ne_empty (by decide) _
  | malformed source e =>
    exact append_ne_empty (append_ne_empty (append_ne_empty (by decide) _) _) _
  | shape e =>
    cases e with
    | noContainer kind => exact append_ne_empty (by decide) kind
    | _ => decide
  | _ => cases h

end Dictionary

namespace Index

variable {files : Files} {path : String}

theorem load_of_error {f : Failure} (h : Dictionary.readFile files path = .error f) :
    (load files path).result =
      if Dictionary.isTolerated f then .ok (.disabled f.message) else .error f := by
  simp only [load, Dictionary.load, h, ofLoaded]
  split <;> rfl

theorem load_of_build {v : Value} {b : Build} (h : Dictionary.readFile files path = .ok v)
    (hb : build v none = .ok b) (hnone : ∀ l, ¬ Meets v none l) :
    (load files path).result = .ok (.ofBuild b) := by
  simp only [load, Dictionary.load, h, ofLoaded, ofValue_of_not_meets hb hnone]

theorem load_of_build_error {v : Value} {e : BuildError}
    (h : Dictionary.readFile files path = .ok v) (he : build v none = .error e) :
    (load files path).result = .ok (.disabled (Failure.shape e).message) := by
  simp only [load, Dictionary.load, h, ofLoaded, ofValue, construct_of_error he]
  rfl

theorem load_of_meets {v : Value} {b : Build} {l : Limit}
    (h : Dictionary.readFile files path = .ok v) (hb : build v none = .ok b)
    (hmeets : Meets v none l) : ∃ m, (load files path).result = .error (.limit m) := by
  obtain ⟨m, -, htree⟩ := tree_construct_of_meets hb hmeets
  refine ⟨m, ?_⟩
  simp only [load, Dictionary.load, h, ofLoaded, ofValue, htree]
  rfl

theorem isDisabled_disabled {error : String} (h : error ≠ "") :
    (Index.disabled error).IsDisabled where
  tree := rfl
  error := h
  silent _ _ h0 h1 := suggest_none h0 h1

theorem load_of_not_escapes (h : ¬ files.Escapes path) :
    ∃ i, (load files path).result = .ok i ∧ i.IsLoadedFrom files path := by
  obtain ⟨text, v, htext, hjson, hread⟩ | ⟨f, hread, htolerated⟩ :=
    Dictionary.readFile_of_not_escapes h
  · by_cases hv : v.IsContainer
    · obtain ⟨b, hb⟩ := build_of_container hv
      have hnone : ∀ l, ¬ Meets v none l := fun l hmeets =>
        h (.overBound ⟨text, htext, hjson, hv⟩ hmeets)
      refine ⟨.ofBuild b, load_of_build hread hb hnone, ?_, fun hnone => ?_⟩
      · rintro w ⟨other, hother, hw, -⟩
        have hwv : w = v :=
          Except.ok.inj ((Dictionary.readFile_of_json hother hw).symm.trans hread)
        exact ⟨b, hwv ▸ hb, rfl⟩
      · exact absurd ⟨v, text, htext, hjson, hv⟩ hnone
    · obtain ⟨e, he⟩ := build_of_not_container hv
      refine ⟨_, load_of_build_error hread he, ?_, fun _ => ?_⟩
      · rintro w ⟨other, hother, hw, hcontainer⟩
        have hwv : w = v :=
          Except.ok.inj ((Dictionary.readFile_of_json hother hw).symm.trans hread)
        exact absurd (hwv ▸ hcontainer) hv
      · exact isDisabled_disabled (Dictionary.message_ne_empty rfl)
  · refine ⟨.disabled f.message, by rw [load_of_error hread, if_pos htolerated], ?_, fun _ => ?_⟩
    · rintro w ⟨other, hother, hw, -⟩
      rw [Dictionary.readFile_of_json hother hw] at hread
      cases hread
    · exact isDisabled_disabled (Dictionary.message_ne_empty htolerated)

theorem load_of_escapes (h : files.Escapes path) : ∃ f, (load files path).result = .error f := by
  obtain ⟨f, hread, htolerated⟩ | ⟨v, l, hv, hread, hmeets⟩ := Dictionary.readFile_of_escapes h
  · exact ⟨f, by simp [load_of_error hread, htolerated]⟩
  · obtain ⟨b, hb⟩ := build_of_container hv
    obtain ⟨m, hm⟩ := load_of_meets hread hb hmeets
    exact ⟨.limit m, hm⟩

/-- Whether a file leaves an index behind depends on how it is broken. -/
theorem load_degrades (files : Files) (path : String) :
    (¬ files.Escapes path → ∃ i, (load files path).result = .ok i ∧ i.IsLoadedFrom files path) ∧
      (files.Escapes path → ∃ f, (load files path).result = .error f) ∧
      (files.IsPlain path → ¬ files.Escapes path) :=
  ⟨load_of_not_escapes, load_of_escapes, Files.IsPlain.not_escapes⟩

def showText : String := "\x7b\"Show  IP\": \"Addresses\"\x7d"

def showFile : Files := { nodes := [(["d.json"], .file (Text.encodeUtf8 showText))] }

theorem load_degrades_show :
    showFile.IsPlain "d.json" ∧ ∃ i b, (load showFile "d.json").result = .ok i ∧
      build (.ofEntries [("Show  IP", .text "Addresses")]) none = .ok b ∧ i = .ofBuild b := by
  have htext : showFile.HoldsText "d.json" showText := ⟨showText, by rfl, by rfl⟩
  have hjson : Json.read showText = .ok (.ofEntries [("Show  IP", .text "Addresses")]) := by
    decide +kernel
  have hplain : showFile.IsPlain "d.json" := by
    refine ⟨List.all_eq_true.mp (by decide), fun bytes hread => ⟨showText, htext, ?_, by decide⟩,
      ?_⟩
    · rintro ⟨run, hrun, -, hlong⟩
      have hlength : run.length ≤ showText.toList.length := hrun.length_le
      have hshort : showText.toList.length < digitLimit := by decide
      omega
    · rintro v ⟨text, hholds, hread, -⟩
      obtain rfl := Files.holdsText_unique htext hholds
      obtain rfl := Except.ok.inj (hjson.symm.trans hread)
      decide
  obtain ⟨hindex, -, hescapes⟩ := load_degrades showFile "d.json"
  obtain ⟨i, hi, hloaded⟩ := hindex (hescapes hplain)
  obtain ⟨b, hb, hib⟩ := hloaded.enabled _ ⟨showText, htext, hjson, .map _⟩
  exact ⟨hplain, i, b, hi, hb, hib⟩

theorem load_fails_at_byte_255 :
    (load { nodes := [(["d.json"], .file [0xFF])] } "d.json").result =
      .error (.undecodable ⟨0, 1, 0xFF, .invalidStart⟩) := by
  rfl

end Index

end SwitchLexicon
