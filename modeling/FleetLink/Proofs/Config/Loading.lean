import FleetLink.Config.Load
import FleetLink.Proofs.VehicleId.Placeholders

/-!
# One file decides

A configuration may be named in the environment, and it may stand at any of several places.
**Loading looks into one file only.**  Which one it is depends on what is named and on which
candidates exist, and not on what is in them (`Selects`); what comes of it depends on that file
alone (`Gives`), be it a configuration or a fault.  So a broken file is never passed over for a
sound one behind it.

The second half is a statement about two runs.  Whatever else is different about the files and the
candidates, the result is the same as long as the same file is selected and holds the same.

## Main Definitions

* `Config.Selects` — the file that is to be read
* `Config.Says`, `Config.Gives` — what a text says, and what there is to tell of a file
* `Config.withFormat` — a configuration of which only the template matters

## Main Statements

* `Config.choose_eq_some_iff`, `Config.choose_eq_none_iff` — the choice of the file
* `Config.gives_ofFile`, `Config.gives_ok_iff` — every file is told of as it is
* `Config.load_of_selects`, `Config.load_of_forall_not_selects` — what is loaded
* `Config.load_one_file` — loading depends on one file
-/

namespace FleetLink

/-- The file that a fault is about, if any was looked into. -/
def LoadFault.path? : LoadFault → Option String
  | noFile _ => none
  | missing path | unreachable path | isDirectory path | badFile path _ => some path

/-- A result that comes to a value is that value. -/
theorem ok_of_toOption {ε α : Type} {result : Except ε α} {a : α}
    (h : result.toOption = some a) : result = .ok a := by
  cases result with
  | error fault => cases h
  | ok value => rw [Option.some.inj h]

namespace Config

/-! ## Configurations of which only the template matters -/

/-- The standard configuration with another template. -/
def withFormat (t : Template) : Config :=
  { standard with driver := { standard.driver with idFormat := t } }

/-- The checks do not look at the template, so one that makes no ids is accepted. -/
theorem ofText_tooWide :
    ofText "[driver]\nid_format = \"\x7b0:65536\x7d\"\n" = .ok (.withFormat .tooWide) :=
  ok_of_toOption (by decide +kernel)

section

variable {files : Files} {environment : Option String} {candidates : List String} {path : String}

/-! ## Which file is read -/

/-- The environment names no file. -/
def Unnamed (environment : Option String) : Prop :=
  ∀ name ∈ environment, Text.IsBlankText name

/-- The file that is to be read. -/
inductive Selects (files : Files) (environment : Option String) (candidates : List String) :
    String → Prop where
  /-- The environment names it, and it need not exist. -/
  | named {path : String} (named : environment = some path) (written : ¬ Text.IsBlankText path) :
      Selects files environment candidates path
  /-- The environment names none, and it is the first candidate that exists. -/
  | first {before after : List String} {path : String} (unnamed : Unnamed environment)
      (split : candidates = before ++ path :: after)
      (passed : ∀ earlier ∈ before, files.exist earlier = false)
      (stands : files.exist path = true) : Selects files environment candidates path

theorem filter_eq_none_iff :
    environment.filter (fun name => ¬ Text.IsBlankText name) = none ↔ Unnamed environment := by
  rw [Option.filter_eq_none_iff]
  simp only [decide_eq_true_eq, Decidable.not_not, Unnamed, Option.mem_def]

/-- **The file that is chosen** is the one to be read. -/
theorem choose_eq_some_iff :
    choose files environment candidates = some path ↔
      Selects files environment candidates path := by
  constructor
  · intro hchoose
    unfold choose at hchoose
    split at hchoose
    next name hname =>
      obtain ⟨hnamed, hwritten⟩ := Option.filter_eq_some_iff.mp hname
      cases hchoose
      exact .named hnamed (by simpa using hwritten)
    next hnone =>
      obtain ⟨hstands, before, after, hsplit, hpassed⟩ := List.find?_eq_some_iff_append.mp hchoose
      exact .first (filter_eq_none_iff.mp hnone) hsplit (by simpa using hpassed) hstands
  · rintro (⟨rfl, hwritten⟩ | ⟨hunnamed, hsplit, hpassed, hstands⟩)
    · have hname : (some path).filter (fun name => ¬ Text.IsBlankText name) = some path :=
        Option.filter_eq_some_iff.mpr ⟨rfl, by simpa using hwritten⟩
      rw [choose, hname]
    · rw [choose, filter_eq_none_iff.mpr hunnamed]
      exact List.find?_eq_some_iff_append.mpr ⟨hstands, _, _, hsplit, by simpa using hpassed⟩

/-- Nothing is chosen if nothing is named and no candidate exists. -/
theorem choose_eq_none_iff :
    choose files environment candidates = none ↔
      Unnamed environment ∧ ∀ candidate ∈ candidates, files.exist candidate = false := by
  unfold choose
  split
  next name hname =>
    have hnamed : ¬ Unnamed environment := by
      rw [← filter_eq_none_iff, hname]
      exact Option.some_ne_none name
    exact ⟨fun h => absurd h (Option.some_ne_none name), fun h => absurd h.1 hnamed⟩
  next hnone =>
    rw [List.find?_eq_none]
    simp only [Bool.not_eq_true, filter_eq_none_iff.mp hnone, true_and]

/-- The same file is selected where the same candidates exist. -/
theorem Selects.of_exist {files' : Files} (h : Selects files environment candidates path)
    (hexist : ∀ other, files'.exist other = files.exist other) :
    Selects files' environment candidates path := by
  cases h with
  | named named written => exact .named named written
  | first unnamed split passed stands =>
      refine .first unnamed split (fun earlier hearlier => ?_) ?_
      · rw [hexist, passed earlier hearlier]
      · rw [hexist, stands]

/-! ## What comes of a file -/

/-- A text says a configuration: it is a document, and the document holds the configuration. -/
def Says (text : String) (config : Config) : Prop :=
  ∃ document, Toml.parse text = .ok document ∧ codec.read .document document.toValue = .ok config

/-- What there is to tell of a file.  It is read, then parsed, then checked, and the first of these
that goes wrong is told of. -/
inductive Gives (files : Files) (path : String) : Except LoadFault LoadedConfig → Prop where
  /-- There is no text to read. -/
  | unread {fault : LoadFault} (illegible : ∀ text, files path ≠ .file text)
      (about : fault.path? = some path)
      (said : fault.message = s!"unable to read config file {path}") :
      Gives files path (.error fault)
  /-- There is a text, and it says no configuration. -/
  | unparsed {text : String} {fault : LoadFault} (legible : files path = .file text)
      (silent : ∀ config, ¬ Says text config) (about : fault.path? = some path)
      (said : fault.message = s!"failed to parse config file {path}") :
      Gives files path (.error fault)
  /-- The text says a configuration that breaks a rule. -/
  | broken {text : String} {config : Config} {rule : ConfigFault} {fault : LoadFault}
      (legible : files path = .file text) (held : Says text config)
      (breaks : config.fault? = some rule) (about : fault.path? = some path)
      (said : fault.message = rule.message) : Gives files path (.error fault)
  /-- The text says a configuration that breaks none. -/
  | loaded {text : String} {config : Config} (legible : files path = .file text)
      (held : Says text config) (sound : config.fault? = none) :
      Gives files path (.ok ⟨config, path⟩)

/-- **Every file is told of as it is.** -/
theorem gives_ofFile (files : Files) (path : String) : Gives files path (ofFile files path) := by
  unfold ofFile
  split
  next hentry => exact .unread (by simp [hentry]) rfl rfl
  next hentry => exact .unread (by simp [hentry]) rfl rfl
  next hentry => exact .unread (by simp [hentry]) rfl rfl
  next text hentry =>
    unfold ofText
    cases hparse : Toml.parse text with
    | error place =>
        refine .unparsed hentry ?_ rfl rfl
        rintro config ⟨document, hdocument, -⟩
        rw [hparse] at hdocument
        cases hdocument
    | ok document =>
        dsimp only
        cases hread : codec.read .document document.toValue with
        | error fault =>
            refine .unparsed hentry ?_ rfl rfl
            rintro config ⟨own, hdocument, hown⟩
            cases hparse.symm.trans hdocument
            rw [hread] at hown
            cases hown
        | ok config =>
            dsimp only
            unfold validate
            cases hfault : config.fault? with
            | some rule => exact .broken hentry ⟨document, hparse, hread⟩ hfault rfl rfl
            | none => exact .loaded hentry ⟨document, hparse, hread⟩ hfault

/-- A file gives a configuration exactly if that is what comes of it. -/
theorem gives_ok_iff {loaded : LoadedConfig} :
    Gives files path (.ok loaded) ↔ ofFile files path = .ok loaded := by
  constructor
  · rintro ⟨⟩
    next text config legible held sound =>
      obtain ⟨document, hparse, hread⟩ := held
      simp only [ofFile, ofText, validate, legible, hparse, hread, sound]
  · intro hfile
    rw [← hfile]
    exact gives_ofFile files path

/-- A file with a text that can be used gives what the text says. -/
theorem ofFile_of_ofText {text : String} {config : Config} (hlegible : files path = .file text)
    (htext : ofText text = .ok config) : ofFile files path = .ok ⟨config, path⟩ := by
  simp only [ofFile, hlegible, htext]

/-- What comes of a file depends on what stands there. -/
theorem ofFile_congr {files' : Files} (h : files' path = files path) :
    ofFile files' path = ofFile files path := by
  rw [ofFile, ofFile, h]

/-! ## What is loaded -/

theorem load_of_selects (h : Selects files environment candidates path) :
    load files environment candidates = ofFile files path := by
  rw [load, choose_eq_some_iff.mpr h]

theorem load_of_forall_not_selects (h : ∀ path, ¬ Selects files environment candidates path) :
    load files environment candidates = .error (.noFile candidates) := by
  have hnone : choose files environment candidates = none :=
    Option.eq_none_iff_forall_not_mem.mpr fun path hpath => h path (choose_eq_some_iff.mp hpath)
  rw [load, hnone]

end

/-- **Loading depends on one file.**  The file that is selected is told of as it is, be it sound
or not, and nothing else about the files and the candidates makes a difference.  In particular
the other files may hold anything.  If no file is selected, the fault lists the candidates in
their order. -/
theorem load_one_file (files : Files) (environment : Option String) (candidates : List String) :
    (∀ path, Selects files environment candidates path →
      load files environment candidates = ofFile files path ∧
      Gives files path (load files environment candidates) ∧
      ∀ (files' : Files) (candidates' : List String),
        Selects files' environment candidates' path → files' path = files path →
          load files' environment candidates' = load files environment candidates) ∧
    (∀ files' : Files, (∀ other, files'.exist other = files.exist other) →
      (∀ path, Selects files environment candidates path → files' path = files path) →
        load files' environment candidates = load files environment candidates) ∧
    ((∀ path, ¬ Selects files environment candidates path) ↔
      Unnamed environment ∧ ∀ candidate ∈ candidates, files.exist candidate = false) ∧
    ((∀ path, ¬ Selects files environment candidates path) →
      load files environment candidates = .error (.noFile candidates) ∧
        (LoadFault.noFile candidates).message =
          "no configuration files found. inspected: " ++ ", ".intercalate candidates) := by
  refine ⟨fun path hselects => ⟨load_of_selects hselects, ?_, ?_⟩,
    fun files' hexist hsame => ?_, ?_,
    fun hnone => ⟨load_of_forall_not_selects hnone, rfl⟩⟩
  · rw [load_of_selects hselects]
    exact gives_ofFile files path
  · intro files' candidates' hselects' hsame
    rw [load_of_selects hselects, load_of_selects hselects', ofFile_congr hsame]
  · by_cases hselected : ∃ path, Selects files environment candidates path
    · obtain ⟨path, hselects⟩ := hselected
      rw [load_of_selects hselects, load_of_selects (hselects.of_exist hexist),
        ofFile_congr (hsame path hselects)]
    · have hnone := not_exists.mp hselected
      have hnone' : ∀ path, ¬ Selects files' environment candidates path :=
        fun path hselects => hnone path (hselects.of_exist fun other => (hexist other).symm)
      rw [load_of_forall_not_selects hnone, load_of_forall_not_selects hnone']
  · simp only [← choose_eq_some_iff, ← choose_eq_none_iff]
    exact Option.eq_none_iff_forall_ne_some.symm

/-- A file that breaks a rule, in front of a file that breaks none. -/
private def brokenFirst : Files := fun path =>
  if path = "b.toml" then .file "[driver]\npreferred_media = []\n"
  else if path = "c.toml" then .file "" else .absent

/-- A broken file is not passed over for the sound one behind it, and it makes no difference whether
that one is there. -/
theorem broken_not_passed_over :
    Selects brokenFirst (some " ") ["a.toml", "b.toml", "c.toml"] "b.toml" ∧
      (load brokenFirst (some " ") ["a.toml", "b.toml", "c.toml"]).toOption = none ∧
      (ofFile brokenFirst "c.toml").toOption = some ⟨.standard, "c.toml"⟩ ∧
      load brokenFirst (some " ") ["a.toml", "b.toml"] =
        load brokenFirst (some " ") ["a.toml", "b.toml", "c.toml"] := by
  have hselects : ∀ after,
      Selects brokenFirst (some " ") ("a.toml" :: "b.toml" :: after) "b.toml" := by
    intro after
    have hsplit : "a.toml" :: "b.toml" :: after = ["a.toml"] ++ "b.toml" :: after := rfl
    refine .first ?_ hsplit (by decide) (by decide)
    rintro name ⟨⟩
    decide
  obtain ⟨-, -, hsame⟩ :=
    (load_one_file brokenFirst (some " ") ["a.toml", "b.toml", "c.toml"]).1 _ (hselects _)
  exact ⟨hselects _, by decide +kernel, by decide +kernel, hsame _ _ (hselects _) rfl⟩

end Config

end FleetLink
