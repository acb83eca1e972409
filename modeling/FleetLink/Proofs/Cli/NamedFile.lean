import FleetLink.Cli
import FleetLink.Proofs.Config.Loading

/-!
# A file that is named on the command line

Whoever names a configuration file wants the run to be carried out under what it says, and not to
be carried out at all if it says nothing that can be used.  Such a run **honours** the file
(`Honours`).

The file that is named is the first candidate and the standard file is the second.  If the first one
exists, a run honours it, sound or not.  If it does not exist, the choice moves on to the standard
file, as if none had been named.  **So a file that is missing is honoured only if the standard file
cannot be used either** (`honours_iff`), and a run with a misspelt path may go well under other
settings (`not_alwaysHonours`).  A path in the environment is treated with more care: it is selected
whether it exists or not (`Config.Selects.named`).

## Main Definitions

* `Cli.runUnder` — a run under the configuration in one file
* `Cli.Honours` — what is owed to whoever names a file

## Main Statements

* `Cli.run_of_selects`, `Cli.run_of_forall_not_selects` — a run and the file that is selected
* `Cli.honours_iff` — when a file that is named is honoured
* `Cli.named_file_governs` — every run with a file that is named
* `Cli.not_alwaysHonours` — a missing file that is passed over
-/

namespace FleetLink.Cli

/-- A run under the configuration in a file.  It ends with what is wrong with the file, if something
is. -/
def runUnder (files : Files) (time : Nat → String) (path : String) (command : Command) : Output :=
  match Config.ofFile files path with
  | .ok loaded => perform files time loaded.config (some loaded.source) command
  | .error fault => failed fault.message

/-- **A file that is named is honoured** by a run. -/
structure Honours (files : Files) (environment : Option String) (time : Nat → String)
    (args : List String) (path : String) (command : Command) : Prop where
  /-- A run that goes well is carried out under what was read, parsed and checked from the file. -/
  success : (run files environment time args).code = 0 → ∃ config,
    Config.Gives files path (.ok ⟨config, path⟩) ∧
      configure files environment (some path) = .ok (config, some path, []) ∧
      run files environment time args = perform files time config (some path) command
  /-- If nothing can be had from the file, there is no configuration, and the run fails. -/
  failure : (∀ config, ¬ Config.Gives files path (.ok ⟨config, path⟩)) → ∃ fault,
    configure files environment (some path) = .error fault ∧
      run files environment time args = failed fault.message

section

variable {files : Files} {environment : Option String} {time : Nat → String} {args : List String}
  {path chosen : String} {command : Command}

/-! ## The file that is selected -/

theorem configure_of_selects
    (h : Config.Selects files environment (candidates (some path)) chosen) :
    configure files environment (some path) =
      (Config.ofFile files chosen).map fun loaded => (loaded.config, some loaded.source, []) := by
  rw [configure, Config.load_of_selects h]
  cases Config.ofFile files chosen <;> rfl

theorem configure_of_forall_not_selects
    (h : ∀ chosen, ¬ Config.Selects files environment (candidates (some path)) chosen) :
    configure files environment (some path) = .error (.noFile (candidates (some path))) := by
  rw [configure, Config.load_of_forall_not_selects h]
  rfl

/-- A run under a configuration. -/
theorem run_of_configure_ok {config : Config} {source : Option String}
    (hrequest : request none args = some (.run (some path) command))
    (hconfigure : configure files environment (some path) = .ok (config, source, [])) :
    run files environment time args = perform files time config source command := by
  rw [run, hrequest]
  simp only [hconfigure, List.nil_append]

/-- A run without a configuration. -/
theorem run_of_configure_error {fault : LoadFault}
    (hrequest : request none args = some (.run (some path) command))
    (hconfigure : configure files environment (some path) = .error fault) :
    run files environment time args = failed fault.message := by
  rw [run, hrequest]
  simp only [hconfigure]

/-- **A run is carried out under the file that is selected.** -/
theorem run_of_selects (hrequest : request none args = some (.run (some path) command))
    (hselects : Config.Selects files environment (candidates (some path)) chosen) :
    run files environment time args = runUnder files time chosen command := by
  have hconfigure := configure_of_selects hselects
  unfold runUnder
  cases hfile : Config.ofFile files chosen with
  | error fault => exact run_of_configure_error hrequest (by rw [hconfigure, hfile]; rfl)
  | ok loaded => exact run_of_configure_ok hrequest (by rw [hconfigure, hfile]; rfl)

theorem run_of_forall_not_selects (hrequest : request none args = some (.run (some path) command))
    (hnone : ∀ chosen, ¬ Config.Selects files environment (candidates (some path)) chosen) :
    run files environment time args = failed (LoadFault.noFile [path, standardFile]).message :=
  run_of_configure_error hrequest (configure_of_forall_not_selects hnone)

/-! ## Which file that is -/

/-- A file that is named is selected if it exists. -/
theorem selects_named (hunnamed : Config.Unnamed environment) (hexist : files.exist path = true) :
    Config.Selects files environment (candidates (some path)) path := by
  have hsplit : candidates (some path) = [] ++ path :: [standardFile] := rfl
  exact .first hunnamed hsplit (List.forall_mem_nil _) hexist

/-- The standard file is selected if the one that is named does not exist. -/
theorem selects_standard (hunnamed : Config.Unnamed environment)
    (hmissing : files.exist path = false) (hexist : files.exist standardFile = true) :
    Config.Selects files environment (candidates (some path)) standardFile := by
  have hsplit : candidates (some path) = [path] ++ standardFile :: [] := rfl
  exact .first hunnamed hsplit (by simpa using hmissing) hexist

/-- No file is selected if neither exists. -/
theorem not_selects (hunnamed : Config.Unnamed environment) (hmissing : files.exist path = false)
    (hstandard : files.exist standardFile = false) :
    ∀ chosen, ¬ Config.Selects files environment (candidates (some path)) chosen := by
  intro chosen hselects
  have hnone := Config.choose_eq_none_iff.mpr ⟨hunnamed,
    (by simp [candidates, hmissing, hstandard] :
      ∀ candidate ∈ candidates (some path), files.exist candidate = false)⟩
  rw [Config.choose_eq_some_iff.mpr hselects] at hnone
  cases hnone

/-- Nothing can be had from a file that does not exist. -/
theorem ofFile_ne_ok_of_missing (hmissing : files.exist path = false) (loaded : LoadedConfig) :
    Config.ofFile files path ≠ .ok loaded := by
  intro hfile
  cases Config.gives_ok_iff.mpr hfile with
  | loaded legible => simp [Files.exist, legible] at hmissing

/-! ## When it is honoured -/

/-- A run honours the file if that is the one it is carried out under. -/
theorem honours_of_selects (hrequest : request none args = some (.run (some path) command))
    (hselects : Config.Selects files environment (candidates (some path)) path) :
    Honours files environment time args path command := by
  have hconfigure := configure_of_selects hselects
  cases hfile : Config.ofFile files path with
  | error fault =>
      rw [hfile] at hconfigure
      have hrun : run files environment time args = failed fault.message :=
        run_of_configure_error hrequest hconfigure
      refine ⟨fun hcode => ?_, fun _ => ⟨fault, hconfigure, hrun⟩⟩
      rw [hrun] at hcode
      cases hcode
  | ok loaded =>
      rw [hfile] at hconfigure
      have hgives := Config.gives_ok_iff.mpr hfile
      obtain ⟨config, rfl⟩ : ∃ config, loaded = ⟨config, path⟩ := by
        cases hgives
        exact ⟨_, rfl⟩
      exact ⟨fun _ => ⟨config, hgives, hconfigure, run_of_configure_ok hrequest hconfigure⟩,
        fun hnothing => absurd hgives (hnothing config)⟩

/-- A run honours the file if there is no configuration and nothing can be had from the file. -/
theorem honours_of_configure_error {fault : LoadFault}
    (hrequest : request none args = some (.run (some path) command))
    (hconfigure : configure files environment (some path) = .error fault) :
    Honours files environment time args path command := by
  have hrun : run files environment time args = failed fault.message :=
    run_of_configure_error hrequest hconfigure
  refine ⟨fun hcode => ?_, fun _ => ⟨fault, hconfigure, hrun⟩⟩
  rw [hrun] at hcode
  cases hcode

/-- **When a file that is named is honoured.**  It exists, or nothing can be had from the standard
file. -/
theorem honours_iff (hrequest : request none args = some (.run (some path) command))
    (hunnamed : Config.Unnamed environment) :
    Honours files environment time args path command ↔
      files.exist path = true ∨ ∀ loaded, Config.ofFile files standardFile ≠ .ok loaded := by
  cases hpath : files.exist path with
  | true =>
      exact ⟨fun _ => .inl rfl,
        fun _ => honours_of_selects hrequest (selects_named hunnamed hpath)⟩
  | false =>
      simp only [Bool.false_eq_true, false_or]
      cases hstandard : files.exist standardFile with
      | false =>
          have hnone := not_selects hunnamed hpath hstandard
          exact ⟨fun _ => ofFile_ne_ok_of_missing hstandard,
            fun _ => honours_of_configure_error hrequest (configure_of_forall_not_selects hnone)⟩
      | true =>
          have hconfigure := configure_of_selects (selects_standard hunnamed hpath hstandard)
          constructor
          · intro hhonours loaded hloaded
            obtain ⟨fault, hfault, -⟩ := hhonours.failure fun config hgives =>
              ofFile_ne_ok_of_missing hpath _ (Config.gives_ok_iff.mp hgives)
            rw [hconfigure, hloaded] at hfault
            cases hfault
          · intro hunusable
            cases hfile : Config.ofFile files standardFile with
            | ok loaded => exact absurd hfile (hunusable loaded)
            | error fault =>
                rw [hfile] at hconfigure
                exact honours_of_configure_error hrequest hconfigure

/-- **Every run with a file that is named,** when the environment names none.  It is carried out
under that file if it exists, else under the standard file if that one does, and else not at all; so
the file is honoured unless it does not exist and the standard file can be used. -/
theorem named_file_governs (hrequest : request none args = some (.run (some path) command))
    (hunnamed : Config.Unnamed environment) :
    (files.exist path = true →
      run files environment time args = runUnder files time path command) ∧
    (files.exist path = false → files.exist standardFile = true →
      run files environment time args = runUnder files time standardFile command) ∧
    (files.exist path = false → files.exist standardFile = false →
      run files environment time args = failed (LoadFault.noFile [path, standardFile]).message) ∧
    (Honours files environment time args path command ↔
      files.exist path = true ∨ ∀ loaded, Config.ofFile files standardFile ≠ .ok loaded) :=
  ⟨fun hexist => run_of_selects hrequest (selects_named hunnamed hexist),
    fun hmissing hexist => run_of_selects hrequest (selects_standard hunnamed hmissing hexist),
    fun hmissing hstandard =>
      run_of_forall_not_selects hrequest (not_selects hunnamed hmissing hstandard),
    honours_iff hrequest hunnamed⟩

end

/-- The standard file, and another file or none. -/
private def besideStandard (other : FileEntry) : Files := fun path =>
  if path = standardFile then .file "[driver]\ncommand_timeout = 5\n"
  else if path = "c.toml" then other else .absent

/-- The other file is named. -/
private def namingOther : List String := ["--config", "c.toml", "check-config"]

private theorem request_namingOther :
    request none namingOther = some (.run (some "c.toml") .checkConfig) := by decide +kernel

/-- An empty file that is named is honoured, whatever the standard file says. -/
theorem empty_file_honoured :
    request none namingOther = some (.run (some "c.toml") .checkConfig) ∧
      Config.Unnamed (some " ") ∧
      Honours (besideStandard (.file "")) (some " ") (fun _ => "") namingOther "c.toml"
        .checkConfig ∧
      Config.ofFile (besideStandard (.file "")) "c.toml" = .ok ⟨.standard, "c.toml"⟩ ∧
      (run (besideStandard (.file "")) (some " ") (fun _ => "") namingOther).code = 0 := by
  have hunnamed : Config.Unnamed (some " ") := by
    rintro name ⟨⟩
    decide
  have hhonours : Honours (besideStandard (.file "")) (some " ") (fun _ => "") namingOther "c.toml"
      .checkConfig :=
    (named_file_governs request_namingOther hunnamed).2.2.2.mpr (.inl (by decide))
  exact ⟨request_namingOther, hunnamed, hhonours, ok_of_toOption (by decide +kernel),
    by decide +kernel⟩

/-- Every run honours the file that is named, when the environment names none. -/
def AlwaysHonours : Prop :=
  ∀ (files : Files) (environment : Option String) (time : Nat → String) (args : List String)
    (path : String) (command : Command), request none args = some (.run (some path) command) →
    Config.Unnamed environment → Honours files environment time args path command

/-- **A missing file is passed over.**  The run goes well, under what the standard file says. -/
theorem not_alwaysHonours : ¬ AlwaysHonours := by
  intro halways
  have hhonours := halways (besideStandard .absent) none (fun _ => "") namingOther "c.toml"
    .checkConfig request_namingOther nofun
  have hcode : (run (besideStandard .absent) none (fun _ => "") namingOther).code = 0 := by
    decide +kernel
  obtain ⟨config, hgives, -⟩ := hhonours.success hcode
  exact ofFile_ne_ok_of_missing rfl _ (Config.gives_ok_iff.mp hgives)

end FleetLink.Cli
