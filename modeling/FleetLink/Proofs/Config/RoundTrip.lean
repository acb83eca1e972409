import FleetLink.Proofs.Codec.Texts
import FleetLink.Proofs.Config.Loading
import FleetLink.Proofs.VehicleId.Grammar

/-!
# Configurations are read as they are written

The configuration in effect is reported to operators, who may take it from there.  Each of its
sections is a record with a default for every field, so there are many ways to say it, and only one
of them is written.  **Whatever was read, what is written of it is read as the same configuration,**
from data and from their text in either layout.

The template of ids is the one setting that is not what it is written as.  Its text is written, and
the reader makes its segments from the text again.  They are the same because every template that
was read is what its text says (`Template.codec_faithful`); templates at large are not.

**Nothing else keeps a configuration from being read.**  The round trip is about configurations that
were read, and these are all those whose template is what its text says, whatever else they hold
(`Config.exists_read_iff`).

A configuration that was loaded also passed the checks (`fault?_eq_none_iff`).  With what its
template owes to the reader, it is one that a fleet can be run with (`IsUsable`).

## Main Definitions

* `Config.IsUsable` — what holds of every configuration that a fleet is run with

## Main Statements

* `Template.codec_faithful`, `Config.codec_faithful` — what was read is read back
* `Config.rereads_iff`, `Config.exists_read_iff` — which configurations are read at all
* `Config.codec_isExact` — what is written has a text that says it
* `Config.fault?_eq_none_iff` — what the checks let through
* `Config.read_back` — the round trip, and what every loaded configuration is good for
-/

namespace FleetLink

open Json (Value)

/-! ## Settings -/

namespace Template

variable {t : Template}

/-- A template is read back exactly if it is what its text says, for its text is what is written. -/
theorem rereads_iff : codec.Rereads t ↔ parse t.text = .ok t := by
  constructor
  · intro h
    have hread := h .direct
    simp only [codec, Codec.string, Codec.text] at hread
    split at hread
    · cases hread
    next hparse => rw [hparse, Except.ok.inj hread]
  · intro hparse intake
    simp only [codec, Codec.string, Codec.text, hparse]

theorem parse_text_standard : parse standard.text = .ok standard := by decide +kernel

/-- A template that was read is what its text says. -/
theorem codec_faithful : codec.Faithful := by
  intro intake v t hread
  simp only [codec] at hread
  split at hread
  · cases hread
  next text _ =>
    split at hread
    · cases hread
    next hparse =>
      obtain rfl := Except.ok.inj hread
      refine rereads_iff.mpr ?_
      rw [text_of_parse hparse, hparse]

end Template

namespace DriverSettings

variable {s : DriverSettings}

/-- Settings of the fleet are read back exactly if their template is. -/
theorem rereads_iff : codec.Rereads s ↔ Template.parse s.idFormat.text = .ok s.idFormat := by
  refine (Codec.rereads_record_iff (by decide) (fun _ => rfl) rfl).trans ?_
  rw [← Template.rereads_iff]
  refine ⟨fun h => h.1, fun htemplate => ?_⟩
  exact ⟨htemplate, Codec.boolean_lawful.rereads _, Codec.word64_lawful.rereads _,
    .list fun medium _ => Codec.string_lawful.rereads medium, trivial⟩

theorem codec_faithful : codec.Faithful :=
  .record (by decide) (fun _ => rfl)
    ⟨.defaulted Template.codec_faithful (Template.rereads_iff.mpr Template.parse_text_standard),
      .defaulted Codec.boolean_lawful.faithful (Codec.boolean_lawful.rereads _),
      .defaulted Codec.word64_lawful.faithful (Codec.word64_lawful.rereads _),
      .defaulted Codec.string_lawful.faithful.list
        (.list fun medium _ => Codec.string_lawful.rereads medium), trivial⟩

end DriverSettings

theorem ReassemblySettings.codec_lawful : ReassemblySettings.codec.Lawful :=
  .record (by decide) (fun _ => rfl) (fun _ => rfl) fun _ =>
    ⟨Codec.word64_lawful.rereads _, Codec.count64_lawful.rereads _, Codec.count64_lawful.rereads _,
      trivial⟩

theorem LogFormat.codec_lawful : LogFormat.codec.Lawful := by
  intro intake format
  cases format <;> rfl

theorem LoggingSettings.codec_lawful : LoggingSettings.codec.Lawful :=
  .record (by decide) (fun _ => rfl) (fun _ => rfl) fun _ =>
    ⟨(Codec.text_lawful _).rereads _, LogFormat.codec_lawful.rereads _,
      .option (fun _ => nofun) fun name _ => Codec.string_lawful.rereads name, trivial⟩

theorem MetricsSettings.codec_lawful : MetricsSettings.codec.Lawful :=
  .record (by decide) (fun _ => rfl) (fun _ => rfl) fun _ =>
    ⟨Codec.boolean_lawful.rereads _, trivial⟩

/-! ## Configurations -/

namespace Config

variable {c : Config}

/-- **What was read as a configuration is read back.**  A section that is left out is what it would
be with nothing in it. -/
theorem codec_faithful : codec.Faithful :=
  .record (by decide) (fun _ => rfl)
    ⟨.defaulted DriverSettings.codec_faithful
        (DriverSettings.rereads_iff.mpr Template.parse_text_standard),
      .defaulted ReassemblySettings.codec_lawful.faithful
        (ReassemblySettings.codec_lawful.rereads _),
      .defaulted LoggingSettings.codec_lawful.faithful (LoggingSettings.codec_lawful.rereads _),
      .defaulted MetricsSettings.codec_lawful.faithful (MetricsSettings.codec_lawful.rereads _),
      trivial⟩

/-- **A configuration is read back exactly if its template is what its text says.** -/
theorem rereads_iff :
    codec.Rereads c ↔ Template.parse c.driver.idFormat.text = .ok c.driver.idFormat := by
  refine (Codec.rereads_record_iff (by decide) (fun _ => rfl) rfl).trans ?_
  rw [← DriverSettings.rereads_iff]
  refine ⟨fun h => h.1, fun hdriver => ?_⟩
  exact ⟨hdriver, ReassemblySettings.codec_lawful.rereads _,
    LoggingSettings.codec_lawful.rereads _, MetricsSettings.codec_lawful.rereads _, trivial⟩

/-- **Which configurations are read at all:** every one whose template is what its text says, with
any other settings. -/
theorem exists_read_iff :
    (∃ intake v, codec.read intake v = .ok c) ↔
      Template.parse c.driver.idFormat.text = .ok c.driver.idFormat := by
  rw [← rereads_iff]
  constructor
  · rintro ⟨intake, v, hread⟩
    exact codec_faithful intake v c hread
  · exact fun h => ⟨.direct, codec.write c, h .direct⟩

/-- What is written of a configuration has a text that says it, and three brackets are open in it at
most. -/
theorem codec_isExact (depth : Nat) : codec.IsExact (depth + 3) :=
  .record ⟨.record ⟨fun t => .string t.text, Codec.boolean_isExact, Codec.word64_isExact,
      (Codec.text_isExact _).list, trivial⟩,
    .record ⟨Codec.word64_isExact, Codec.count64_isExact, Codec.count64_isExact, trivial⟩,
    .record ⟨Codec.text_isExact _, fun f => .string f.name, (Codec.text_isExact _).option, trivial⟩,
    .record ⟨Codec.boolean_isExact, trivial⟩, trivial⟩

/-! ### What the checks guarantee -/

/-- A configuration that a fleet can be run with. -/
structure IsUsable (c : Config) : Prop where
  /-- There is a medium to send on, -/
  media : c.driver.preferredMedia ≠ []
  /-- and each of them has a name. -/
  named : ∀ medium ∈ c.driver.preferredMedia, ¬ Text.IsBlankText medium
  commandTimeout : 0 < c.driver.commandTimeout
  chunkTimeout : 0 < c.reassembly.chunkTimeout
  buffers : 0 < c.reassembly.maxPendingBuffers
  bodyBytes : 0 < c.reassembly.maxBodyBytes
  /-- Ids are made by a template that is what its text says, -/
  parsed : Template.parse c.driver.idFormat.text = .ok c.driver.idFormat
  /-- and depend on the index. -/
  placeholder : ∃ zeroPad width, .index zeroPad width ∈ c.driver.idFormat.segments

theorem validate_eq_ok_iff : c.validate = .ok () ↔ c.fault? = none := by
  unfold validate
  cases c.fault? <;> simp

/-- **What the checks let through.** -/
theorem fault?_eq_none_iff :
    c.fault? = none ↔
      c.driver.preferredMedia ≠ [] ∧
      (∀ medium ∈ c.driver.preferredMedia, ¬ Text.IsBlankText medium) ∧
      c.driver.commandTimeout ≠ 0 ∧ c.reassembly.chunkTimeout ≠ 0 ∧
      c.reassembly.maxPendingBuffers ≠ 0 ∧ c.reassembly.maxBodyBytes ≠ 0 := by
  have hite : ∀ {p : Prop} [Decidable p] {fault : ConfigFault} {later : Option ConfigFault},
      (if p then some fault else later) = none ↔ ¬ p ∧ later = none := by
    intro p _ fault later
    split <;> simp [*]
  simp only [fault?, hite, not_exists, not_and, and_true, ne_eq]

/-- A configuration that was read and passes the checks can be used. -/
theorem usable_of_validate {intake : Intake} {v : Value} (hread : codec.read intake v = .ok c)
    (hvalid : c.validate = .ok ()) : c.IsUsable := by
  obtain ⟨hmedia, hnamed, hcommand, hchunk, hbuffers, hbody⟩ :=
    fault?_eq_none_iff.mp (validate_eq_ok_iff.mp hvalid)
  have hparse := exists_read_iff.mp ⟨intake, v, hread⟩
  exact {
    media := hmedia
    named := hnamed
    commandTimeout := UInt64.pos_iff_ne_zero.mpr hcommand
    chunkTimeout := UInt64.pos_iff_ne_zero.mpr hchunk
    buffers := UInt64.pos_iff_ne_zero.mpr hbuffers
    bodyBytes := UInt64.pos_iff_ne_zero.mpr hbody
    parsed := hparse
    placeholder := Template.hasIndex_iff.mp (Template.hasIndex_of_parse hparse) }

theorem usable_of_ofText {text : String} (h : ofText text = .ok c) : c.IsUsable := by
  unfold ofText at h
  split at h
  · cases h
  · split at h
    · cases h
    next hread =>
      split at h
      · cases h
      next hvalid =>
        cases h
        exact usable_of_validate hread hvalid

theorem usable_of_ofFile {files : Files} {path : String} {loaded : LoadedConfig}
    (h : ofFile files path = .ok loaded) : loaded.config.IsUsable := by
  unfold ofFile at h
  split at h
  · cases h
  · cases h
  · cases h
  · split at h
    · cases h
    next htext =>
      cases h
      exact usable_of_ofText htext

/-- **A configuration that was read is read back the same,** from what is written of it and from
the texts of that, and what is loaded can be used. -/
theorem read_back :
    (∀ intake v c, codec.read intake v = .ok c → ∀ again, ∃ c',
      codec.read again (codec.write c) = .ok c' ∧ c' = c ∧
        (c'.validate = .ok () ↔ c.validate = .ok ())) ∧
    (∀ intake v c, codec.read intake v = .ok c →
      ∀ text ∈ [(codec.write c).compact, (codec.write c).pretty], ∃ data,
        Json.parse text = some data ∧ ∀ again, codec.read again data = .ok c) ∧
    (∀ text c, ofText text = .ok c → c.IsUsable) ∧
    ∀ files named candidates loaded, load files named candidates = .ok loaded →
      loaded.config.IsUsable := by
  refine ⟨fun intake v c hread again => ?_, fun intake v c hread => ?_,
    fun _ _ => usable_of_ofText, ?_⟩
  · exact ⟨c, codec_faithful intake v c hread again, rfl, Iff.rfl⟩
  · exact codec_faithful.read_printed (codec_isExact 124) hread
  · intro files named candidates loaded hload
    unfold load at hload
    split at hload
    · cases hload
    · exact usable_of_ofFile hload

/-- A configuration that differs from the standard one in every section. -/
def tailored : Config where
  driver := ⟨⟨"U-\x7b0:03d\x7d", [.literal ['U', '-'], .index true 3]⟩, true, 9, ["sat", "uhf"]⟩
  reassembly := ⟨9, 256, 1048576⟩
  logging := ⟨"target/logs", .structuredJson, some "fleet"⟩
  metrics := ⟨false⟩

/-- It as data: the sections in another order, one of them in a row, and a member that says
nothing. -/
private def tailoredData : Value :=
  .object [
    ("metrics", .object [("enabled", .bool false)]),
    ("reassembly", .array [.ofNat 9]),
    ("owner", .string "ground"),
    ("logging", .object [("file_prefix", .string "fleet")]),
    ("driver", .object [
      ("preferred_media", .array [.string "sat", .string "uhf"]),
      ("id_format", .string "U-\x7b0:03d\x7d"),
      ("command_timeout", .ofNat 9)])]

/-- It as the text of a file. -/
private def tailoredText : String :=
  "metrics.enabled = false\nreassembly.chunk_timeout = 9\nlogging.file_prefix = \"fleet\"\n" ++
  "[driver]\nid_format = \"U-\x7b0:03d\x7d\"\npreferred_media = [\"sat\", \"uhf\"]\n" ++
  "command_timeout = 9\n"

/-- Only the second of the candidates stands. -/
private def tailoredFiles : Files := fun path =>
  if path = "b.toml" then .file tailoredText else .absent

/-- The configuration is read from its data and from its text, and so it is read back and can be
used. -/
theorem read_back_tailored :
    codec.read .direct tailoredData = .ok tailored ∧
      (∀ again, codec.read again (codec.write tailored) = .ok tailored) ∧
      (∃ data, Json.parse (codec.write tailored).compact = some data ∧
        ∀ again, codec.read again data = .ok tailored) ∧
      ofText tailoredText = .ok tailored ∧ tailored.IsUsable ∧
      ∃ loaded, load tailoredFiles none ["a.toml", "b.toml"] = .ok loaded ∧
        loaded = ⟨tailored, "b.toml"⟩ ∧ loaded.config.IsUsable := by
  have hdata : codec.read .direct tailoredData = .ok tailored :=
    ok_of_toOption (by decide +kernel)
  have htext : ofText tailoredText = .ok tailored := ok_of_toOption (by decide +kernel)
  have hload : load tailoredFiles none ["a.toml", "b.toml"] = .ok ⟨tailored, "b.toml"⟩ := by
    have hsplit : ["a.toml", "b.toml"] = ["a.toml"] ++ ["b.toml"] := rfl
    have hunnamed : Unnamed none := fun _ h => nomatch h
    rw [load_of_selects (.first hunnamed hsplit (by decide) (by decide))]
    exact ofFile_of_ofText (if_pos rfl) htext
  obtain ⟨hagain, hprinted, husable, hloaded⟩ := read_back
  refine ⟨hdata, fun again => ?_, hprinted _ _ _ hdata _ (by simp), htext, husable _ _ htext,
    _, hload, rfl, hloaded _ _ _ _ hload⟩
  obtain ⟨_, hread, rfl, -⟩ := hagain _ _ _ hdata again
  exact hread

end Config

end FleetLink
