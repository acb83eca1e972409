import FleetLink.Proofs.Config.Loading
import FleetLink.Proofs.Config.RoundTrip
import FleetLink.Proofs.Session.Counts
import FleetLink.Proofs.VehicleId.Placeholders

/-!
# Which templates a fleet survives

The id of an index is made when the index is first asked for.  It cannot be made if a placeholder
asks for more columns than can be formatted, and the program does not survive the attempt.  A turn
is survived if every id that it asks for is known or can be made (`Survives`).

**The template alone decides.**  An id that is known was made before, and by the same template.  So
a fleet with a template that cannot be formatted stops at the first turn that asks for an id,
whatever the index and whatever happened before, and any other fleet never does.

The reader of templates bounds a width only by sixty-four bits, and the checks on a configuration do
not look at the template.  **So a configuration may be accepted that no fleet can be run with**
(`not_alwaysSurvives`).

## Main Definitions

* `Template.IsNarrow` — no placeholder asks for too many columns
* `Session.Survives` — every id that is asked for can be had

## Main Statements

* `Fleet.canIdentify_iff` — which ids can be had
* `Session.survives_of_fits`, `Session.not_survives_of_wide` — what the template decides
* `survives_iff_narrow` — which templates can always be used, by themselves and in a fleet
* `not_alwaysSurvives` — an accepted template that cannot be used at all
-/

namespace FleetLink

/-! ## Narrow templates -/

namespace Template

/-- No placeholder of a text asks for more columns than can be formatted. -/
def IsNarrow (text : String) : Prop :=
  ∀ field, Placed field text.toList → columns field ≤ greatestWidth

/-- A template makes the ids of all indices if it is narrow, and else of none. -/
theorem isSome_format?_iff_narrow {text : String} {t : Template} (h : parse text = .ok t)
    (index : UInt32) : (t.format? index).isSome = true ↔ IsNarrow text :=
  (isSome_format?_iff index).trans (fits_iff h)

end Template

/-- An id is known, or else the template makes it. -/
theorem Fleet.canIdentify_iff {f : Fleet} {index : UInt32} :
    f.canIdentify index = true ↔
      index ∈ f.ids ∨ (f.settings.idFormat.format? index).isSome = true := by
  rw [canIdentify, Bool.or_eq_true, Std.ExtTreeMap.contains_iff_mem,
    Template.isSome_format?_iff index]

/-! ## Turns that are survived -/

namespace Session

/-- Every id that some turns ask for can be had when its turn comes. -/
def Survives (s : Session) : List Turn → Prop
  | [] => True
  | t :: later =>
    (∀ index, t.index? = some index → s.fleet.canIdentify index = true) ∧ (s.turn t).Survives later

section

variable {config : Config} {s : Session} {happenings : List Turn}

/-- With a template that can be formatted, whatever happens is survived. -/
theorem survives_of_fits (h : s.fleet.Identified config)
    (hfits : config.driver.idFormat.fits = true) (happenings : List Turn) :
    s.Survives happenings := by
  induction happenings generalizing s with
  | nil => trivial
  | cons t later ih =>
      refine ⟨fun index _ => Fleet.canIdentify_iff.mpr (.inr ?_), ih (identified_turn h t)⟩
      rw [Template.isSome_format?_iff, h.settings]
      exact hfits

/-- What asks for no id is survived in any case. -/
theorem survives_of_unasked (h : ∀ t ∈ happenings, t.index? = none) : s.Survives happenings := by
  induction happenings generalizing s with
  | nil => trivial
  | cons t later ih =>
      obtain ⟨hnow, hlater⟩ := List.forall_mem_cons.mp h
      exact ⟨fun index hindex => absurd (hindex.symm.trans hnow) nofun, ih hlater⟩

/-- With any other template, a fleet that knows no ids does not survive that one is asked for. -/
theorem not_survives_of_wide (h : s.fleet.Identified config) (hnone : s.fleet.ids = ∅)
    (hwide : config.driver.idFormat.fits = false)
    (hasked : happenings.filterMap Turn.index? ≠ []) : ¬ s.Survives happenings := by
  induction happenings generalizing s with
  | nil => exact absurd rfl hasked
  | cons t later ih =>
      rintro ⟨hnow, hlater⟩
      cases hindex : t.index? with
      | some index =>
          rcases Fleet.canIdentify_iff.mp (hnow index hindex) with hknown | hmade
          · rw [hnone] at hknown
            exact Std.ExtTreeMap.not_mem_empty hknown
          · rw [Template.isSome_format?_iff, h.settings, hwide] at hmade
            exact Bool.false_ne_true hmade
      | none =>
          -- The turn asks for no id, so none is known behind it either.
          have hstill : (s.turn t).fleet.ids = ∅ := by
            refine Std.ExtTreeMap.eq_empty_iff_forall_not_mem.mpr fun index hmem => ?_
            rw [mem_ids_turn, hindex, hnone] at hmem
            rcases hmem with hnow | hbefore
            · cases hnow
            · exact Std.ExtTreeMap.not_mem_empty hbefore
          rw [List.filterMap_cons_none hindex] at hasked
          exact ih (identified_turn h t) hstill hasked hlater

end

end Session

/-- **Which templates can always be used.**  A template that was read makes the id of an index if it
is narrow, and not otherwise.  A fleet with a configuration that was read survives whatever happens
if the template is narrow; otherwise it survives until an id is asked for. -/
theorem survives_iff_narrow (text toml : String) :
    (∀ t, Template.parse text = .ok t → ∀ index,
      (t.format? index).isSome = true ↔ Template.IsNarrow text) ∧
    ∀ config, Config.ofText toml = .ok config → ∀ algorithms happenings,
      (Session.new config algorithms).Survives happenings ↔
        Template.IsNarrow config.driver.idFormat.text ∨
          happenings.filterMap Turn.index? = [] := by
  refine ⟨fun t => Template.isSome_format?_iff_narrow, ?_⟩
  intro config hconfig algorithms happenings
  have hidentified : (Session.new config algorithms).fleet.Identified config :=
    Fleet.identified_new config algorithms
  rw [Template.IsNarrow, ← Template.fits_iff (Config.usable_of_ofText hconfig).parsed]
  constructor
  · intro hsurvives
    by_contra hneither
    obtain ⟨hwide, hasked⟩ := not_or.mp hneither
    exact Session.not_survives_of_wide hidentified rfl (by simpa using hwide) hasked hsurvives
  · rintro (hfits | hnone)
    · exact Session.survives_of_fits hidentified hfits happenings
    · exact Session.survives_of_unasked (List.filterMap_eq_nil_iff.mp hnone)

/-- A vehicle reports its status. -/
private def reported : List Turn := [.event (.packet (.wireless "a") (.atRest 7))]

/-- The greatest width there can be is survived. -/
theorem greatest_survived :
    let t : Template := ⟨"V-\x7b0:065535\x7d", [.literal ['V', '-'], .index true 65535]⟩
    let toml := "[driver]\nid_format = \"V-\x7b0:065535\x7d\"\n"
    Template.parse t.text = .ok t ∧ Config.ofText toml = .ok (.withFormat t) ∧
      (t.format? 7).isSome = true ∧ (Session.new (.withFormat t) []).Survives reported := by
  intro t toml
  have hparse : Template.parse t.text = .ok t := by decide +kernel
  have hconfig : Config.ofText toml = .ok (.withFormat t) := ok_of_toOption (by decide +kernel)
  have hnarrow : Template.IsNarrow t.text := (Template.fits_iff hparse).mp (by decide)
  obtain ⟨hmade, hsurvived⟩ := survives_iff_narrow t.text toml
  exact ⟨hparse, hconfig, (hmade t hparse 7).mpr hnarrow,
    (hsurvived _ hconfig [] reported).mpr (.inl hnarrow)⟩

/-- Every template that is accepted makes the ids of all indices. -/
def Template.AlwaysFormats : Prop :=
  ∀ (text : String) (t : Template), parse text = .ok t → ∀ index, (t.format? index).isSome = true

/-- A fleet with a configuration that is accepted survives whatever happens. -/
def AlwaysSurvives : Prop :=
  ∀ (toml : String) (config : Config), Config.ofText toml = .ok config →
    ∀ (algorithms : List Algorithm) (happenings : List Turn),
      (Session.new config algorithms).Survives happenings

/-- **One column too many.**  The template is accepted, and so is a configuration with it, and the
first status that is reported is not survived. -/
theorem not_alwaysSurvives : ¬ Template.AlwaysFormats ∧ ¬ AlwaysSurvives := by
  constructor
  · intro halways
    have hmade := halways _ _ Template.parse_text_tooWide 7
    rw [Template.isSome_format?_iff, Template.tooWide_fits] at hmade
    exact Bool.false_ne_true hmade
  · intro halways
    exact Session.not_survives_of_wide (Fleet.identified_new (.withFormat .tooWide) []) rfl
      Template.tooWide_fits (by decide) (halways _ _ Config.ofText_tooWide [] reported)

end FleetLink
