import FleetLink.Proofs.Binary64.Places
import FleetLink.Proofs.CommandLine.Generic

/-!
# The line of a flight carries its target

A flight to a position is sent as one line.  This module says what can be read off the line: **the
latitude and the longitude, each to half a unit of the seventh place**, and whether there is a
height.  The line is the generic command `go` with those texts as its arguments
(`flyTo_eq_generic`), so it is cut at the blanks like any other.

**Targets that are told apart on the ground have different lines.**  What a text stands for is half
a unit away from either of two targets with that text, so the two are at most one unit apart.

## Main Statements

* `CommandLine.pieces_flyTo` — the pieces of the line
* `CommandLine.Carries`, `CommandLine.flyTo_carries_target` — what they stand for, and which targets
  have different lines
-/

namespace FleetLink.CommandLine

/-- A flight is the command `go` with its texts as arguments. -/
theorem flyTo_eq_generic (target : Position) :
    flyTo target = generic "go" (["N" ++ target.lat.fixed 7, "E" ++ target.lon.fixed 7] ++
      (target.agl.map Binary64.plain).toList) := by
  apply String.toList_inj.mp
  cases hagl : target.agl <;> simp [flyTo, generic, hagl]

/-- **The pieces of the line** are the command, the two coordinates, and the height if there
is one. -/
theorem pieces_flyTo (target : Position) :
    pieces (flyTo target) = ["go", "N" ++ target.lat.fixed 7, "E" ++ target.lon.fixed 7] ++
      (target.agl.map Binary64.plain).toList := by
  rw [flyTo_eq_generic]
  refine pieces_intercalate (List.cons_ne_nil _ _) ?_
  have hlat := target.lat.space_not_mem_fixed (by decide : 0 < 7)
  have hlon := target.lon.space_not_mem_fixed (by decide : 0 < 7)
  have hagl : ∀ text ∈ (target.agl.map Binary64.plain).toList, ' ' ∉ text.toList := by
    intro text htext
    obtain ⟨agl, -, rfl⟩ := Option.map_eq_some_iff.mp (Option.mem_toList.mp htext)
    exact agl.space_not_mem_plain
  intro text htext
  rcases List.mem_cons.mp htext with rfl | hrest
  · decide
  · rcases List.mem_append.mp hrest with hplace | hheight
    · simp only [List.mem_cons, List.not_mem_nil, or_false] at hplace
      rcases hplace with rfl | rfl <;> simpa
    · exact hagl text hheight

/-- Lines that are the same show the same coordinates. -/
theorem fixed_eq_of_flyTo_eq {target other : Position} (hline : flyTo other = flyTo target) :
    other.lat.fixed 7 = target.lat.fixed 7 ∧ other.lon.fixed 7 = target.lon.fixed 7 := by
  have hpieces := congrArg pieces hline
  rw [pieces_flyTo, pieces_flyTo] at hpieces
  injection hpieces with _ hplaces
  injection hplaces with hlat hplaces
  injection hplaces with hlon _
  exact ⟨String.append_right_inj _ |>.mp hlat, String.append_right_inj _ |>.mp hlon⟩

/-- Two numbers with the same text of seven places are at most a unit of the seventh place apart. -/
theorem abs_value_sub_le {x y : Binary64} (hx : x.isFinite = true) (hy : y.isFinite = true)
    (htext : y.fixed 7 = x.fixed 7) : |y.value - x.value| ≤ 1 / 10 ^ 7 := by
  obtain ⟨p, hp, hpnear⟩ := Binary64.exists_writes_fixed (by decide : 0 < 7) hx
  obtain ⟨q, hq, hqnear⟩ := Binary64.exists_writes_fixed (by decide : 0 < 7) hy
  obtain rfl : p = q := hp.unique (htext ▸ hq)
  calc |y.value - x.value| ≤ |y.value - p| + |p - x.value| := abs_sub_le _ _ _
    _ ≤ 1 / 2 / 10 ^ 7 + 1 / 2 / 10 ^ 7 := add_le_add (abs_sub_comm p _ ▸ hqnear) hpnear
    _ = 1 / 10 ^ 7 := by ring

/-- What a line says of the target of a flight. -/
structure Carries (line : String) (target : Position) : Prop where
  /-- The pieces of the line are the command, a latitude, a longitude, and a height if there is one.
  Both coordinates are texts of seven places, and each stands for the one of the target up to half a
  unit of the last place. -/
  shown : ∃ lat lon p q,
    pieces line = ["go", "N" ++ lat, "E" ++ lon] ++ (target.agl.map Binary64.plain).toList ∧
      Text.Writes 7 lat.toList p ∧ |p - target.lat.value| ≤ 1 / 2 / 10 ^ 7 ∧
      Text.Writes 7 lon.toList q ∧ |q - target.lon.value| ≤ 1 / 2 / 10 ^ 7
  /-- A target more than a unit of the seventh place away has another line. -/
  apart : ∀ other : Position, other.lat.isFinite = true → other.lon.isFinite = true →
    1 / 10 ^ 7 < |other.lat.value - target.lat.value| ∨
      1 / 10 ^ 7 < |other.lon.value - target.lon.value| →
    flyTo other ≠ line

/-- **The line of a flight carries its target.** -/
theorem flyTo_carries_target {target : Position} (hlat : target.lat.isFinite = true)
    (hlon : target.lon.isFinite = true) : Carries (flyTo target) target := by
  constructor
  · obtain ⟨p, hp, hpnear⟩ := Binary64.exists_writes_fixed (by decide : 0 < 7) hlat
    obtain ⟨q, hq, hqnear⟩ := Binary64.exists_writes_fixed (by decide : 0 < 7) hlon
    exact ⟨_, _, p, q, pieces_flyTo target, hp, hpnear, hq, hqnear⟩
  · intro other hotherlat hotherlon hfar hline
    obtain ⟨hlattext, hlontext⟩ := fixed_eq_of_flyTo_eq hline
    rcases hfar with hfar | hfar
    · exact (abs_value_sub_le hlat hotherlat hlattext).not_gt hfar
    · exact (abs_value_sub_le hlon hotherlon hlontext).not_gt hfar

/-- A latitude halfway between two texts, a longitude that rounds to zero from below, and a height;
and a target at another latitude, without one. -/
theorem carries_halfway_target :
    flyTo ⟨⟨0x3F70000000000000⟩, ⟨0xBE10000000000000⟩, none, some ⟨0x4039800000000000⟩⟩ =
        "go N0.0039062 E-0.0000000 25.5" ∧
      Carries "go N0.0039062 E-0.0000000 25.5"
        ⟨⟨0x3F70000000000000⟩, ⟨0xBE10000000000000⟩, none, some ⟨0x4039800000000000⟩⟩ ∧
      1 / 10 ^ 7 < |Binary64.value ⟨0x3F88000000000000⟩ - Binary64.value ⟨0x3F70000000000000⟩| ∧
      flyTo ⟨⟨0x3F88000000000000⟩, ⟨0xBE10000000000000⟩, none, none⟩ ≠
        "go N0.0039062 E-0.0000000 25.5" := by
  have hline : flyTo ⟨⟨0x3F70000000000000⟩, ⟨0xBE10000000000000⟩, none,
      some ⟨0x4039800000000000⟩⟩ = "go N0.0039062 E-0.0000000 25.5" := by decide +kernel
  have hcarries := @flyTo_carries_target ⟨⟨0x3F70000000000000⟩, ⟨0xBE10000000000000⟩, none,
    some ⟨0x4039800000000000⟩⟩ (by decide +kernel) (by decide +kernel)
  rw [hline] at hcarries
  have hfar : 1 / 10 ^ 7 <
      |Binary64.value ⟨0x3F88000000000000⟩ - Binary64.value ⟨0x3F70000000000000⟩| := by
    decide +kernel
  exact ⟨hline, hcarries, hfar,
    hcarries.apart _ (by decide +kernel) (by decide +kernel) (.inl hfar)⟩

end FleetLink.CommandLine
