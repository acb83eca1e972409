import Mathlib.Data.List.Nodup
import FleetLink.Sensor
import FleetLink.Proofs.DeviceTree.Landing

/-!
# The footprint of sensor data

Every vehicle has channels of its own in the device tree.  This module proves that whatever is done
for a vehicle **touches no channel of another one**: its channels are declared, and the data of its
algorithms is written, where no other vehicle has a channel.

**The name of a channel tells whose it is,** although an id is any text and may hold the mark that
stands between the parts of a name.  The last two parts never hold it, so a name is read from its
end, and what is left is the id.

## Main Statements

* `ChannelPath.of_inj` — a name is read from its end
* `SensorChannels.vehicle_eq_of_mem_paths`, `nodup_paths` — every channel has a name of its own
* `SensorChannels.channels_declare` — a vehicle's channels are declared, and no others
* `SensorChannels.HasUnits` — a channel has the unit that it is declared with
* `Algorithm.sublist_stage` — data is written to the vehicle's own channels, at most once to each
* `Vehicle.absorb_eq_ok_iff`, `Vehicle.absorb_eq_error_iff` — what becomes of data
* `Vehicle.absorb_of_declared` — data of a vehicle with channels is taken in
* `Vehicle.status_absorb`, `Vehicle.channels_absorb` — what data leaves alone
* `Vehicle.absorb_congr` — what data is decided by
-/

namespace FleetLink

/-! ## Names -/

/-- Two texts with a mark in them, and without it behind, are cut at the same place. -/
theorem eq_of_append_cons_eq {α : Type} {mark : α} {front front' back back' : List α}
    (hback : mark ∉ back) (hback' : mark ∉ back')
    (h : front ++ mark :: back = front' ++ mark :: back') : front = front' ∧ back = back' := by
  rw [List.append_eq_append_iff] at h
  rcases h with ⟨more, rfl, hrest⟩ | ⟨more, rfl, hrest⟩
  -- What one front has more than the other would hold the mark, and be behind it.
  · cases more with
    | nil => simpa using hrest
    | cons c more =>
        simp only [List.cons_append, List.cons.injEq] at hrest
        exact absurd (by rw [hrest.2]; simp) hback
  · cases more with
    | nil => simpa [eq_comm] using hrest
    | cons c more =>
        simp only [List.cons_append, List.cons.injEq] at hrest
        exact absurd (by rw [hrest.2]; simp) hback'

/-- **A name is read from its end,** and says whose channel it is, of which device, and which. -/
theorem ChannelPath.of_inj {vehicle vehicle' device device' channel channel' : String}
    (hdevice : '/' ∉ device.toList) (hdevice' : '/' ∉ device'.toList)
    (hchannel : '/' ∉ channel.toList) (hchannel' : '/' ∉ channel'.toList)
    (h : ChannelPath.of vehicle device channel = .of vehicle' device' channel') :
    vehicle = vehicle' ∧ device = device' ∧ channel = channel' := by
  have hlist := congrArg String.toList h
  have hslash : "/".toList = ['/'] := rfl
  -- The part behind the last mark is cut off first, and then the one before it.
  simp only [ChannelPath.of, String.toList_append, hslash, List.append_assoc _ ['/'] _,
    List.singleton_append] at hlist
  obtain ⟨hfront, hback⟩ := eq_of_append_cons_eq hchannel hchannel' hlist
  obtain ⟨hid, hmiddle⟩ := eq_of_append_cons_eq hdevice hdevice' hfront
  exact ⟨String.toList_inj.mp hid, String.toList_inj.mp hmiddle, String.toList_inj.mp hback⟩

namespace SensorChannels

/-- The devices and the names of their channels, which are the same for every vehicle. -/
def names : List (String × String) :=
  ("geiger_counter", "dose_rate") ::
    ((List.range tubes).map fun i => ("geiger_counter", "raw_count_" ++ toString i)) ++
    ((List.range tubes).map fun i => ("geiger_counter", "rate_" ++ toString i)) ++
    ((List.range features).map fun i => ("camera", "feature_" ++ toString i))

/-- The channels of a vehicle. -/
def paths (vehicle : VehicleId) : List ChannelPath := (declarations vehicle).map (·.1)

theorem paths_eq_map (vehicle : VehicleId) :
    paths vehicle = names.map fun name => ChannelPath.of vehicle name.1 name.2 := by
  simp [paths, declarations, names, doseRate, rawCount, rate, feature, counter, Function.comp_def]

/-- The channels of the counter come first, and then those of the camera. -/
theorem paths_eq_append (vehicle : VehicleId) :
    paths vehicle =
      (doseRate vehicle :: ((List.range tubes).map (rawCount vehicle) ++
        (List.range tubes).map (rate vehicle))) ++ (List.range features).map (feature vehicle) := by
  simp [paths, declarations, Function.comp_def]

theorem slash_notMem_names :
    ∀ name ∈ names, '/' ∉ name.1.toList ∧ '/' ∉ name.2.toList := by
  decide +kernel

theorem of_inj {vehicle other : VehicleId} {name name' : String × String} (hname : name ∈ names)
    (hname' : name' ∈ names)
    (h : ChannelPath.of vehicle name.1 name.2 = .of other name'.1 name'.2) :
    vehicle = other ∧ name = name' := by
  obtain ⟨hdevice, hchannel⟩ := slash_notMem_names name hname
  obtain ⟨hdevice', hchannel'⟩ := slash_notMem_names name' hname'
  obtain ⟨hvehicle, hpair⟩ := ChannelPath.of_inj hdevice hdevice' hchannel hchannel' h
  exact ⟨hvehicle, Prod.ext hpair.1 hpair.2⟩

/-- **No two vehicles share a channel.** -/
theorem vehicle_eq_of_mem_paths {vehicle other : VehicleId} {path : ChannelPath}
    (h : path ∈ paths vehicle) (hother : path ∈ paths other) : vehicle = other := by
  rw [paths_eq_map, List.mem_map] at h hother
  obtain ⟨name, hname, rfl⟩ := h
  obtain ⟨name', hname', hpath⟩ := hother
  exact (of_inj hname hname' hpath.symm).1

/-- No two channels of a vehicle have one name. -/
theorem nodup_paths (vehicle : VehicleId) : (paths vehicle).Nodup := by
  have hnames : names.Nodup := by decide +kernel
  rw [paths_eq_map, List.Nodup, List.pairwise_map]
  refine hnames.imp_of_mem ?_
  intro name name' hname hname' hne h
  exact hne (of_inj hname hname' h).2

end SensorChannels

/-! ## The tree -/

namespace SensorChannels

/-- A channel of a vehicle that is declared is there with its unit, unless it was there before. -/
theorem channels_declare_eq (t : DeviceTree) (vehicle : VehicleId) (path : ChannelPath) :
    (declare t vehicle).channels[path]? =
      t.channels[path]?.or
        (((declarations vehicle).find? (·.1 = path)).map fun d => .fresh d.2) := by
  unfold declare
  generalize declarations vehicle = declared
  induction declared generalizing t with
  | nil => simp
  | cons d declared ih =>
      rw [List.foldl_cons, ih, DeviceTree.channels_declare, Option.or_assoc]
      by_cases hd : d.1 = path <;> simp [hd]

/-- The channels of a vehicle are declared, and no others. -/
theorem channels_declare (t : DeviceTree) {vehicle : VehicleId} {other : ChannelPath}
    (h : other ∉ paths vehicle) : (declare t vehicle).channels[other]? = t.channels[other]? := by
  have hnone : (declarations vehicle).find? (·.1 = other) = none := by
    rw [List.find?_eq_none]
    intro d hd heq
    exact h (List.mem_map.mpr ⟨d, hd, of_decide_eq_true heq⟩)
  rw [channels_declare_eq, hnone, Option.map_none, Option.or_none]

theorem isDeclared_declare (t : DeviceTree) (vehicle : VehicleId) (path : ChannelPath) :
    (declare t vehicle).isDeclared path = true ↔
      t.isDeclared path = true ∨ path ∈ paths vehicle := by
  have hfound : ((declarations vehicle).find? (·.1 = path)).isSome ↔ path ∈ paths vehicle := by
    rw [List.find?_isSome, paths, List.mem_map]
    simp
  rw [DeviceTree.isDeclared_iff, DeviceTree.isDeclared_iff, channels_declare_eq, ← hfound,
    ← Option.isSome_iff_exists, ← Option.isSome_iff_exists, Option.isSome_or, Option.isSome_map,
    Bool.or_eq_true]

/-- A channel has the unit that it is declared with. -/
def HasUnits (t : DeviceTree) : Prop :=
  ∀ vehicle, ∀ d ∈ declarations vehicle, ∀ c, t.channels[d.1]? = some c → c.unit = d.2

theorem hasUnits_empty : HasUnits .empty := by
  simp [HasUnits, DeviceTree.empty]

/-- Declaring a vehicle's channels gives each the unit that it has for every vehicle. -/
theorem HasUnits.declare {t : DeviceTree} (h : HasUnits t) (vehicle : VehicleId) :
    HasUnits (declare t vehicle) := by
  intro other d hd c hc
  rw [channels_declare_eq, Option.or_eq_some_iff] at hc
  rcases hc with hold | ⟨-, hnew⟩
  · exact h other d hd c hold
  · obtain ⟨e, he, rfl⟩ := Option.map_eq_some_iff.mp hnew
    have hpath : e.1 = d.1 := by simpa using List.find?_some he
    have hmem := List.mem_of_find?_eq_some he
    have hsame : vehicle = other :=
      vehicle_eq_of_mem_paths (List.mem_map_of_mem hmem) (hpath ▸ List.mem_map_of_mem hd)
    subst hsame
    rw [List.inj_on_of_nodup_map (nodup_paths vehicle) hmem hd hpath]
    rfl

theorem HasUnits.commit {t written : DeviceTree} (h : HasUnits t) {batch : Batch}
    (hcommit : t.commit batch = .ok written) : HasUnits written := by
  intro vehicle d hd c hc
  rw [DeviceTree.channels_commit hcommit, Option.map_eq_some_iff] at hc
  obtain ⟨old, hold, rfl⟩ := hc
  exact h vehicle d hd old hold

end SensorChannels

/-! ## Data of algorithms -/

/-- What is made of numbered things, where the number alone decides what it can be. -/
theorem filterMap_zip_sublist {α β γ : Type} {f : α × β → Option γ} {g : α → γ} (items : List β)
    (h : ∀ place item made, f (place, item) = some made → made = g place) {places : List α} :
    ((places.zip items).filterMap f).Sublist (places.map g) := by
  induction places generalizing items with
  | nil => exact List.nil_sublist _
  | cons place places ih =>
      cases items with
      | nil => exact List.nil_sublist _
      | cons item items =>
          rw [List.zip_cons_cons, List.map_cons]
          cases hmade : f (place, item) with
          | none => rw [List.filterMap_cons_none hmade]; exact (ih items).cons _
          | some made =>
              rw [List.filterMap_cons_some hmade, h place item made hmade]
              exact (ih items).cons_cons _

theorem map_zip_sublist {α β γ : Type} {f : α × β → γ} {g : α → γ} (items : List β)
    (h : ∀ place item, f (place, item) = g place) {places : List α} :
    ((places.zip items).map f).Sublist (places.map g) := by
  rw [← List.filterMap_eq_map' (f := f)]
  refine filterMap_zip_sublist items ?_
  intro place item made hmade
  rw [← Option.some.inj hmade, h]

namespace Algorithm

open SensorChannels

variable {id : VehicleId} {position : Position}

theorem sublist_countWrites (counts : List UInt32) :
    ((countWrites id position counts).map (·.channel)).Sublist
      ((List.range tubes).map (rawCount id)) := by
  unfold countWrites
  rw [List.map_map]
  exact map_zip_sublist counts fun _ _ => rfl

theorem sublist_rateWrites (rates : List (Option Rate)) :
    ((rateWrites id position rates).map (·.channel)).Sublist
      ((List.range tubes).map (rate id)) := by
  unfold rateWrites
  rw [List.map_filterMap]
  refine filterMap_zip_sublist _ ?_
  intro tube rate channel h
  obtain ⟨u, hu, rfl⟩ := Option.map_eq_some_iff.mp h
  obtain ⟨_, -, rfl⟩ := Option.map_eq_some_iff.mp hu
  rfl

theorem sublist_featureWrites (detection : CameraDetection) :
    ((featureWrites id detection).map (·.channel)).Sublist
      ((List.range features).map (feature id)) := by
  unfold featureWrites
  rw [List.map_map]
  exact map_zip_sublist detection.features fun _ _ => rfl

/-- **Data is written to the vehicle's own channels,** at most once to each, in their order. -/
theorem sublist_stage (a : Algorithm) (v : Vehicle) (payload : Payload) :
    ((a.stage id v position payload).map (·.channel)).Sublist (paths id) := by
  rw [paths_eq_append]
  unfold stage
  split
  · refine List.Sublist.trans ?_ (List.sublist_append_left _ _)
    unfold readingWrites
    rw [List.map_cons, List.map_append]
    exact ((sublist_countWrites _).append (sublist_rateWrites _)).cons_cons _
  · exact (sublist_featureWrites _).trans (List.sublist_append_right _ _)
  · exact List.nil_sublist _

theorem channel_mem_paths {a : Algorithm} {v : Vehicle} {payload : Payload} {u : ChannelUpdate}
    (h : u ∈ a.stage id v position payload) : u.channel ∈ paths id :=
  (sublist_stage a v payload).subset (List.mem_map_of_mem h)

theorem nodup_channels_stage (a : Algorithm) (v : Vehicle) (payload : Payload) :
    ((a.stage id v position payload).map (·.channel)).Nodup :=
  (nodup_paths id).sublist (sublist_stage a v payload)

end Algorithm

namespace Vehicle

variable {algorithms : List Algorithm} {tree : DeviceTree} {id : VehicleId} {v : Vehicle}
  {data : AlgorithmData} {done : Absorbed}

/-- **Data that is taken in** has no place or no algorithm, and is passed over; or its batch is
committed, and only then is anything retained. -/
theorem absorb_eq_ok_iff :
    v.absorb algorithms tree id data = .ok done ↔
      ((v.status.position = none ∨ algorithms.find? (·.name = data.algorithm) = none) ∧
          done = ⟨0, v, tree⟩) ∨
        ∃ position a written, v.status.position = some position ∧
          algorithms.find? (·.name = data.algorithm) = some a ∧
          tree.commit (a.stage id v position data.payload) = .ok written ∧
          done =
            ⟨(a.stage id v position data.payload).length, a.retain v data.payload, written⟩ := by
  unfold absorb
  cases v.status.position with
  | none => simp [eq_comm]
  | some position =>
      cases algorithms.find? (·.name = data.algorithm) with
      | none => simp [eq_comm]
      | some a =>
          dsimp only
          cases hcommit : tree.commit (a.stage id v position data.payload) <;>
            simp [hcommit, eq_comm]

/-- **Data is refused** when its batch is. -/
theorem absorb_eq_error_iff {path : ChannelPath} :
    v.absorb algorithms tree id data = .error path ↔
      ∃ position a, v.status.position = some position ∧
        algorithms.find? (·.name = data.algorithm) = some a ∧
        tree.commit (a.stage id v position data.payload) = .error path := by
  unfold absorb
  cases v.status.position with
  | none => simp
  | some position =>
      cases algorithms.find? (·.name = data.algorithm) with
      | none => simp
      | some a =>
          dsimp only
          cases hcommit : tree.commit (a.stage id v position data.payload) <;> simp [hcommit]

/-- **Data of a vehicle whose channels are declared is taken in.** -/
theorem absorb_of_declared (algorithms : List Algorithm) (v : Vehicle) (data : AlgorithmData)
    (h : ∀ path ∈ SensorChannels.paths id, tree.isDeclared path = true) :
    ∃ done, v.absorb algorithms tree id data = .ok done := by
  cases habsorb : v.absorb algorithms tree id data with
  | ok done => exact ⟨done, rfl⟩
  | error path =>
      obtain ⟨position, a, -, -, hcommit⟩ := absorb_eq_error_iff.mp habsorb
      obtain ⟨before, m, after, hbatch, -, hpath⟩ := DeviceTree.commit_eq_error_iff.mp hcommit
      have hmem : (⟨path, m⟩ : ChannelUpdate) ∈ a.stage id v position data.payload := by
        rw [hbatch]
        exact List.mem_append_right before List.mem_cons_self
      rw [h path (Algorithm.channel_mem_paths hmem)] at hpath
      cases hpath

/-- Data that is taken in declares nothing, and leaves every channel its unit. -/
theorem tree_absorb (h : v.absorb algorithms tree id data = .ok done) :
    (∀ path, done.tree.isDeclared path = tree.isDeclared path) ∧
      (SensorChannels.HasUnits tree → SensorChannels.HasUnits done.tree) := by
  obtain ⟨-, rfl⟩ | ⟨position, a, written, -, -, hcommit, rfl⟩ := absorb_eq_ok_iff.mp h
  · exact ⟨fun _ => rfl, fun hunits => hunits⟩
  · refine ⟨fun path => ?_, fun hunits => hunits.commit hcommit⟩
    rw [Bool.eq_iff_iff, DeviceTree.isDeclared_iff, DeviceTree.isDeclared_iff,
      DeviceTree.channels_commit hcommit]
    simp

/-- Data changes the retained reading of its vehicle at most. -/
theorem status_absorb (h : v.absorb algorithms tree id data = .ok done) :
    done.vehicle.status = v.status := by
  obtain ⟨-, rfl⟩ | ⟨position, a, written, -, -, -, rfl⟩ := absorb_eq_ok_iff.mp h
  · rfl
  · show (a.retain v data.payload).status = v.status
    unfold Algorithm.retain
    split <;> rfl

/-- Data changes the channels of its vehicle at most. -/
theorem channels_absorb (h : v.absorb algorithms tree id data = .ok done) {other : ChannelPath}
    (hother : other ∉ SensorChannels.paths id) :
    done.tree.channels[other]? = tree.channels[other]? := by
  obtain ⟨-, rfl⟩ | ⟨position, a, written, -, -, hcommit, rfl⟩ := absorb_eq_ok_iff.mp h
  · rfl
  · refine DeviceTree.channels_commit_of_forall_ne hcommit fun u hu heq => hother ?_
    rw [← heq]
    exact Algorithm.channel_mem_paths hu

/-- **What becomes of data is decided by the channels of its vehicle.**  Two trees that agree on
these refuse it for one reason, or they agree on them again. -/
theorem absorb_congr (algorithms : List Algorithm) (v : Vehicle) (data : AlgorithmData)
    {other : DeviceTree}
    (h : ∀ path ∈ SensorChannels.paths id, other.channels[path]? = tree.channels[path]?) :
    (∃ path, v.absorb algorithms tree id data = .error path ∧
        v.absorb algorithms other id data = .error path) ∨
      ∃ done done', v.absorb algorithms tree id data = .ok done ∧
        v.absorb algorithms other id data = .ok done' ∧ done'.vehicle = done.vehicle ∧
        ∀ path ∈ SensorChannels.paths id,
          done'.tree.channels[path]? = done.tree.channels[path]? := by
  unfold absorb
  cases v.status.position with
  | none => exact .inr ⟨_, _, rfl, rfl, rfl, h⟩
  | some position =>
      cases algorithms.find? (·.name = data.algorithm) with
      | none => exact .inr ⟨_, _, rfl, rfl, rfl, h⟩
      | some a =>
          dsimp only
          have hbatch : ∀ u ∈ a.stage id v position data.payload,
              other.channels[u.channel]? = tree.channels[u.channel]? :=
            fun u hu => h u.channel (Algorithm.channel_mem_paths hu)
          rcases DeviceTree.commit_congr hbatch with
            ⟨path, herror, herror'⟩ | ⟨written, written', hok, hok'⟩
          · rw [herror, herror']
            exact .inl ⟨path, rfl, rfl⟩
          · rw [hok, hok']
            refine .inr ⟨_, _, rfl, rfl, rfl, fun path hpath => ?_⟩
            show written'.channels[path]? = written.channels[path]?
            rw [DeviceTree.channels_commit hok, DeviceTree.channels_commit hok', h path hpath]

end Vehicle

end FleetLink
