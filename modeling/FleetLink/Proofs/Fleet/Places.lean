import Mathlib.Data.Set.Basic
import FleetLink.Proofs.Sensor.Footprint
import FleetLink.Proofs.Session.Identities
import FleetLink.Replay

/-!
# Places

What a fleet knows of its vehicles stands in maps, and all packets work on the same maps.  This
module says **at which places**: a status report or sensor data with an index, from a source, reads
and writes at the places of that index, of the vehicle with its id, and of that source, and nowhere
else (`Place.of`).

Both halves are needed before anything can be said about two packets.  What stands elsewhere is left
alone (`Within`); and what stands elsewhere makes no difference, neither for what the packet is told
nor for what it writes (`Alike`).  The second half follows the first: two fleets are changed at the
same places, and it remains to look at what is written there (`Alike.step`).

**A fleet is what stands at its places,** but for what is counted and for the notices that wait
(`eq_of_places`).  For the address book, whose two maps are read in two ways, this takes that the
maps agree.

## Main Statements

* `Place`, `Fleet.at?` — the places of a fleet and what stands there
* `Within` — nothing differs but what stands at some places
* `Alike` — what stands at some places is the same
* `Within.around` — changes of different places, in either order
* `within_handle`, `alike_handle` — a packet reads and writes at its places
* `eq_of_places` — fleets with the same at all places
-/

namespace FleetLink

/-- A place in one of the maps of a fleet. -/
inductive Place where
  /-- The id of an index. -/
  | id (index : UInt32)
  /-- What is known of a vehicle. -/
  | entry (vehicle : VehicleId)
  /-- The address of a vehicle on a medium. -/
  | address (vehicle : VehicleId) (medium : String)
  /-- The vehicle that a source belongs to. -/
  | owner (source : Source)
  /-- A channel. -/
  | channel (path : ChannelPath)
  deriving DecidableEq, Repr

namespace Place

/-- What can stand at a place. -/
def Content : Place → Type
  | id _ => VehicleId
  | entry _ => Vehicle
  | address _ _ => String
  | owner _ => VehicleId
  | channel _ => Channel

/-- The places where a vehicle's addresses stand, and a source. -/
def ofClaim (vehicle : VehicleId) (source : Source) : Set Place
  | address other _ => other = vehicle
  | owner other => other = source
  | id _ | entry _ | channel _ => False

/-- The places of a vehicle's channels. -/
def ofChannels (vehicle : VehicleId) : Set Place
  | channel path => path ∈ SensorChannels.paths vehicle
  | id _ | entry _ | address _ _ | owner _ => False

/-- The places of an index, of a vehicle and of a source. -/
def of (index : UInt32) (vehicle : VehicleId) (source : Source) : Set Place :=
  {id index, entry vehicle} ∪ ofClaim vehicle source ∪ ofChannels vehicle

section

variable {index index' : UInt32} {vehicle vehicle' : VehicleId} {source source' : Source}

theorem id_mem_of : id index ∈ of index vehicle source := .inl (.inl (.inl rfl))

theorem entry_mem_of : entry vehicle ∈ of index vehicle source := .inl (.inl (.inr rfl))

theorem id_subset : {id index} ⊆ of index vehicle source := by
  rintro p rfl
  exact id_mem_of

theorem entry_subset : {entry vehicle} ⊆ of index vehicle source := by
  rintro p rfl
  exact entry_mem_of

theorem ofClaim_subset : ofClaim vehicle source ⊆ of index vehicle source :=
  fun _ h => .inl (.inr h)

theorem ofChannels_subset : ofChannels vehicle ⊆ of index vehicle source := fun _ h => .inr h

/-- **Different indices, vehicles and sources share no place.** -/
theorem notMem_of (hindex : index ≠ index') (hvehicle : vehicle ≠ vehicle')
    (hsource : source ≠ source') {p : Place} (h : p ∈ of index vehicle source) :
    p ∉ of index' vehicle' source' := by
  rintro (((rfl | rfl) | hclaim) | hchannel)
  · rcases h with ((h | h) | h) | h
    · exact hindex (id.inj h).symm
    · cases h
    · exact h
    · exact h
  · rcases h with ((h | h) | h) | h
    · cases h
    · exact hvehicle (entry.inj h).symm
    · exact h
    · exact h
  · cases p with
    | address other medium =>
        rcases h with ((h | h) | h) | h
        · cases h
        · cases h
        · exact hvehicle (Eq.trans (Eq.symm h) hclaim)
        · exact h
    | owner other =>
        rcases h with ((h | h) | h) | h
        · cases h
        · cases h
        · exact hsource (Eq.trans (Eq.symm h) hclaim)
        · exact h
    | id | entry | channel => exact hclaim
  · cases p with
    | channel path =>
        rcases h with ((h | h) | h) | h
        · cases h
        · cases h
        · exact h
        · exact hvehicle (SensorChannels.vehicle_eq_of_mem_paths h hchannel)
    | id | entry | address | owner => exact hchannel

end

end Place

namespace Fleet

/-- What stands at a place. -/
def at? (f : Fleet) : (p : Place) → Option p.Content
  | .id index => f.ids[index]?
  | .entry vehicle => f.registry[vehicle]?
  | .address vehicle medium => f.book.address? vehicle medium
  | .owner source => f.book.owner? source
  | .channel path => f.tree.channels[path]?

/-- Nothing differs but what stands at some places, what is counted, and the notices that wait. -/
structure Within (places : Set Place) (f g : Fleet) : Prop where
  settings : g.settings = f.settings
  algorithms : g.algorithms = f.algorithms
  assembler : g.assembler = f.assembler
  commands : g.commands = f.commands
  outbox : g.outbox = f.outbox
  elsewhere : ∀ p ∉ places, g.at? p = f.at? p

/-- What packets are handled with is the same, and so is what stands at some places. -/
structure Alike (places : Set Place) (f g : Fleet) : Prop where
  settings : g.settings = f.settings
  algorithms : g.algorithms = f.algorithms
  there : ∀ p ∈ places, g.at? p = f.at? p

section

variable {f g h f' g' : Fleet} {places more : Set Place}

namespace Within

theorem trans (hfirst : Within places f g) (hsecond : Within places g h) : Within places f h where
  settings := hsecond.settings.trans hfirst.settings
  algorithms := hsecond.algorithms.trans hfirst.algorithms
  assembler := hsecond.assembler.trans hfirst.assembler
  commands := hsecond.commands.trans hfirst.commands
  outbox := hsecond.outbox.trans hfirst.outbox
  elsewhere p hp := (hsecond.elsewhere p hp).trans (hfirst.elsewhere p hp)

theorem mono (hsubset : places ⊆ more) (hwithin : Within places f g) : Within more f g :=
  { hwithin with elsewhere := fun p hp => hwithin.elsewhere p fun hmem => hp (hsubset hmem) }

/-- What is changed elsewhere is the same here. -/
theorem alike (hwithin : Within places f g) (hapart : ∀ p ∈ more, p ∉ places) : Alike more f g where
  settings := hwithin.settings
  algorithms := hwithin.algorithms
  there p hp := hwithin.elsewhere p (hapart p hp)

end Within

namespace Alike

/-- Two fleets that are changed at the same places stay alike if they are alike there afterwards. -/
theorem step {written : Set Place} (halike : Alike places f g) (hf : Within written f f')
    (hg : Within written g g') (hnew : ∀ p ∈ places, p ∈ written → g'.at? p = f'.at? p) :
    Alike places f' g' where
  settings := hg.settings.trans (halike.settings.trans hf.settings.symm)
  algorithms := hg.algorithms.trans (halike.algorithms.trans hf.algorithms.symm)
  there p hp := by
    by_cases hmem : p ∈ written
    · exact hnew p hp hmem
    · rw [hg.elsewhere p hmem, hf.elsewhere p hmem, halike.there p hp]

end Alike

/-- **Two ways round.**  One way the first places are changed and then the others, and the other way
the others come first.  If each is left by the second change as it would be left by a first one,
both ways end in the same. -/
theorem Within.around {others : Set Place} {f₁ f₂ f₁₂ f₂₁ : Fleet}
    (hapart : ∀ p ∈ places, p ∉ others) (hfirst : Within places f f₁) (hthen : Within others f₁ f₁₂)
    (hfirst' : Within others f f₂) (hthen' : Within places f₂ f₂₁) (hplaces : Alike places f₁ f₂₁)
    (hothers : Alike others f₂ f₁₂) : Within ∅ f₂₁ f₁₂ where
  settings := hothers.settings.trans hthen'.settings.symm
  algorithms := hothers.algorithms.trans hthen'.algorithms.symm
  assembler := by
    rw [hthen.assembler, hfirst.assembler, hthen'.assembler, hfirst'.assembler]
  commands := by
    rw [hthen.commands, hfirst.commands, hthen'.commands, hfirst'.commands]
  outbox := by
    rw [hthen.outbox, hfirst.outbox, hthen'.outbox, hfirst'.outbox]
  elsewhere p _ := by
    by_cases hp : p ∈ places
    · rw [hthen.elsewhere p (hapart p hp), hplaces.there p hp]
    · rw [hthen'.elsewhere p hp]
      by_cases hp' : p ∈ others
      · exact hothers.there p hp'
      · rw [hthen.elsewhere p hp', hfirst.elsewhere p hp, hfirst'.elsewhere p hp']

/-! ## The steps that packets are made of -/

theorem within_observe (f : Fleet) (change : Metrics → Metrics) :
    Within ∅ f (f.observe change) := ⟨rfl, rfl, rfl, rfl, rfl, fun _ _ => rfl⟩

theorem within_publish (f : Fleet) (notice : StatusNotice) :
    Within ∅ f (f.publish notice) := ⟨rfl, rfl, rfl, rfl, rfl, fun _ _ => rfl⟩

theorem Within.observe (hwithin : Within places f g) (change : Metrics → Metrics) :
    Within places f (g.observe change) :=
  hwithin.trans ((within_observe g change).mono (Set.empty_subset _))

theorem Alike.observe (halike : Alike places f g) (change change' : Metrics → Metrics) :
    Alike places (f.observe change) (g.observe change') :=
  halike.step (within_observe f change) (within_observe g change') fun _ _ hmem => hmem.elim

theorem within_identify (f : Fleet) (index : UInt32) :
    Within {.id index} f (f.identify index).2 := by
  have hids := f.ids_identify index
  have hothers :
      ∃ ids metrics, (f.identify index).2 = { f with ids := ids, metrics := metrics } := by
    unfold identify
    cases f.ids[index]? <;> exact ⟨_, _, rfl⟩
  obtain ⟨ids, metrics, heq⟩ := hothers
  rw [heq] at hids ⊢
  refine ⟨rfl, rfl, rfl, rfl, rfl, fun p hp => ?_⟩
  cases p with
  | id other =>
      have hne : index ≠ other := fun hsame => hp (congrArg Place.id hsame.symm)
      exact (hids other).trans (if_neg hne)
  | entry | address | owner | channel => rfl

theorem within_setVehicle (f : Fleet) (id : VehicleId) (vehicle : Vehicle) :
    Within {.entry id} f (f.setVehicle id vehicle) := by
  refine ⟨rfl, rfl, rfl, rfl, rfl, fun p hp => ?_⟩
  cases p with
  | entry other =>
      have hne : id ≠ other := fun hsame => hp (congrArg Place.entry hsame.symm)
      show (f.registry.insert id vehicle)[other]? = f.registry[other]?
      simp [Std.ExtTreeMap.getElem?_insert, hne]
  | id | address | owner | channel => rfl

/-- The channels of a vehicle differ, and the rest of the tree does not. -/
theorem within_tree (f : Fleet) {id : VehicleId} {tree : DeviceTree}
    (hothers : ∀ path ∉ SensorChannels.paths id, tree.channels[path]? = f.tree.channels[path]?) :
    Within (Place.ofChannels id) f { f with tree := tree } := by
  refine ⟨rfl, rfl, rfl, rfl, rfl, fun p hp => ?_⟩
  cases p with
  | channel path => exact hothers path hp
  | id | entry | address | owner => rfl

/-- A claim that is accepted is written at the places of the vehicle's addresses and of
the source. -/
theorem within_claim (f : Fleet) {id : VehicleId} {source : Source}
    {recorded : AddressBook.Recorded} {book : AddressBook}
    (hrecord : f.book.record id source = .ok (recorded, book)) :
    Within (Place.ofClaim id source) f { f with book := book } := by
  obtain ⟨haddresses, howners⟩ := AddressBook.record_frame hrecord
  refine ⟨rfl, rfl, rfl, rfl, rfl, fun p hp => ?_⟩
  cases p with
  | address other medium => exact haddresses other hp medium
  | owner other => exact howners other hp
  | id | entry | channel => rfl

end

/-! ## Meeting a vehicle -/

section

variable {f g : Fleet} {index : UInt32} {id : VehicleId} {source : Source}

theorem within_enrol (f : Fleet) (index : UInt32) (id : VehicleId) (source : Source) :
    Within (Place.of index id source) f (f.enrol id) := by
  have hothers : ∀ path ∉ SensorChannels.paths id,
      (SensorChannels.declare f.tree id).channels[path]? = f.tree.channels[path]? :=
    fun path hpath => SensorChannels.channels_declare f.tree hpath
  have htree := f.within_tree hothers
  have hset := within_setVehicle { f with tree := SensorChannels.declare f.tree id } id .new
  exact (htree.mono Place.ofChannels_subset).trans (hset.mono Place.entry_subset)

theorem within_meet (f : Fleet) (index : UInt32) (source : Source) :
    Within (Place.of index (f.identify index).1 source) f (f.meet index).2.2 := by
  have hidentify : Within (Place.of index (f.identify index).1 source) f (f.identify index).2 :=
    (f.within_identify index).mono Place.id_subset
  unfold meet
  rcases hid : f.identify index with ⟨id, g⟩
  rw [hid] at hidentify
  dsimp only
  cases g.registry[id]? with
  | some known => exact hidentify
  | none => exact hidentify.trans (g.within_enrol index id source)

/-- An index is given one id by fleets that are alike at its place. -/
theorem identify_of_alike (halike : Alike (Place.of index id source) f g) :
    (g.identify index).1 = (f.identify index).1 ∧
      Alike (Place.of index id source) (f.identify index).2 (g.identify index).2 := by
  have hplace : g.ids[index]? = f.ids[index]? := halike.there (.id index) Place.id_mem_of
  have hid : (g.identify index).1 = (f.identify index).1 := by
    rw [identify_fst, identify_fst, hplace, halike.settings]
  refine ⟨hid, halike.step (f.within_identify index) (g.within_identify index) ?_⟩
  rintro p - rfl
  show (g.identify index).2.ids[index]? = (f.identify index).2.ids[index]?
  rw [ids_identify, ids_identify, if_pos rfl, if_pos rfl, hid]

theorem setVehicle_of_alike (halike : Alike (Place.of index id source) f g) (vehicle : Vehicle) :
    Alike (Place.of index id source) (f.setVehicle id vehicle) (g.setVehicle id vehicle) := by
  refine halike.step (f.within_setVehicle id vehicle) (g.within_setVehicle id vehicle) ?_
  rintro p - rfl
  show (g.registry.insert id vehicle)[id]? = (f.registry.insert id vehicle)[id]?
  simp

theorem tree_of_alike (halike : Alike (Place.of index id source) f g) {tree tree' : DeviceTree}
    (hf : ∀ path ∉ SensorChannels.paths id, tree.channels[path]? = f.tree.channels[path]?)
    (hg : ∀ path ∉ SensorChannels.paths id, tree'.channels[path]? = g.tree.channels[path]?)
    (hown : ∀ path ∈ SensorChannels.paths id, tree'.channels[path]? = tree.channels[path]?) :
    Alike (Place.of index id source) { f with tree := tree } { g with tree := tree' } := by
  refine halike.step (f.within_tree hf) (g.within_tree hg) fun p _ hp => ?_
  cases p with
  | channel path => exact hown path hp
  | id | entry | address | owner => exact hp.elim

theorem channels_of_alike (halike : Alike (Place.of index id source) f g) :
    ∀ path ∈ SensorChannels.paths id, g.tree.channels[path]? = f.tree.channels[path]? :=
  fun path hpath => halike.there (.channel path) (Place.ofChannels_subset hpath)

/-- **An index is met with one vehicle** by fleets that are alike at its places. -/
theorem meet_of_alike (halike : Alike (Place.of index (f.identify index).1 source) f g) :
    (g.meet index).1 = (f.meet index).1 ∧ (g.meet index).2.1 = (f.meet index).2.1 ∧
      Alike (Place.of index (f.identify index).1 source) (f.meet index).2.2 (g.meet index).2.2 := by
  obtain ⟨hid, hidentify⟩ := identify_of_alike halike
  unfold meet
  rcases hf : f.identify index with ⟨id, f'⟩
  rcases hg : g.identify index with ⟨id', g'⟩
  rw [hf, hg] at hid hidentify
  obtain rfl : id' = id := hid
  dsimp only at hidentify ⊢
  have hentry : g'.registry[id']? = f'.registry[id']? :=
    hidentify.there (.entry id') Place.entry_mem_of
  rw [hentry]
  cases f'.registry[id']? with
  | some known => exact ⟨rfl, rfl, hidentify⟩
  | none =>
      have htree := tree_of_alike hidentify
        (fun path hpath => SensorChannels.channels_declare f'.tree hpath)
        (fun path hpath => SensorChannels.channels_declare g'.tree hpath) fun path hpath => by
          rw [SensorChannels.channels_declare_eq, SensorChannels.channels_declare_eq,
            channels_of_alike hidentify path hpath]
      exact ⟨rfl, rfl, setVehicle_of_alike htree .new⟩

/-! ## Status reports -/

theorem within_takeStatus (f : Fleet) (now : Nat) (source : Source) (report : StatusReport) :
    Within (Place.of report.index (f.identify report.index).1 source) f
      (f.takeStatus now source report).1 := by
  have hmeet := f.within_meet report.index source
  rw [← meet_fst] at hmeet ⊢
  unfold takeStatus
  rcases hmet : f.meet report.index with ⟨id, vehicle, g⟩
  rw [hmet] at hmeet
  dsimp only at hmeet ⊢
  cases hrecord : g.book.record id source with
  | error fault => exact hmeet.observe (·.refuse fault)
  | ok recorded =>
      obtain ⟨recorded, book⟩ := recorded
      have hclaim := g.within_claim hrecord
      have hset := within_setVehicle { g with book := book } id
        { vehicle with status := .ofReport report now }
      exact (hmeet.trans ((hclaim.mono Place.ofClaim_subset).trans
        (hset.mono Place.entry_subset))).trans ((within_publish _ _).mono (Set.empty_subset _))

theorem takeStatus_of_alike {report : StatusReport} (now : Nat)
    (halike : Alike (Place.of report.index (f.identify report.index).1 source) f g) :
    (g.takeStatus now source report).2 = (f.takeStatus now source report).2 ∧
      Alike (Place.of report.index (f.identify report.index).1 source)
        (f.takeStatus now source report).1 (g.takeStatus now source report).1 := by
  obtain ⟨hid, hvehicle, hmeet⟩ := meet_of_alike halike
  rw [← meet_fst] at hmeet ⊢
  unfold takeStatus
  rcases hf : f.meet report.index with ⟨id, vehicle, f'⟩
  rcases hg : g.meet report.index with ⟨id', vehicle', g'⟩
  rw [hf, hg] at hid hvehicle hmeet
  obtain rfl : id' = id := hid
  obtain rfl : vehicle' = vehicle := hvehicle
  dsimp only at hmeet ⊢
  have haddress : ∀ medium, g'.book.address? id' medium = f'.book.address? id' medium :=
    fun medium => hmeet.there (.address id' medium) (Place.ofClaim_subset rfl)
  have howner : g'.book.owner? source = f'.book.owner? source :=
    hmeet.there (.owner source) (Place.ofClaim_subset rfl)
  rcases AddressBook.record_congr haddress howner with
    ⟨fault, herror, herror'⟩ | ⟨recorded, book, book', hok, hok', haddresses, howners⟩
  · rw [herror, herror']
    exact ⟨rfl, hmeet.observe (·.refuse fault) (·.refuse fault)⟩
  · rw [hok, hok']
    refine ⟨rfl, ?_⟩
    have hclaim : Alike (Place.of report.index id' source) { f' with book := book }
        { g' with book := book' } := by
      refine hmeet.step (f'.within_claim hok) (g'.within_claim hok') fun p _ hp => ?_
      cases p with
      | address other medium =>
          obtain rfl : other = id' := hp
          exact haddresses medium
      | owner other =>
          obtain rfl : other = source := hp
          exact howners
      | id | entry | channel => exact hp.elim
    have hset := setVehicle_of_alike hclaim { vehicle' with status := .ofReport report now }
    exact hset.step (within_publish _ _) (within_publish _ _) fun _ _ hmem => hmem.elim

/-! ## Data of algorithms -/

theorem within_takeData (f : Fleet) (source : Source) (data : AlgorithmData) :
    Within (Place.of data.index (f.identify data.index).1 source) f (f.takeData data).1 := by
  have hmeet := f.within_meet data.index source
  rw [← meet_fst] at hmeet ⊢
  unfold takeData
  rcases hmet : f.meet data.index with ⟨id, vehicle, g⟩
  rw [hmet] at hmeet
  dsimp only at hmeet ⊢
  cases habsorb : vehicle.absorb g.algorithms g.tree id data with
  | error path => exact hmeet
  | ok done =>
      have htree := g.within_tree fun path hpath => Vehicle.channels_absorb habsorb hpath
      have hset := within_setVehicle { g with tree := done.tree } id done.vehicle
      exact hmeet.trans ((htree.mono Place.ofChannels_subset).trans (hset.mono Place.entry_subset))

theorem takeData_of_alike {data : AlgorithmData}
    (halike : Alike (Place.of data.index (f.identify data.index).1 source) f g) :
    (g.takeData data).2 = (f.takeData data).2 ∧
      Alike (Place.of data.index (f.identify data.index).1 source)
        (f.takeData data).1 (g.takeData data).1 := by
  obtain ⟨hid, hvehicle, hmeet⟩ := meet_of_alike halike
  rw [← meet_fst] at hmeet ⊢
  unfold takeData
  rcases hf : f.meet data.index with ⟨id, vehicle, f'⟩
  rcases hg : g.meet data.index with ⟨id', vehicle', g'⟩
  rw [hf, hg] at hid hvehicle hmeet
  obtain rfl : id' = id := hid
  obtain rfl : vehicle' = vehicle := hvehicle
  dsimp only at hmeet ⊢
  rcases Vehicle.absorb_congr f'.algorithms vehicle' data (channels_of_alike hmeet) with
    ⟨path, herror, herror'⟩ | ⟨done, done', hok, hok', hretained, htree⟩
  · rw [← hmeet.algorithms] at herror'
    rw [herror, herror']
    exact ⟨rfl, hmeet⟩
  · rw [← hmeet.algorithms] at hok'
    rw [hok, hok']
    refine ⟨rfl, ?_⟩
    have hwritten := tree_of_alike hmeet
      (fun path hpath => Vehicle.channels_absorb hok hpath)
      (fun path hpath => Vehicle.channels_absorb hok' hpath) htree
    dsimp only
    rw [hretained]
    exact setVehicle_of_alike hwritten done.vehicle

/-! ## Packets -/

variable {packet : Packet}

/-- **A packet with an index writes at its places only.** -/
theorem within_handle (f : Fleet) (now : Nat) (source : Source)
    (hindex : packet.index? = some index) :
    Within (Place.of index (f.identify index).1 source) f (f.handle now source packet).1 := by
  cases packet with
  | status report =>
      cases hindex
      exact f.within_takeStatus now source report
  | algorithmData data =>
      cases hindex
      exact f.within_takeData source data
  | prearmStatus | commandRequest | commandResponse | compressedCommandResponse | missionInfo
  | other => cases hindex

/-- **A packet with an index reads at its places only**: by fleets that are alike there it is
answered alike, and they stay alike. -/
theorem alike_handle (now : Nat) (hindex : packet.index? = some index)
    (halike : Alike (Place.of index (f.identify index).1 source) f g) :
    (g.handle now source packet).2 = (f.handle now source packet).2 ∧
      Alike (Place.of index (f.identify index).1 source)
        (f.handle now source packet).1 (g.handle now source packet).1 := by
  cases packet with
  | status report =>
      cases hindex
      exact takeStatus_of_alike now halike
  | algorithmData data =>
      cases hindex
      exact takeData_of_alike halike
  | prearmStatus | commandRequest | commandResponse | compressedCommandResponse | missionInfo
  | other => cases hindex

end

/-! ## All places -/

/-- **A fleet is what stands at its places,** but for what is counted and the notices that wait. -/
theorem eq_of_places {f g : Fleet} (hf : f.book.Agrees) (hg : g.book.Agrees)
    (hwithin : Within ∅ f g) : g = { f with inbox := g.inbox, metrics := g.metrics } := by
  have hids : g.ids = f.ids :=
    Std.ExtTreeMap.ext_getElem? fun {index} => hwithin.elsewhere (.id index) id
  have hregistry : g.registry = f.registry :=
    Std.ExtTreeMap.ext_getElem? fun {vehicle} => hwithin.elsewhere (.entry vehicle) id
  have hchannels : g.tree.channels = f.tree.channels :=
    Std.ExtTreeMap.ext_getElem? fun {path} => hwithin.elsewhere (.channel path) id
  have hbook : g.book = f.book :=
    hf.eq_of_address? hg fun vehicle medium => hwithin.elsewhere (.address vehicle medium) id
  have htree : g.tree = f.tree := by
    rcases ht : g.tree
    rcases hu : f.tree
    rw [ht, hu] at hchannels
    exact congrArg DeviceTree.mk hchannels
  have hsettings := hwithin.settings
  have halgorithms := hwithin.algorithms
  have hassembler := hwithin.assembler
  have hcommands := hwithin.commands
  have houtbox := hwithin.outbox
  cases f
  cases g
  simp_all only

end Fleet

end FleetLink
