import FleetLink.DeviceTree

/-!
# What landed in the device tree

A tree is changed by declarations and by batches of updates.  Some batches are refused, and some are
collected and never committed.  This module proves that **a tree holds what landed and nothing
else**: every channel can be told from the declarations of a history and from the updates of those
batches all of whose channels had been declared by then.

**One channel is looked at.**  What a change does to a tree is what it does to each channel, and for
one channel a batch is two numbers: the last of its updates there, and how many there are
(`Channel.after`).  A channel that is not declared yet is in no batch that lands, so it does not
matter for it that updates come before its declaration.  Hence the channel after a whole history is
one equation (`channels_run`).

## Main Statements

* `Batch.value?_eq_some_iff` — the last update of a batch, whichever end it is looked for from
* `DeviceTree.commit_eq_error_iff`, `DeviceTree.commit_eq_ok_iff` — which batches are refused
* `DeviceTree.channels_commit`, `Knows.channels_run` — a channel after a change, and a history
* `DeviceTree.holds_what_landed` — the whole tree after every history
-/

namespace FleetLink

/-! ## Updates of one channel -/

namespace Batch

/-- How many updates of a channel there are. -/
def count (batch : Batch) (path : ChannelPath) : Nat := batch.countP (·.channel = path)

@[simp] theorem value?_nil (path : ChannelPath) : value? [] path = none := rfl

@[simp] theorem count_nil (path : ChannelPath) : count [] path = 0 := rfl

theorem value?_append (first second : Batch) (path : ChannelPath) :
    value? (first ++ second) path = (second.value? path).or (first.value? path) := by
  unfold value?
  rw [List.reverse_append, List.find?_append]
  cases second.reverse.find? (·.channel = path) <;> rfl

theorem count_append (first second : Batch) (path : ChannelPath) :
    count (first ++ second) path = first.count path + second.count path :=
  List.countP_append

/-- **The last update is the last one,** though it is looked for from behind. -/
theorem value?_eq_some_iff {batch : Batch} {path : ChannelPath} {m : Measurement} :
    batch.value? path = some m ↔
      ∃ before after, batch = before ++ ⟨path, m⟩ :: after ∧ ∀ u ∈ after, u.channel ≠ path := by
  unfold value?
  rw [Option.map_eq_some_iff]
  constructor
  · rintro ⟨⟨channel, _⟩, hfind, rfl⟩
    rw [List.find?_eq_some_iff_append] at hfind
    obtain ⟨hchannel, after, before, hsplit, hafter⟩ := hfind
    obtain rfl : channel = path := of_decide_eq_true hchannel
    refine ⟨before.reverse, after.reverse, ?_, ?_⟩
    · rw [← List.reverse_reverse batch, hsplit]
      simp
    · intro u hu
      simpa using hafter u (List.mem_reverse.mp hu)
  · rintro ⟨before, after, rfl, hafter⟩
    refine ⟨⟨path, m⟩, ?_, rfl⟩
    rw [List.find?_eq_some_iff_append]
    refine ⟨by simp, after.reverse, before.reverse, by simp, ?_⟩
    intro u hu
    simpa using hafter u (List.mem_reverse.mp hu)

/-- Where no channel is written twice, the last update is the only one. -/
theorem value?_eq_some_iff_mem {batch : Batch} {path : ChannelPath} {m : Measurement}
    (h : (batch.map (·.channel)).Nodup) : batch.value? path = some m ↔ ⟨path, m⟩ ∈ batch := by
  rw [value?_eq_some_iff]
  constructor
  · rintro ⟨before, after, rfl, -⟩
    simp
  · intro hmem
    obtain ⟨before, after, rfl⟩ := List.append_of_mem hmem
    rw [List.map_append, List.map_cons, List.nodup_append, List.nodup_cons] at h
    refine ⟨before, after, rfl, ?_⟩
    intro u hu heq
    exact h.2.1.1 (List.mem_map.mpr ⟨u, hu, heq⟩)

theorem value?_eq_none_iff {batch : Batch} {path : ChannelPath} :
    batch.value? path = none ↔ ∀ u ∈ batch, u.channel ≠ path := by
  simp [value?]

theorem count_eq_zero {batch : Batch} {path : ChannelPath} (h : ∀ u ∈ batch, u.channel ≠ path) :
    batch.count path = 0 := by
  simpa [count, List.countP_eq_zero] using h

end Batch

namespace Channel

/-- The channel with a name once the updates of a batch are written. -/
def after (c : Channel) (path : ChannelPath) (batch : Batch) : Channel :=
  { c with value := (batch.value? path).or c.value, writes := c.writes + batch.count path }

theorem after_append (c : Channel) (path : ChannelPath) (first second : Batch) :
    c.after path (first ++ second) = (c.after path first).after path second := by
  simp only [after, Batch.value?_append, Batch.count_append, Option.or_assoc, Nat.add_assoc]

/-- A channel stays as it is when there is no update of it. -/
theorem after_of_forall_ne (c : Channel) {path : ChannelPath} {batch : Batch}
    (h : ∀ u ∈ batch, u.channel ≠ path) : c.after path batch = c := by
  simp [after, Batch.value?_eq_none_iff.mpr h, Batch.count_eq_zero h]

theorem after_singleton (c : Channel) (u : ChannelUpdate) :
    c.after u.channel [u] = c.written u.measurement := by
  simp [after, written, Batch.value?, Batch.count]

end Channel

namespace DeviceTree

variable {t : DeviceTree} {path : ChannelPath} {batch : Batch}

/-! ## One channel of a changed tree -/

theorem isDeclared_iff : t.isDeclared path = true ↔ ∃ c, t.channels[path]? = some c := by
  unfold isDeclared
  rw [decide_eq_true_iff, Std.ExtTreeMap.mem_iff_isSome_getElem?, Option.isSome_iff_exists]

/-- The first declaration of a channel makes it, and the later ones do nothing. -/
theorem channels_declare (t : DeviceTree) (declared : ChannelPath) (unit : Option String)
    (path : ChannelPath) :
    (t.declare declared unit).channels[path]? =
      t.channels[path]?.or (if declared = path then some (.fresh unit) else none) := by
  unfold declare
  rw [Std.ExtTreeMap.getElem?_insertIfNew]
  by_cases hp : declared = path
  · subst hp
    by_cases hmem : declared ∈ t.channels
    · rw [Std.ExtTreeMap.mem_iff_isSome_getElem?] at hmem
      obtain ⟨c, hc⟩ := Option.isSome_iff_exists.mp hmem
      simp [Std.ExtTreeMap.mem_iff_isSome_getElem?, hc]
    · simp [hmem]
  · simp [hp]

/-- A write is seen in its channel only. -/
theorem channels_write (t : DeviceTree) (u : ChannelUpdate) (path : ChannelPath) :
    (t.write u).channels[path]? = t.channels[path]?.map (·.after path [u]) := by
  unfold write
  by_cases hp : u.channel = path
  · subst hp
    cases hc : t.channels[u.channel]? with
    | none => simp [hc]
    | some c => simp [Channel.after_singleton]
  · have hsame : (fun c : Channel => c.after path [u]) = id := by
      funext c
      exact c.after_of_forall_ne (by simpa using hp)
    rw [hsame, Option.map_id_apply]
    cases t.channels[u.channel]? with
    | none => rfl
    | some c => simp [Std.ExtTreeMap.getElem?_insert, hp]

/-- The writes of a batch, one after the other. -/
theorem channels_writes (t : DeviceTree) (batch : Batch) (path : ChannelPath) :
    (batch.foldl write t).channels[path]? = t.channels[path]?.map (·.after path batch) := by
  induction batch generalizing t with
  | nil => cases h : t.channels[path]? <;> simp [h, Channel.after]
  | cons u batch ih =>
      rw [List.foldl_cons, ih, channels_write, Option.map_map]
      congr 1
      funext c
      exact (c.after_append path [u] batch).symm

/-! ## Which batches are refused -/

/-- **The first channel of a batch that is not declared is the one reported.** -/
theorem commit_eq_error_iff :
    t.commit batch = .error path ↔
      ∃ before m after, batch = before ++ ⟨path, m⟩ :: after ∧
        (∀ u ∈ before, t.isDeclared u.channel = true) ∧ t.isDeclared path = false := by
  have herror : t.commit batch = .error path ↔ t.undeclared? batch = some path := by
    unfold commit
    cases t.undeclared? batch <;> simp
  rw [herror, undeclared?, Option.map_eq_some_iff]
  constructor
  · rintro ⟨⟨channel, m⟩, hfind, rfl⟩
    rw [List.find?_eq_some_iff_append] at hfind
    obtain ⟨hchannel, before, after, hsplit, hbefore⟩ := hfind
    refine ⟨before, m, after, hsplit, ?_, by simpa using hchannel⟩
    intro u hu
    simpa using hbefore u hu
  · rintro ⟨before, m, after, rfl, hbefore, hpath⟩
    refine ⟨⟨path, m⟩, ?_, rfl⟩
    rw [List.find?_eq_some_iff_append]
    refine ⟨by simp [hpath], before, after, rfl, ?_⟩
    intro u hu
    simp [hbefore u hu]

theorem commit_of_declared (h : ∀ u ∈ batch, t.isDeclared u.channel = true) :
    t.commit batch = .ok (batch.foldl write t) := by
  have hnone : t.undeclared? batch = none := by
    simpa [undeclared?] using h
  simp only [commit, hnone]

/-- **A batch lands exactly if all its channels are declared,** and then all of it lands. -/
theorem commit_eq_ok_iff {written : DeviceTree} :
    t.commit batch = .ok written ↔
      (∀ u ∈ batch, t.isDeclared u.channel = true) ∧ written = batch.foldl write t := by
  constructor
  · intro hok
    have hdeclared : ∀ u ∈ batch, t.isDeclared u.channel = true := by
      unfold commit at hok
      split at hok
      · cases hok
      next hnone => simpa [undeclared?] using hnone
    rw [commit_of_declared hdeclared] at hok
    exact ⟨hdeclared, (Except.ok.inj hok).symm⟩
  · rintro ⟨hdeclared, rfl⟩
    exact commit_of_declared hdeclared

/-- A batch that landed is seen in its channels only. -/
theorem channels_commit {written : DeviceTree} (h : t.commit batch = .ok written)
    (path : ChannelPath) :
    written.channels[path]? = t.channels[path]?.map (·.after path batch) := by
  obtain ⟨-, rfl⟩ := commit_eq_ok_iff.mp h
  exact channels_writes t batch path

/-- A batch leaves the channels alone that it does not write to. -/
theorem channels_commit_of_forall_ne {written : DeviceTree} (h : t.commit batch = .ok written)
    (hne : ∀ u ∈ batch, u.channel ≠ path) : written.channels[path]? = t.channels[path]? := by
  rw [channels_commit h]
  cases t.channels[path]? with
  | none => rfl
  | some c => rw [Option.map_some, c.after_of_forall_ne hne]

/-- **What becomes of a batch is decided by its channels.**  Two trees that agree on these take it
or refuse it both. -/
theorem commit_congr {other : DeviceTree}
    (h : ∀ u ∈ batch, other.channels[u.channel]? = t.channels[u.channel]?) :
    (∃ path, t.commit batch = .error path ∧ other.commit batch = .error path) ∨
      ∃ written written', t.commit batch = .ok written ∧ other.commit batch = .ok written' := by
  have hdeclared : ∀ u ∈ batch, other.isDeclared u.channel = t.isDeclared u.channel := by
    intro u hu
    rw [Bool.eq_iff_iff, isDeclared_iff, isDeclared_iff, h u hu]
  cases hcommit : t.commit batch with
  | error path =>
      refine .inl ⟨path, rfl, ?_⟩
      obtain ⟨before, m, after, rfl, hbefore, hpath⟩ := commit_eq_error_iff.mp hcommit
      refine commit_eq_error_iff.mpr ⟨before, m, after, rfl, fun u hu => ?_, ?_⟩
      · rw [hdeclared u (List.mem_append_left _ hu)]
        exact hbefore u hu
      · rw [← hpath]
        exact hdeclared ⟨path, m⟩ (List.mem_append_right _ List.mem_cons_self)
  | ok written =>
      obtain ⟨hall, -⟩ := commit_eq_ok_iff.mp hcommit
      have hother := commit_of_declared fun u hu => (hdeclared u hu).trans (hall u hu)
      exact .inr ⟨written, _, rfl, hother⟩

/-! ## Histories -/

/-- What can happen to a tree. -/
inductive Change where
  | declare (path : ChannelPath) (unit : Option String)
  | commit (batch : Batch)
  /-- A batch is collected and let go. -/
  | drop (batch : Batch)
  deriving Repr

/-- The tree after a change.  A refused batch changes nothing. -/
def step (t : DeviceTree) : Change → DeviceTree
  | .declare path unit => t.declare path unit
  | .commit batch =>
    match t.commit batch with
    | .ok written => written
    | .error _ => t
  | .drop _ => t

/-- The tree after some changes, one after the other. -/
def run (t : DeviceTree) (history : List Change) : DeviceTree := history.foldl step t

/-- The declarations of a history. -/
def declarations (history : List Change) : List (ChannelPath × Option String) :=
  history.filterMap fun
    | .declare path unit => some (path, unit)
    | _ => none

/-- A history declares a channel. -/
def Declares (history : List Change) (path : ChannelPath) : Prop :=
  ∃ unit, .declare path unit ∈ history

/-- The updates of a history that land when some channels are declared to begin with: those of the
batches that are committed with all their channels declared before. -/
def landedFrom (known : List ChannelPath) : List Change → Batch
  | [] => []
  | .declare path _ :: later => landedFrom (path :: known) later
  | .commit batch :: later =>
    if ∀ u ∈ batch, u.channel ∈ known then batch ++ landedFrom known later
    else landedFrom known later
  | .drop _ :: later => landedFrom known later

/-- The updates of a history that land, in the order of their batches. -/
def landed (history : List Change) : Batch := landedFrom [] history

/-- Some channels are those that a tree has. -/
def Knows (t : DeviceTree) (known : List ChannelPath) : Prop :=
  ∀ path, path ∈ known ↔ t.isDeclared path = true

theorem knows_empty : empty.Knows [] := by
  intro path
  simp

theorem Knows.declare {known : List ChannelPath} (h : t.Knows known) (path : ChannelPath)
    (unit : Option String) : (t.declare path unit).Knows (path :: known) := by
  intro other
  rw [List.mem_cons, h other, isDeclared_iff, isDeclared_iff, channels_declare]
  by_cases hp : path = other
  · subst hp
    cases t.channels[path]? <;> simp
  · simp [hp, Ne.symm hp]

/-- A batch that is committed lands if its channels are known, and else changes nothing. -/
theorem Knows.step_commit {known : List ChannelPath} (h : t.Knows known) (batch : Batch) :
    t.step (.commit batch) =
      if ∀ u ∈ batch, u.channel ∈ known then batch.foldl write t else t := by
  by_cases hlands : ∀ u ∈ batch, u.channel ∈ known
  · have hcommit := commit_of_declared fun u hu => (h u.channel).mp (hlands u hu)
    simp only [step, hcommit, if_pos hlands]
  · rw [if_neg hlands]
    simp only [step]
    split
    next hok =>
      obtain ⟨hdeclared, -⟩ := commit_eq_ok_iff.mp hok
      exact absurd (fun u hu => (h u.channel).mpr (hdeclared u hu)) hlands
    next => rfl

theorem Knows.writes {known : List ChannelPath} (h : t.Knows known) (batch : Batch) :
    Knows (batch.foldl write t) known := by
  intro path
  rw [h path, isDeclared_iff, isDeclared_iff, channels_writes]
  cases t.channels[path]? <;> simp

/-- A channel that is not there has no update in a batch that lands. -/
theorem Knows.forall_ne {known : List ChannelPath} (h : t.Knows known)
    (hlands : ∀ u ∈ batch, u.channel ∈ known) (hnone : t.channels[path]? = none) :
    ∀ u ∈ batch, u.channel ≠ path := by
  rintro u hu rfl
  obtain ⟨c, hc⟩ := isDeclared_iff.mp ((h u.channel).mp (hlands u hu))
  rw [hnone] at hc
  cases hc

/-- **A channel after a history:** it was there, or its first declaration made it, and what landed
in it has been written. -/
theorem Knows.channels_run {known : List ChannelPath} (h : t.Knows known) (history : List Change)
    (path : ChannelPath) :
    (t.run history).channels[path]? =
      (t.channels[path]?.or
          (((declarations history).find? (·.1 = path)).map fun d => .fresh d.2)).map
        (·.after path (landedFrom known history)) := by
  induction history generalizing t known with
  | nil =>
      cases hc : t.channels[path]? with
      | none => simp [run, declarations, hc]
      | some c => simp [run, landedFrom, hc, Channel.after]
  | cons change later ih =>
      cases change with
      | declare declared unit =>
          show ((t.declare declared unit).run later).channels[path]? = _
          rw [ih (h.declare declared unit), channels_declare, Option.or_assoc]
          by_cases hp : declared = path
          · simp [declarations, landedFrom, hp]
          · simp [declarations, landedFrom, hp]
      | drop batch => exact ih h
      | commit batch =>
          show ((t.step (.commit batch)).run later).channels[path]? = _
          rw [h.step_commit batch]
          by_cases hlands : ∀ u ∈ batch, u.channel ∈ known
          · rw [if_pos hlands, ih (h.writes batch), channels_writes, landedFrom, if_pos hlands]
            cases hc : t.channels[path]? with
            | some c => simp [Channel.after_append]
            | none =>
                -- The channel is declared later than this batch, which therefore is not about it.
                have hne := h.forall_ne hlands hc
                simp only [Option.map_none, Option.none_or, Option.map_map, Function.comp_def,
                  Channel.after_append, Channel.after_of_forall_ne _ hne]
                rfl
          · rw [if_neg hlands, ih h, landedFrom, if_neg hlands]
            rfl

/-- A channel after a history that begins with nothing declared. -/
theorem channels_run (history : List Change) (path : ChannelPath) :
    (empty.run history).channels[path]? =
      ((declarations history).find? (·.1 = path)).map fun d =>
        ⟨d.2, (landed history).value? path, (landed history).count path⟩ := by
  rw [knows_empty.channels_run history path]
  simp [empty, landed, Channel.after, Channel.fresh, Function.comp_def]

/-! ## Reading the tree -/

theorem declares_iff {history : List Change} :
    Declares history path ↔ ∃ d, (declarations history).find? (·.1 = path) = some d := by
  rw [← Option.isSome_iff_exists, List.find?_isSome]
  unfold Declares declarations
  constructor
  · rintro ⟨unit, hmem⟩
    exact ⟨(path, unit), List.mem_filterMap.mpr ⟨_, hmem, rfl⟩, by simp⟩
  · rintro ⟨⟨declared, unit⟩, hmem, hpath⟩
    obtain ⟨change, hchange, heq⟩ := List.mem_filterMap.mp hmem
    cases change with
    | declare path' unit' =>
        obtain ⟨rfl, rfl⟩ := Prod.mk.inj (Option.some.inj heq)
        obtain rfl : path' = path := of_decide_eq_true hpath
        exact ⟨unit', hchange⟩
    | _ => cases heq

/-- A history declares the channels of its tree. -/
theorem isDeclared_run (history : List Change) (path : ChannelPath) :
    (empty.run history).isDeclared path = true ↔ Declares history path := by
  rw [isDeclared_iff, channels_run, declares_iff]
  cases (declarations history).find? (·.1 = path) <;> simp

theorem declares_of_mem_landedFrom {known : List ChannelPath} {history : List Change}
    {u : ChannelUpdate} (h : u ∈ landedFrom known history) :
    u.channel ∈ known ∨ Declares history u.channel := by
  have hmore : ∀ {change : Change} {later : List Change}, Declares later u.channel →
      Declares (change :: later) u.channel :=
    fun ⟨unit, hmem⟩ => ⟨unit, List.mem_cons_of_mem _ hmem⟩
  induction history generalizing known with
  | nil => cases h
  | cons change later ih =>
      cases change with
      | declare path unit =>
          rcases ih h with hknown | hlater
          · rcases List.mem_cons.mp hknown with heq | hknown
            · exact .inr ⟨unit, by simp [heq]⟩
            · exact .inl hknown
          · exact .inr (hmore hlater)
      | drop batch => exact (ih h).imp_right hmore
      | commit batch =>
          rw [landedFrom] at h
          split at h
          next hlands =>
            rcases List.mem_append.mp h with hbatch | hrest
            · exact .inl (hlands u hbatch)
            · exact (ih hrest).imp_right hmore
          next => exact (ih h).imp_right hmore

/-- What landed in a channel that was never declared: nothing. -/
theorem declares_of_mem_landed {history : List Change} {u : ChannelUpdate}
    (h : u ∈ landed history) : Declares history u.channel := by
  rcases declares_of_mem_landedFrom h with hnil | hdeclares
  · cases hnil
  · exact hdeclares

/-- **A channel holds the last update that landed in it.** -/
theorem value?_run (history : List Change) (path : ChannelPath) :
    (empty.run history).value? path = (landed history).value? path := by
  unfold value?
  rw [channels_run]
  cases hfind : (declarations history).find? (·.1 = path) with
  | some d => rfl
  | none =>
      have hnone : (landed history).value? path = none := by
        rw [Batch.value?_eq_none_iff]
        rintro u hu rfl
        obtain ⟨d, hd⟩ := declares_iff.mp (declares_of_mem_landed hu)
        rw [hfind] at hd
        cases hd
      rw [hnone]
      rfl

/-- A channel was written as often as there are updates that landed in it. -/
theorem writes_run (history : List Change) (path : ChannelPath) :
    (empty.run history).writes path = (landed history).count path := by
  unfold writes
  rw [channels_run]
  cases hfind : (declarations history).find? (·.1 = path) with
  | some d => rfl
  | none =>
      refine (Batch.count_eq_zero ?_).symm
      rintro u hu rfl
      obtain ⟨d, hd⟩ := declares_iff.mp (declares_of_mem_landed hu)
      rw [hfind] at hd
      cases hd

/-- A channel has the unit of its first declaration. -/
theorem unit?_run (history : List Change) (path : ChannelPath) :
    (empty.run history).unit? path =
      ((declarations history).find? (·.1 = path)).bind (·.2) := by
  unfold unit?
  rw [channels_run]
  cases (declarations history).find? (·.1 = path) <;> rfl

/-- The snapshot lists what the channels hold. -/
theorem mem_snapshot_iff {m : Measurement} : (path, m) ∈ t.snapshot ↔ t.value? path = some m := by
  unfold snapshot value?
  rw [List.mem_filterMap, Option.bind_eq_some_iff]
  constructor
  · rintro ⟨⟨path', c⟩, hmem, heq⟩
    obtain ⟨m', hvalue, hpair⟩ := Option.map_eq_some_iff.mp heq
    obtain ⟨rfl, rfl⟩ := Prod.mk.inj hpair
    exact ⟨c, Std.ExtTreeMap.mem_toList_iff_getElem?_eq_some.mp hmem, hvalue⟩
  · rintro ⟨c, hc, hvalue⟩
    exact ⟨(path, c), Std.ExtTreeMap.mem_toList_iff_getElem?_eq_some.mpr hc, by simp [hvalue]⟩

/-- The snapshot is in the order of the names, and lists each once. -/
theorem pairwise_snapshot (t : DeviceTree) :
    t.snapshot.Pairwise fun a b => compare a.1 b.1 = .lt := by
  unfold snapshot
  refine List.Pairwise.filterMap _ ?_ t.channels.ordered_keys_toList
  intro a b hab a' ha' b' hb'
  obtain ⟨_, -, rfl⟩ := Option.map_eq_some_iff.mp ha'
  obtain ⟨_, -, rfl⟩ := Option.map_eq_some_iff.mp hb'
  exact hab

/-- What a history lets land grows by the batches that are committed. -/
theorem Knows.landedFrom_concat {known : List ChannelPath} (h : t.Knows known)
    (history : List Change) (batch : Batch) :
    landedFrom known (history ++ [.commit batch]) =
      landedFrom known history ++
        if ∀ u ∈ batch, (t.run history).isDeclared u.channel = true then batch else [] := by
  induction history generalizing t known with
  | nil =>
      have hiff : (∀ u ∈ batch, u.channel ∈ known) ↔ ∀ u ∈ batch, t.isDeclared u.channel = true :=
        forall₂_congr fun u _ => h u.channel
      show (if ∀ u ∈ batch, u.channel ∈ known then batch ++ [] else []) =
        [] ++ if ∀ u ∈ batch, t.isDeclared u.channel = true then batch else []
      rw [List.append_nil, List.nil_append]
      exact ite_congr (propext hiff) (fun _ => rfl) fun _ => rfl
  | cons change later ih =>
      cases change with
      | declare path unit => exact ih (h.declare path unit)
      | drop _ => exact ih h
      | commit first =>
          have hrun : t.run (.commit first :: later) = (t.step (.commit first)).run later := rfl
          rw [List.cons_append, landedFrom, landedFrom, hrun, h.step_commit first]
          by_cases hlands : ∀ u ∈ first, u.channel ∈ known
          · simp only [if_pos hlands, ih (h.writes first), List.append_assoc]
          · simp only [if_neg hlands, ih h]

/-- **A tree holds what landed.**  After every history of declarations, of batches that were
committed, and of batches that were let go:

A further batch is refused exactly if it names a channel that was not declared, the first such
channel in the order of writing is reported, and nothing changes.  Otherwise all of it lands: its
channels hold what the batch says it would leave there, the others stay as they are.

A channel holds the last update that landed in it, was written as often as updates landed in it, and
has the unit of its first declaration.  The snapshot lists the channels in which something landed,
in the order of their names, with what they hold. -/
theorem holds_what_landed (history : List Change) :
    let t := empty.run history
    (∀ batch : Batch,
      ((∃ written, t.commit batch = .ok written) ↔ ∀ u ∈ batch, Declares history u.channel) ∧
      (∀ path, t.commit batch = .error path ↔
        ∃ before m after, batch = before ++ ⟨path, m⟩ :: after ∧
          (∀ u ∈ before, Declares history u.channel) ∧ ¬ Declares history path) ∧
      (∀ path, t.commit batch = .error path →
        t.step (.commit batch) = t ∧ landed (history ++ [.commit batch]) = landed history) ∧
      (∀ written, t.commit batch = .ok written →
        t.step (.commit batch) = written ∧
        landed (history ++ [.commit batch]) = landed history ++ batch ∧
        (∀ u ∈ batch, written.value? u.channel = batch.value? u.channel) ∧
        ∀ path, (∀ u ∈ batch, u.channel ≠ path) →
          written.channels[path]? = t.channels[path]?) ∧
      t.step (.drop batch) = t) ∧
    (∀ path : ChannelPath,
      (t.isDeclared path = true ↔ Declares history path) ∧
      (∀ m, t.value? path = some m ↔
        ∃ before after, landed history = before ++ ⟨path, m⟩ :: after ∧
          ∀ u ∈ after, u.channel ≠ path) ∧
      t.writes path = ((landed history).countP fun u => u.channel = path) ∧
      t.unit? path = ((declarations history).find? (·.1 = path)).bind (·.2)) ∧
    (∀ path, path ∈ t.snapshot.map (·.1) ↔ ∃ u ∈ landed history, u.channel = path) ∧
    (∀ path m, (path, m) ∈ t.snapshot → t.value? path = some m) ∧
    t.snapshot.Pairwise fun a b => compare a.1 b.1 = .lt := by
  intro t
  have hdeclared : ∀ path, t.isDeclared path = true ↔ Declares history path :=
    isDeclared_run history
  have hlanded : ∀ batch : Batch, landed (history ++ [.commit batch]) =
      landed history ++ if ∀ u ∈ batch, t.isDeclared u.channel = true then batch else [] :=
    knows_empty.landedFrom_concat history
  refine ⟨fun batch => ⟨?_, ?_, ?_, ?_, rfl⟩, fun path => ⟨hdeclared path, ?_, ?_, ?_⟩, ?_,
    fun path m => mem_snapshot_iff.mp, pairwise_snapshot t⟩
  · simp only [commit_eq_ok_iff, exists_and_left, exists_eq, and_true, hdeclared]
  · intro path
    simp only [commit_eq_error_iff, hdeclared, ← Bool.not_eq_true]
  · intro path herror
    obtain ⟨before, m, after, hsplit, -, hpath⟩ := commit_eq_error_iff.mp herror
    refine ⟨by simp only [step, herror], ?_⟩
    have hrefused : ¬ ∀ u ∈ batch, t.isDeclared u.channel = true := by
      intro hall
      have := hall ⟨path, m⟩ (by simp [hsplit])
      simp [hpath] at this
    rw [hlanded, if_neg hrefused, List.append_nil]
  · intro written hok
    obtain ⟨hall, -⟩ := commit_eq_ok_iff.mp hok
    refine ⟨by simp only [step, hok], by rw [hlanded, if_pos hall], ?_, ?_⟩
    · intro u hu
      obtain ⟨c, hc⟩ := isDeclared_iff.mp (hall u hu)
      have hsome : batch.value? u.channel ≠ none := by
        rw [Ne, Batch.value?_eq_none_iff]
        exact fun hnone => hnone u hu rfl
      obtain ⟨m, hm⟩ := Option.ne_none_iff_exists'.mp hsome
      simp [value?, channels_commit hok, hc, Channel.after, hm]
    · intro path hne
      exact channels_commit_of_forall_ne hok hne
  · intro m
    rw [value?_run, Batch.value?_eq_some_iff]
  · exact writes_run history path
  · exact unit?_run history path
  · intro path
    rw [List.mem_map]
    constructor
    · rintro ⟨⟨path', m⟩, hmem, rfl⟩
      have hvalue := mem_snapshot_iff.mp hmem
      rw [value?_run, Batch.value?_eq_some_iff] at hvalue
      obtain ⟨before, after, hsplit, -⟩ := hvalue
      exact ⟨⟨path', m⟩, by simp [hsplit], rfl⟩
    · rintro ⟨u, hu, rfl⟩
      have hsome : (landed history).value? u.channel ≠ none := by
        rw [Ne, Batch.value?_eq_none_iff]
        exact fun hnone => hnone u hu rfl
      obtain ⟨m, hm⟩ := Option.ne_none_iff_exists'.mp hsome
      rw [← value?_run] at hm
      exact ⟨(u.channel, m), mem_snapshot_iff.mpr hm, rfl⟩

end DeviceTree

end FleetLink
