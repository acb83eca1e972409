import Mathlib.Algebra.GroupWithZero.Nat
import Mathlib.Data.List.Forall2
import FleetLink.Proofs.Replay.Ending
import FleetLink.Proofs.Session.Survival
import FleetLink.Report

/-!
# A replay accounts for every record

A replay reads a capture line by line, applies what it reads, and sums up what became of it.  This
module says **which captures are replayed, and that nothing in them goes missing**: all lines have
to be legible, every record is counted once, and it is either a packet with an outcome or a command
with a report.  Otherwise the fault names the first line that is not legible, by its number among
all lines, and the records in front of it have been applied, and no others (`read_of_survives`).

**There is a third way for a replay to end.**  The program does not survive a record with an index
whose id is neither known nor made by the template.  Which captures these are depends on what they
ask for and on what the fleet knows beforehand; applying records makes no difference to it
(`survives_iff`).  With a template that can be formatted there is none.

## Main Definitions

* `Capture.IsLegible`, `Capture.records` — what can be read of some lines
* `Replay.Survives`, `Session.Names` — every id that is asked for can be had
* `Replay.Accounts` — every record is accounted for

## Main Statements

* `Tally.total_bump` — seeing a label adds one to the total
* `read_of_survives`, `read_of_not_survives` — what reading lines comes to
* `survives_iff` — which records are survived
* `accounts_finish` — every record is accounted for in the end
* `run_accounts` — which captures are replayed, and what is said of them
* `not_alwaysReplayed` — a capture that can be read and is not replayed
-/

namespace FleetLink

/-! ## Tallies -/

namespace Tally

/-- How often all labels were seen together. -/
def total (t : Tally) : Nat := (t.toList.map (·.2)).sum

@[simp] theorem total_empty : total empty = 0 := rfl

/-- A tally lists a label that is written once, and the other labels as before. -/
theorem perm_toList_insert (t : Tally) (label : String) (n : Nat) :
    (t.insert label n).toList.Perm ((label, n) :: t.toList.filter (·.1 ≠ label)) := by
  have hnodup : ∀ u : Tally, u.toList.Nodup := fun u =>
    u.distinct_keys_toList.imp fun hne heq => hne (by rw [heq]; exact Std.ReflCmp.compare_self)
  have hnew : (label, n) ∉ t.toList.filter (·.1 ≠ label) := by simp
  refine (List.perm_ext_iff_of_nodup (hnodup _)
    (List.nodup_cons.mpr ⟨hnew, (hnodup t).filter _⟩)).mpr fun ⟨other, m⟩ => ?_
  rw [Std.ExtTreeMap.mem_toList_iff_getElem?_eq_some, Std.ExtTreeMap.getElem?_insert,
    List.mem_cons, List.mem_filter, Std.ExtTreeMap.mem_toList_iff_getElem?_eq_some]
  by_cases hlabel : label = other
  · subst hlabel
    simp [eq_comm]
  · simp [hlabel, Ne.symm hlabel]

theorem total_insert (t : Tally) (label : String) (n : Nat) :
    total (t.insert label n) + t.count label = t.total + n := by
  have hwritten : ∀ (u : Tally) (m : Nat), total (u.insert label m) =
      m + ((u.toList.filter (·.1 ≠ label)).map (·.2)).sum := by
    intro u m
    have hperm := (perm_toList_insert u label m).map Prod.snd
    exact hperm.sum_nat.trans List.sum_cons
  rw [hwritten]
  cases hlabel : t[label]? with
  | some m =>
      -- What is listed already was written before.
      have hsame : t.insert label m = t := by
        refine Std.ExtTreeMap.ext_getElem? fun other => ?_
        rw [Std.ExtTreeMap.getElem?_insert]
        split
        next hother => rw [← Std.LawfulEqCmp.eq_of_compare hother, hlabel]
        next => rfl
      have htotal := hwritten t m
      rw [hsame] at htotal
      rw [htotal, count, hlabel, Option.getD_some]
      omega
  | none =>
      have hothers : t.toList.filter (·.1 ≠ label) = t.toList := by
        rw [List.filter_eq_self]
        rintro ⟨other, m⟩ hmem
        rw [Std.ExtTreeMap.mem_toList_iff_getElem?_eq_some] at hmem
        refine decide_eq_true fun heq => ?_
        cases heq
        rw [hlabel] at hmem
        cases hmem
      rw [hothers, count, hlabel, total, Option.getD_none]
      omega

/-- Seeing a label adds one to the total. -/
theorem total_bump (t : Tally) (label : String) : total (t.bump label) = t.total + 1 := by
  have hinsert := t.total_insert label (t.count label + 1)
  rw [bump]
  omega

end Tally

/-! ## Lines -/

/-- The index that a record asks for the id of. -/
def CaptureRecord.index? (record : CaptureRecord) : Option UInt32 :=
  match record.action with
  | .inbound _ packet => packet.index?
  | .command _ _ => none

/-- The command that a record is, and the vehicle that it is for. -/
def CaptureRecord.command? (record : CaptureRecord) : Option (VehicleId × String) :=
  match record.action with
  | .inbound _ _ => none
  | .command vehicle line => some (vehicle, line)

namespace Capture

/-- A line is blank, or it holds a record. -/
def IsLegible (line : String) : Prop :=
  ¬ Text.IsBlankText line → (CaptureRecord.ofLine? line).isSome = true

instance : DecidablePred IsLegible := fun _ => inferInstanceAs (Decidable (_ → _))

/-- The record of a line that is not blank. -/
def record? (line : String) : Option CaptureRecord :=
  if Text.IsBlankText line then none else CaptureRecord.ofLine? line

/-- The records of some lines, up to the first line that is not legible. -/
def records (lines : List String) : List CaptureRecord :=
  (lines.takeWhile IsLegible).filterMap record?

/-- A line with its number, unless it is blank. -/
def number? (line : String × Nat) : Option (Nat × String) :=
  if Text.IsBlankText line.1 then none else some (line.2, line.1)

section

variable {line : String} {lines : List String} {record : CaptureRecord}

theorem isLegible_of_blank (h : Text.IsBlankText line) : IsLegible line := fun hfilled =>
  absurd h hfilled

theorem isLegible_of_record (h : CaptureRecord.ofLine? line = some record) : IsLegible line :=
  fun _ => by rw [h]; rfl

/-- A line is blank, or it cannot be read, or it holds a record. -/
theorem line_cases (line : String) : Text.IsBlankText line ∨ ¬ IsLegible line ∨
    ∃ record, ¬ Text.IsBlankText line ∧ CaptureRecord.ofLine? line = some record := by
  by_cases hblank : Text.IsBlankText line
  · exact .inl hblank
  · cases hrecord : CaptureRecord.ofLine? line with
    | none => exact .inr (.inl fun hlegible => by simpa [hrecord] using hlegible hblank)
    | some record => exact .inr (.inr ⟨record, hblank, rfl⟩)

theorem records_of_blank (h : Text.IsBlankText line) : records (line :: lines) = records lines := by
  have hnone : record? line = none := if_pos h
  rw [records, List.takeWhile_cons_of_pos (by simpa using isLegible_of_blank h),
    List.filterMap_cons_none hnone, records]

theorem records_of_record (hfilled : ¬ Text.IsBlankText line)
    (h : CaptureRecord.ofLine? line = some record) :
    records (line :: lines) = record :: records lines := by
  have hsome : record? line = some record := (if_neg hfilled).trans h
  rw [records, List.takeWhile_cons_of_pos (by simpa using isLegible_of_record h),
    List.filterMap_cons_some hsome, records]

theorem records_of_illegible (h : ¬ IsLegible line) : records (line :: lines) = [] := by
  rw [records, List.takeWhile_cons_of_neg (by simpa using h), List.filterMap_nil]

/-- There are as many records as lines that are not blank. -/
theorem length_records (h : ∀ line ∈ lines, IsLegible line) :
    (records lines).length = lines.countP fun line => ¬ Text.IsBlankText line := by
  induction lines with
  | nil => rfl
  | cons line rest ih =>
      obtain ⟨hline, hrest⟩ := List.forall_mem_cons.mp h
      rcases line_cases line with hblank | hillegible | ⟨record, hfilled, hrecord⟩
      · rw [records_of_blank hblank, ih hrest, List.countP_cons_of_neg (by simpa using hblank)]
      · exact absurd hline hillegible
      · rw [records_of_record hfilled hrecord, List.length_cons, ih hrest,
          List.countP_cons_of_pos (by simpa using hfilled)]

end

end Capture

namespace Replay

/-- Every id that some records ask for can be had when their turn comes. -/
def Survives (r : Replay) : List CaptureRecord → Prop
  | [] => True
  | record :: later => r.stopsAt record = false ∧ (r.apply record).Survives later

/-- Reads some lines, the first of which has a number. -/
def read (r : Replay) (number : Nat) (lines : List String) : Replay × Option ReplayFault :=
  r.feed ((lines.zipIdx number).filterMap Capture.number?)

section

variable {r : Replay} {line : String} {lines : List String} {record : CaptureRecord}

theorem feed_numbered (r : Replay) (text : String) :
    r.feed (Capture.numbered text) = r.read 1 (Text.lines text) := rfl

theorem read_of_blank (h : Text.IsBlankText line) (number : Nat) :
    r.read number (line :: lines) = r.read (number + 1) lines := by
  have hnone : Capture.number? (line, number) = none := if_pos h
  rw [read, List.zipIdx_cons, List.filterMap_cons_none hnone, read]

theorem read_of_illegible (h : ¬ Capture.IsLegible line) (number : Nat) :
    r.read number (line :: lines) = (r, some (.malformed number)) := by
  obtain ⟨hfilled, hnone⟩ := Classical.not_imp.mp h
  have hsome : Capture.number? (line, number) = some (number, line) := if_neg hfilled
  rw [read, List.zipIdx_cons, List.filterMap_cons_some hsome]
  unfold feed
  rw [Option.not_isSome_iff_eq_none.mp hnone]

theorem read_of_record (hfilled : ¬ Text.IsBlankText line)
    (h : CaptureRecord.ofLine? line = some record) (number : Nat) :
    r.read number (line :: lines) =
      if r.stopsAt record then (r, some .unformattable)
      else (r.apply record).read (number + 1) lines := by
  have hsome : Capture.number? (line, number) = some (number, line) := if_neg hfilled
  rw [read, List.zipIdx_cons, List.filterMap_cons_some hsome]
  unfold feed
  rw [h]
  rfl

/-- **Lines that are survived.**  The records are applied up to the first line that is not legible,
which is the fault that is reported. -/
theorem read_of_survives (h : r.Survives (Capture.records lines)) (number : Nat) :
    r.read number lines = ((Capture.records lines).foldl apply r,
      (lines.findIdx? (¬ Capture.IsLegible ·)).map fun i => .malformed (number + i)) := by
  induction lines generalizing r number with
  | nil => rfl
  | cons line rest ih =>
      have hshift : ((rest.findIdx? (¬ Capture.IsLegible ·)).map (· + 1)).map
          (fun i => ReplayFault.malformed (number + i)) =
            (rest.findIdx? (¬ Capture.IsLegible ·)).map fun i => .malformed (number + 1 + i) := by
        rw [Option.map_map]
        refine congrArg (Option.map · _) (funext fun i => congrArg ReplayFault.malformed ?_)
        exact (Nat.add_right_comm number 1 i).symm
      rw [List.findIdx?_cons]
      rcases Capture.line_cases line with hblank | hillegible | ⟨record, hfilled, hrecord⟩
      · rw [Capture.records_of_blank hblank] at h ⊢
        rw [read_of_blank hblank, ih h,
          if_neg (by simpa using Capture.isLegible_of_blank hblank), hshift]
      · rw [read_of_illegible hillegible, Capture.records_of_illegible hillegible,
          if_pos (by simpa using hillegible)]
        rfl
      · rw [Capture.records_of_record hfilled hrecord] at h ⊢
        rw [read_of_record hfilled hrecord, h.1, if_neg Bool.false_ne_true, ih h.2,
          if_neg (by simpa using Capture.isLegible_of_record hrecord), hshift, List.foldl_cons]

/-- Lines that are not survived. -/
theorem read_of_not_survives (h : ¬ r.Survives (Capture.records lines)) (number : Nat) :
    (r.read number lines).2 = some .unformattable := by
  induction lines generalizing r number with
  | nil => exact absurd trivial h
  | cons line rest ih =>
      rcases Capture.line_cases line with hblank | hillegible | ⟨record, hfilled, hrecord⟩
      · rw [Capture.records_of_blank hblank] at h
        rw [read_of_blank hblank, ih h]
      · rw [Capture.records_of_illegible hillegible] at h
        exact absurd trivial h
      · rw [Capture.records_of_record hfilled hrecord] at h
        rw [read_of_record hfilled hrecord]
        split
        next => rfl
        next hgoes => exact ih (fun hlater => h ⟨by simpa using hgoes, hlater⟩) (number + 1)

end

end Replay

/-! ## Ids that are asked for -/

/-- The template makes every id, or those that some records ask for are known. -/
def Session.Names (s : Session) (records : List CaptureRecord) : Prop :=
  s.fleet.settings.idFormat.fits = true ∨
    ∀ record ∈ records, ∀ index, record.index? = some index → index ∈ s.fleet.ids

namespace Replay

section

variable {r : Replay} {config : Config} {algorithms : List Algorithm}

/-- Calls that begin ask for no id. -/
theorem naming_startQueued (r : Replay) :
    r.startQueued.session.fleet.naming = r.session.fleet.naming := by
  have hbegins : ∀ (queue : List IssuedCommand) (s : Session),
      (queue.foldl (fun s c => s.begin true c.vehicle c.line) s).fleet.naming = s.fleet.naming := by
    intro queue s
    induction queue generalizing s with
    | nil => rfl
    | cons c rest ih => exact (ih _).trans (s.naming_begin true c.vehicle c.line)
  exact (Session.naming_settle _).trans (hbegins r.queued r.session)

theorem naming_pause (r : Replay) (millis : Nat) :
    (r.pause millis).session.fleet.naming = r.session.fleet.naming := by
  unfold pause
  split
  · rfl
  · exact (Session.naming_settle _).trans r.naming_startQueued

/-- **The indices that are known after a record:** those that were known, and the one whose id it
asks for. -/
theorem mem_ids_apply (r : Replay) (record : CaptureRecord) (index : UInt32) :
    index ∈ (r.apply record).session.fleet.ids ↔
      record.index? = some index ∨ index ∈ r.session.fleet.ids := by
  have hready : (r.pause (record.delay.getD 0).toNat).session.fleet.ids = r.session.fleet.ids :=
    congrArg (·.2) (r.naming_pause _)
  show index ∈ ((r.pause (record.delay.getD 0).toNat).act record.action).session.fleet.ids ↔ _
  rw [← hready]
  unfold CaptureRecord.index?
  cases record.action with
  | inbound source packet =>
      have hids : ((r.pause (record.delay.getD 0).toNat).session.step
          (.packet source packet)).fleet.ids =
            ((r.pause (record.delay.getD 0).toNat).session.turn
              (.event (.packet source packet))).fleet.ids :=
        congrArg (·.2) (Session.naming_settle _)
      show index ∈ ((r.pause (record.delay.getD 0).toNat).session.step
        (.packet source packet)).fleet.ids ↔ _
      rw [hids, Session.mem_ids_turn]
      rfl
  | command vehicle line =>
      have hids : ((r.pause (record.delay.getD 0).toNat).act
          (.command vehicle line)).session.fleet.ids =
            (r.pause (record.delay.getD 0).toNat).session.fleet.ids := by
        rw [act, issue_eq]
        dsimp only
        split
        · rfl
        · exact congrArg (·.2) (naming_startQueued _)
      simp [hids]

theorem stopsAt_eq_false_iff {record : CaptureRecord} :
    r.stopsAt record = false ↔
      ∀ index, record.index? = some index → r.session.fleet.canIdentify index = true := by
  unfold stopsAt CaptureRecord.index?
  cases record.action with
  | inbound source packet => rcases hindex : packet.index? with _ | index <;> simp [hindex]
  | command vehicle line => simp

theorem reachable_apply (h : r.session.Reachable config algorithms) (record : CaptureRecord) :
    (r.apply record).session.Reachable config algorithms :=
  reachable_act (reachable_pause h _) record.action

/-- **Which records are survived.**  What a record makes known it asks for itself, so for the
records behind it that makes no difference. -/
theorem survives_iff (h : r.session.Reachable config algorithms) (records : List CaptureRecord) :
    r.Survives records ↔ r.session.Names records := by
  induction records generalizing r with
  | nil => exact ⟨fun _ => .inr fun _ => nofun, fun _ => trivial⟩
  | cons record later ih =>
      have hsettings : (r.apply record).session.fleet.settings = r.session.fleet.settings :=
        (reachable_apply h record).identified.settings.trans h.identified.settings.symm
      rw [Survives, ih (reachable_apply h record), stopsAt_eq_false_iff]
      simp only [Fleet.canIdentify_iff, Template.isSome_format?_iff, Session.Names, hsettings,
        mem_ids_apply, List.forall_mem_cons]
      cases r.session.fleet.settings.idFormat.fits with
      | true => simp
      | false =>
        simp only [Bool.false_eq_true, or_false, false_or]
        refine and_congr_right fun hnow =>
          forall₂_congr fun other _ => forall₂_congr fun index _ => ?_
        exact ⟨fun hmem => hmem.elim (hnow index) id, .inr⟩

/-! ## Every record is counted -/

/-- The commands that were issued, each with its vehicle. -/
def commands (r : Replay) : List (VehicleId × String) :=
  r.issued.map fun c => (c.vehicle, c.line)

theorem counts_pause (r : Replay) (millis : Nat) :
    (r.pause millis).records = r.records ∧ (r.pause millis).outcomes = r.outcomes ∧
      (r.pause millis).issued = r.issued := by
  unfold pause
  split <;> exact ⟨rfl, rfl, rfl⟩

theorem counts_issue (r : Replay) (vehicle : VehicleId) (line : String) :
    (r.issue vehicle line).records = r.records ∧ (r.issue vehicle line).outcomes = r.outcomes ∧
      (r.issue vehicle line).issued = r.issued ++ [r.command vehicle line] := by
  refine ⟨?_, ?_, r.issued_issue vehicle line⟩
  all_goals
    rw [issue_eq]
    dsimp only
    split <;> rfl

/-- **A record is counted once,** and is a packet with an outcome or a command that is issued. -/
theorem counts_apply (r : Replay) (record : CaptureRecord) :
    (r.apply record).records = r.records + 1 ∧
      (r.apply record).outcomes.total + (r.apply record).issued.length =
        r.outcomes.total + r.issued.length + 1 ∧
      (r.apply record).commands = r.commands ++ record.command?.toList := by
  obtain ⟨hrecords, houtcomes, hissued⟩ := r.counts_pause (record.delay.getD 0).toNat
  unfold apply commands CaptureRecord.command?
  rw [← hrecords, ← houtcomes, ← hissued]
  dsimp only
  cases record.action with
  | inbound source packet =>
      refine ⟨rfl, ?_, (List.append_nil _).symm⟩
      rw [act, inbound]
      dsimp only
      rw [Tally.total_bump]
      omega
  | command vehicle line =>
      obtain ⟨hsame, hseen, hissue⟩ :=
        (r.pause (record.delay.getD 0).toNat).counts_issue vehicle line
      rw [act, hsame, hseen, hissue, List.length_append, List.map_append]
      exact ⟨rfl, rfl, rfl⟩

theorem counts_applies (r : Replay) (records : List CaptureRecord) :
    (records.foldl apply r).records = r.records + records.length ∧
      (records.foldl apply r).outcomes.total + (records.foldl apply r).issued.length =
        r.outcomes.total + r.issued.length + records.length ∧
      (records.foldl apply r).commands =
        r.commands ++ records.filterMap CaptureRecord.command? := by
  induction records generalizing r with
  | nil => exact ⟨rfl, rfl, (List.append_nil _).symm⟩
  | cons record later ih =>
      obtain ⟨hrecords, htotal, hcommands⟩ := ih (r.apply record)
      obtain ⟨hrecord, hone, hcommand⟩ := r.counts_apply record
      refine ⟨?_, ?_, ?_⟩
      · rw [List.foldl_cons, hrecords, hrecord, List.length_cons]
        omega
      · rw [List.foldl_cons, htotal, hone, List.length_cons]
        omega
      · rw [List.foldl_cons, hcommands, hcommand, List.append_assoc]
        cases hcase : record.command? with
        | none => rw [List.filterMap_cons_none hcase, Option.toList_none, List.nil_append]
        | some command => rw [List.filterMap_cons_some hcase]; rfl

end

end Replay

/-! ## The account -/

/-- What is printed of a command: the vehicle, the line, and either a response or an error. -/
inductive Printed (vehicle : VehicleId) (line : String) : CallResult → Json.Value → Prop
  | response (text : String) : Printed vehicle line (.ok text)
      (.object
        [("vehicle", .string vehicle), ("command", .string line), ("response", .string text)])
  | error (fault : CallFault) : Printed vehicle line (.error fault)
      (.object [("vehicle", .string vehicle), ("command", .string line),
        ("error", .string fault.message)])

theorem CommandReport.printed (report : CommandReport) :
    Printed report.vehicle report.line report.result (Report.command report) := by
  obtain ⟨vehicle, line, result⟩ := report
  cases result with
  | ok text => exact .response text
  | error fault => exact .error fault

namespace Replay

/-- The records of some lines are accounted for, when they were applied in a session. -/
structure Accounts (session : Session) (lines : List String) (r : Replay) : Prop where
  /-- There is a record in every line that is not blank. -/
  count : r.summary.records = lines.countP fun line => ¬ Text.IsBlankText line
  /-- It is a packet with an outcome, or a command with a report. -/
  sum : r.summary.records = r.summary.outcomes.total + r.summary.commands.length
  /-- The reports stand in the order of the commands.  Each tells what its own call came to, and the
  calls have the numbers from the session's next one on. -/
  commands : List.Forall₂
    (fun c report => Printed c.1.1 c.1.2 report.result (Report.command report) ∧
      (c.2, report.result) ∈ r.session.results)
    (((Capture.records lines).filterMap CaptureRecord.command?).zipIdx session.next)
    r.summary.commands

section

variable {session : Session} {config : Config} {algorithms : List Algorithm}

/-- **Every record is accounted for in the end.** -/
theorem accounts_finish (hs : session.Reachable config algorithms) {lines : List String}
    (hlegible : ∀ line ∈ lines, Capture.IsLegible line) :
    Accounts session lines ((Capture.records lines).foldl apply (new session)).finish := by
  have hreached : Reached session ((Capture.records lines).foldl apply (new session)) :=
    Reached.new.applies _
  obtain ⟨hrecords, htotal, hcommands⟩ := (new session).counts_applies (Capture.records lines)
  have hnumbered := (hreached.tracked hs).numbered
  have hended := ended_finish hs hreached
  generalize (Capture.records lines).foldl apply (new session) = r at *
  have hlength : r.records = (Capture.records lines).length := hrecords.trans (Nat.zero_add _)
  have hissued : r.issued = (((Capture.records lines).filterMap
      CaptureRecord.command?).zipIdx session.next).map fun c => ⟨c.2, c.1.1, c.1.2⟩ := by
    have hnamed : (r.issued.map fun c => (c.vehicle, c.line)) =
        (Capture.records lines).filterMap CaptureRecord.command? := hcommands
    rw [← hnamed]
    exact hnumbered.eq_map
  have hreports := forall₂_reports (r := r.finish) hended
  refine ⟨hlength.trans (Capture.length_records hlegible), ?_, ?_⟩
  · have hall : r.outcomes.total + r.issued.length = (Capture.records lines).length := by
      rw [htotal]
      simp [new]
    show r.records = r.outcomes.total + r.finish.reports.length
    rw [← hreports.length_eq, hlength, ← hall]
    rfl
  · have hown : r.finish.issued = r.issued := rfl
    rw [hown, hissued, List.forall₂_map_left_iff] at hreports
    refine hreports.imp fun c report => ?_
    rintro ⟨hvehicle, hline, hresult⟩
    have hprinted := report.printed
    rw [show report.vehicle = c.1.1 from hvehicle, show report.line = c.1.2 from hline] at hprinted
    exact ⟨hprinted, hresult⟩

/-- A replay that is survived fails for the first line that is not legible, if there is one. -/
theorem run_of_names (hs : session.Reachable config algorithms) {text : String}
    (h : session.Names (Capture.records (Text.lines text))) :
    let left := (Capture.records (Text.lines text)).foldl apply (new session)
    ((new session).feed (Capture.numbered text)).1 = left ∧
      run session text =
        ((Text.lines text).findIdx? (¬ Capture.IsLegible ·)).elim (.ok left.finish)
          fun i => .error (.malformed (i + 1)) := by
  intro left
  have hread := read_of_survives ((survives_iff (r := new session) hs _).mpr h) 1
  unfold run
  rw [feed_numbered, hread]
  refine ⟨rfl, ?_⟩
  cases (Text.lines text).findIdx? (¬ Capture.IsLegible ·) with
  | none => rfl
  | some i => exact congrArg (fun n => Except.error (ReplayFault.malformed n)) (Nat.add_comm 1 i)

theorem run_of_not_names (hs : session.Reachable config algorithms) {text : String}
    (h : ¬ session.Names (Capture.records (Text.lines text))) :
    run session text = .error .unformattable := by
  have hread :=
    read_of_not_survives (fun hall => h ((survives_iff (r := new session) hs _).mp hall)) 1
  unfold run
  rw [feed_numbered]
  rcases hresult : (new session).read 1 (Text.lines text) with ⟨r, fault⟩
  rw [hresult] at hread
  obtain rfl : fault = some .unformattable := hread
  rfl

/-- **A replay accounts for every record.**  In every session that can be reached, a capture is
replayed, or a line is reported, if every id that its records ask for can be had; otherwise the
program does not survive it.  With a template that can be formatted the latter never happens.

A capture is replayed exactly if all its lines are legible.  There are then as many records as
lines that are not blank, as many as there are outcomes of packets and reports of commands
together, and the reports are those of the commands, in the order of the capture, each with a
response or an error.  Otherwise the first line that is not legible is reported by its number among
all lines, the first one being number one, and the records in front of it have been applied in
their order, and no others. -/
theorem run_accounts (hs : session.Reachable config algorithms) (text : String) :
    let lines := Text.lines text
    let records := Capture.records lines
    (¬ session.Names records → run session text = .error .unformattable) ∧
    (session.Names records →
      ((∃ r, run session text = .ok r) ↔ ∀ line ∈ lines, Capture.IsLegible line) ∧
      (∀ r, run session text = .ok r → Accounts session lines r) ∧
      ∀ fault, run session text = .error fault → ∃ i,
        lines.findIdx? (¬ Capture.IsLegible ·) = some i ∧ fault = .malformed (i + 1) ∧
          ((new session).feed (Capture.numbered text)).1 = records.foldl apply (new session)) := by
  intro lines records
  refine ⟨run_of_not_names hs, fun hnames => ?_⟩
  obtain ⟨hleft, hrun⟩ := run_of_names hs hnames
  have hlegible : lines.findIdx? (¬ Capture.IsLegible ·) = none ↔
      ∀ line ∈ lines, Capture.IsLegible line := by
    simp [List.findIdx?_eq_none_iff]
  rw [hrun, ← hlegible]
  cases hfind : lines.findIdx? (¬ Capture.IsLegible ·) with
  | none =>
      refine ⟨⟨fun _ => rfl, fun _ => ⟨_, rfl⟩⟩, fun r hok => ?_, fun fault => nofun⟩
      rw [← Except.ok.inj hok]
      exact accounts_finish hs (hlegible.mp hfind)
  | some i =>
      refine ⟨⟨nofun, nofun⟩, fun r => nofun, fun fault hfault => ?_⟩
      exact ⟨i, rfl, (Except.error.inj hfault).symm, hleft⟩

end

end Replay

/-- A line with a command. -/
private def commandLine : String :=
  "\x7b\"action\":\"command\",\"vehicle\":\"01\",\"command\":\"land\"\x7d"

/-- The record in it. -/
private def landing : CaptureRecord := ⟨none, .command "01" "land"⟩

private theorem ofLine?_commandLine : CaptureRecord.ofLine? commandLine = some landing := by
  decide +kernel

/-- Behind a blank line and a command, the third line is reported, and the command was issued. -/
theorem third_line_reported :
    let session := Session.new .standard []
    let text := "\n" ++ commandLine ++ "\nland\n"
    session.Reachable .standard [] ∧ session.Names (Capture.records (Text.lines text)) ∧
      (∃ r, Replay.run session commandLine = .ok r) ∧
      (∀ r, Replay.run session text ≠ .ok r) ∧
      ∀ fault, Replay.run session text = .error fault → fault = .malformed 3 ∧
        ((Replay.new session).feed (Capture.numbered text)).1 =
          (Replay.new session).apply landing := by
  intro session text
  have hreach : session.Reachable .standard [] := .new
  have hnames : ∀ records, session.Names records := fun _ => .inl Template.standard_fits
  have hlines : Text.lines text = ["", commandLine, "land", ""] := by decide +kernel
  have hsingle : Text.lines commandLine = [commandLine] := by decide +kernel
  have hblank : Text.IsBlankText "" := by decide
  have hcommand : ¬ Text.IsBlankText commandLine := by decide +kernel
  have hlegible : Capture.IsLegible commandLine := Capture.isLegible_of_record ofLine?_commandLine
  have hillegible : ¬ Capture.IsLegible "land" := by decide +kernel
  have hempty : Capture.IsLegible "" := Capture.isLegible_of_blank hblank
  have hthird : (Text.lines text).findIdx? (¬ Capture.IsLegible ·) = some 2 := by
    rw [hlines]
    simp [List.findIdx?_cons, hempty, hlegible, hillegible]
  have hread : Capture.records (Text.lines text) = [landing] := by
    rw [hlines, Capture.records_of_blank hblank,
      Capture.records_of_record hcommand ofLine?_commandLine,
      Capture.records_of_illegible hillegible]
  obtain ⟨hiff, -, hfault⟩ := (Replay.run_accounts hreach text).2 (hnames _)
  have hreplayed := ((Replay.run_accounts hreach commandLine).2 (hnames _)).1
  refine ⟨hreach, hnames _, hreplayed.mpr ?_, fun r hok => ?_, fun fault herror => ?_⟩
  · rw [hsingle]
    exact List.forall_mem_singleton.mpr hlegible
  · exact hillegible (hiff.mp ⟨r, hok⟩ "land" (by rw [hlines]; simp))
  · obtain ⟨i, hi, rfl, hleft⟩ := hfault fault herror
    obtain rfl : 2 = i := Option.some.inj (hthird.symm.trans hi)
    refine ⟨rfl, ?_⟩
    rw [hleft, hread]
    rfl

/-- A fleet with a configuration that is accepted replays every capture whose lines are legible. -/
def AlwaysReplayed : Prop :=
  ∀ (toml : String) (config : Config), Config.ofText toml = .ok config →
    ∀ (algorithms : List Algorithm) (text : String),
      (∀ line ∈ Text.lines text, Capture.IsLegible line) →
        ∃ r, Replay.run (.new config algorithms) text = .ok r

/-- A line with a status. -/
private def statusLine : String :=
  "\x7b\"action\":\"inbound\",\"source\":\x7b\"medium\":\"wireless\",\"address\":\"a\"\x7d," ++
    "\"packet\":\x7b\"kind\":\"status\",\"data\":\x7b\"id\":7,\"location\":" ++
      "\x7b\"lat\":0,\"lon\":0\x7d\x7d\x7d\x7d"

/-- **A capture that can be read and is not replayed:** one status, and a template that asks for one
column too many. -/
theorem not_alwaysReplayed : ¬ AlwaysReplayed := by
  intro halways
  let config : Config := .withFormat .tooWide
  have hreach : (Session.new config []).Reachable config [] := .new
  have hasks : (CaptureRecord.ofLine? statusLine).map (·.index?) = some (some 7) := by
    decide +kernel
  obtain ⟨record, hrecord, hindex⟩ := Option.map_eq_some_iff.mp hasks
  have hlines : Text.lines statusLine = [statusLine] := by decide +kernel
  have hblank : ¬ Text.IsBlankText statusLine := by decide +kernel
  have hread : Capture.records (Text.lines statusLine) = [record] := by
    rw [hlines, Capture.records_of_record hblank hrecord]
    rfl
  have hnames : ¬ (Session.new config []).Names [record] := by
    rintro (hfits | hknown)
    · exact Bool.false_ne_true (Template.tooWide_fits.symm.trans hfits)
    · exact Std.ExtTreeMap.not_mem_empty (hknown record List.mem_cons_self 7 hindex)
  obtain ⟨r, hok⟩ := halways _ _ Config.ofText_tooWide [] statusLine <| by
    rw [hlines]
    exact List.forall_mem_singleton.mpr (Capture.isLegible_of_record hrecord)
  rw [← hread] at hnames
  rw [Replay.run_of_not_names hreach hnames] at hok
  cases hok

end FleetLink
