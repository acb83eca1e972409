import Mathlib.Data.List.Forall2
import FleetLink.Proofs.Session.Sending
import FleetLink.Proofs.Text.Utf8

/-!
# Generic commands are unambiguous

A generic command becomes one text before it is sent, and from then on only the text counts.  This
module proves that **nothing is lost on the way**: the outbox reads back the line that was built,
and the line still shows where each argument begins and ends.

**The line is cut at single blanks,** those that set the arguments apart (`pieces`).  A cut at any
run of blanks would lose the empty arguments.  What comes back are the arguments exactly if none of
them holds the blank, and that is why `validate` refuses such arguments.  A command may hold blanks;
the arguments are what follows it.

**Calls are made at the same time,** so the lines are not in the order of the calls but in the order
in which the link took their packets (`Exchange.forall₂_lines`).

## Main Statements

* `CommandLine.pieces`, `pieces_intercalate` — texts set apart by blanks, read back
* `Fleet.outbox_call` — what a call hands over
* `Exchange.forall₂_lines` — the lines that are read back after a run, and their calls
* `CommandLine.Unambiguous`, `generic_unambiguous` — a command that was accepted, from the
  arguments to the outbox
-/

namespace FleetLink

namespace CommandLine

/-! ## Reading a line -/

/-- What stands between the blanks of a text, and in front of the first and behind the last. -/
def pieces (text : String) : List String :=
  (text.toList.splitOn ' ').map String.ofList

/-- **Texts set apart by single blanks** are read back, if none of them holds one. -/
theorem pieces_intercalate {texts : List String} (hsome : texts ≠ [])
    (hfree : ∀ text ∈ texts, ' ' ∉ text.toList) : pieces (" ".intercalate texts) = texts := by
  have hsplit : List.splitOn ' ' ([' '].intercalate (texts.map String.toList)) =
      texts.map String.toList := by
    refine List.splitOn_intercalate ' ' ?_ (by simpa using hsome)
    intro chars hchars
    obtain ⟨text, htext, rfl⟩ := List.mem_map.mp hchars
    exact hfree text htext
  have hlist : (" ".intercalate texts).toList = [' '].intercalate (texts.map String.toList) :=
    String.toList_intercalate
  rw [pieces, hlist, hsplit, List.map_map]
  exact (List.map_congr_left fun text _ => String.ofList_toList).trans (List.map_id _)

/-- What follows the command are the blanks and the arguments. -/
theorem generic_eq_append (command : String) (args : List String) :
    generic command args = command ++ generic "" args := by
  apply String.toList_inj.mp
  simp only [generic, String.toList_append, String.toList_intercalate, List.map_cons]
  cases args <;> simp [List.intercalate]

/-- An accepted command has no blank in an argument. -/
theorem validate_eq_ok_iff {command : String} {args : List String}
    {keywords : List (String × String)} :
    validate command args keywords = .ok () ↔
      ¬ Text.IsBlankText command ∧ keywords = [] ∧ ∀ arg ∈ args, Text.hasBlank arg = false := by
  unfold validate
  split
  next hblank => simp [hblank]
  next hblank =>
    split
    next hkeywords => simp [hkeywords]
    next hkeywords =>
      split
      next hany => simpa [hblank, not_not.mp hkeywords] using hany
      next hnone => simpa [hblank, not_not.mp hkeywords] using hnone

/-- The blank that sets arguments apart is among those that `validate` looks for. -/
theorem space_not_mem {text : String} (hfree : Text.hasBlank text = false) :
    ' ' ∉ text.toList := by
  intro hspace
  have hnone := List.any_eq_false.mp hfree ' ' hspace
  exact hnone Text.isBlank_space

/-- **What follows the command shows the arguments,** the empty ones among them. -/
theorem pieces_following {args : List String} (hfree : ∀ arg ∈ args, Text.hasBlank arg = false) :
    pieces (generic "" args) = "" :: args := by
  refine pieces_intercalate (List.cons_ne_nil _ _) ?_
  rintro text (_ | ⟨_, hmem⟩)
  · exact List.not_mem_nil
  · exact space_not_mem (hfree text hmem)

/-- Lines that start with the same command have the same arguments if they are the same. -/
theorem args_eq_of_generic_eq {command : String} {args others : List String}
    (hargs : ∀ arg ∈ args, Text.hasBlank arg = false)
    (hothers : ∀ arg ∈ others, Text.hasBlank arg = false)
    (hline : generic command others = generic command args) : others = args := by
  rw [generic_eq_append command others, generic_eq_append command args] at hline
  have hfollowing : generic "" others = generic "" args :=
    String.append_right_inj command |>.mp hline
  have hpieces := congrArg pieces hfollowing
  rw [pieces_following hargs, pieces_following hothers] at hpieces
  exact (List.cons.inj hpieces).2

/-- Lines are told apart by the packets that carry them. -/
theorem packet_inj {line other : String} (hpacket : packet other = packet line) : other = line := by
  have hbytes : Text.encode other = Text.encode line := Packet.commandRequest.inj hpacket
  rw [← Text.decodeLossy_encode other, hbytes, Text.decodeLossy_encode]

end CommandLine

/-! ## What the outbox reads back -/

namespace Outbox

/-- Packets that carry lines are read back as these lines. -/
theorem lines_of_forall₂ {sent : List SentPacket} {lines : List String}
    (hcarry : List.Forall₂ (fun s line => s.packet = CommandLine.packet line) sent lines)
    (failing : Bool) : (⟨failing, sent⟩ : Outbox).lines = lines := by
  induction hcarry with
  | nil => rfl
  | @cons s line sent lines hpacket _ ih =>
      have hread : (⟨failing, s :: sent⟩ : Outbox).lines =
          line :: (⟨failing, sent⟩ : Outbox).lines := by
        simp only [Outbox.lines, List.filterMap_cons, hpacket, CommandLine.packet,
          Text.decodeLossy_encode]
      rw [hread, ih]

/-- What is sent last is read back last. -/
theorem lines_of_sent {o sending : Outbox} {destination : Source} {line : String}
    (hsent : sending.sent = o.sent ++ [⟨destination, CommandLine.packet line⟩]) :
    sending.lines = o.lines ++ [line] := by
  simp [Outbox.lines, hsent, CommandLine.packet, Text.decodeLossy_encode]

end Outbox

/-- **What a call hands over** is one packet, which is read back as its line; or the call ends with
a fault and hands over nothing. -/
theorem Fleet.outbox_call (f : Fleet) (now : Nat) (vehicle : VehicleId) (line : String) :
    (∃ slot destination, (f.call now vehicle line).2 = .ok slot ∧
        f.preferred? vehicle = some destination ∧
        (f.call now vehicle line).1.outbox.sent =
          f.outbox.sent ++ [⟨destination, CommandLine.packet line⟩] ∧
        (f.call now vehicle line).1.outbox.lines = f.outbox.lines ++ [line]) ∨
      ∃ fault, (f.call now vehicle line).2 = .error fault ∧
        (f.call now vehicle line).1.outbox.sent = f.outbox.sent := by
  obtain ⟨hsent, hkept⟩ := f.sent_call now vehicle line
  cases hcall : (f.call now vehicle line).2 with
  | ok slot =>
      obtain ⟨destination, hpreferred, hsends⟩ := hkept slot hcall
      rw [hsends, Option.toList_some] at hsent
      exact .inl ⟨slot, destination, rfl, hpreferred, hsent, Outbox.lines_of_sent hsent⟩
  | error fault =>
      have hnone : f.sends? now vehicle line = none := by rw [Fleet.sends?, hcall]
      rw [hnone, Option.toList_none, List.append_nil] at hsent
      exact .inr ⟨fault, rfl, hsent⟩

namespace Exchange

variable {config : Config} {algorithms : List Algorithm} {steps : List Step}

/-- Who was sent something made a call, and its line is what was sent. -/
theorem made_of_sent {id : CallId} {p : SentPacket}
    (hsent : (id, p) ∈ (new config algorithms).log sent? steps) :
    ∃ vehicle line, (id, vehicle, line) ∈ (new config algorithms).log made? steps ∧
      p.packet = CommandLine.packet line := by
  have hall := sentOnce config algorithms steps
  obtain ⟨front, back, call, hsteps, hwaits⟩ := hall.waits id p hsent
  obtain ⟨line, destination, hown, hmade, -⟩ := hall.sent front back id call hsteps hwaits
  have hsame : p = ⟨destination, .commandRequest (Text.encode line)⟩ :=
    congrArg Prod.snd (List.inj_on_of_nodup_map hall.once hsent hown rfl)
  exact ⟨call.vehicle, line, hmade, by rw [hsame]; rfl⟩

/-- **The lines that are read back** are those of the calls whose packets the link took, in the
order in which it took them. -/
theorem forall₂_lines (config : Config) (algorithms : List Algorithm) (steps : List Step) :
    List.Forall₂
      (fun sent line => sent.2.packet = CommandLine.packet line ∧
        ∃ vehicle, (sent.1, vehicle, line) ∈ (new config algorithms).log made? steps)
      ((new config algorithms).log sent? steps)
      ((new config algorithms).run steps).session.fleet.outbox.lines := by
  have hmade : ∀ sent ∈ (new config algorithms).log sent? steps, ∃ line,
      sent.2.packet = CommandLine.packet line ∧
        ∃ vehicle, (sent.1, vehicle, line) ∈ (new config algorithms).log made? steps := by
    rintro ⟨id, p⟩ hsent
    obtain ⟨vehicle, line, hmade, hpacket⟩ := made_of_sent hsent
    exact ⟨line, hpacket, vehicle, hmade⟩
  choose! line hline using hmade
  have hread : ((new config algorithms).run steps).session.fleet.outbox.lines =
      ((new config algorithms).log sent? steps).map line := by
    refine Outbox.lines_of_forall₂ ?_
      ((new config algorithms).run steps).session.fleet.outbox.failing
    rw [(sentOnce config algorithms steps).outbox, List.forall₂_map_left_iff,
      List.forall₂_map_right_iff]
    exact List.forall₂_same.mpr fun sent hsent => (hline sent hsent).1
  rw [hread, List.forall₂_map_right_iff]
  exact List.forall₂_same.mpr hline

/-- The packet of a call that was sent, and what is read back of it, stand at one place. -/
theorem getElem?_lines {place : Nat} {id : CallId} {vehicle : VehicleId} {line : String}
    {p : SentPacket} (hmade : (id, vehicle, line) ∈ (new config algorithms).log made? steps)
    (hsent : ((new config algorithms).log sent? steps)[place]? = some (id, p)) :
    ((new config algorithms).run steps).session.fleet.outbox.sent[place]? = some p ∧
      p.packet = CommandLine.packet line ∧
      ((new config algorithms).run steps).session.fleet.outbox.lines[place]? = some line := by
  have hall := sentOnce config algorithms steps
  have houtbox :
      ((new config algorithms).run steps).session.fleet.outbox.sent[place]? = some p := by
    rw [hall.outbox, List.getElem?_map, hsent]
    rfl
  obtain ⟨hlength, hget⟩ := List.forall₂_iff_get.mp (forall₂_lines config algorithms steps)
  simp only [List.get_eq_getElem] at hget
  obtain ⟨hplace, hsame⟩ := List.getElem?_eq_some_iff.mp hsent
  obtain ⟨hpacket, own, hown⟩ := hget place hplace (hlength ▸ hplace)
  rw [hsame] at hpacket hown
  -- The call has one line only, so the one that is read back is the one that it was made with.
  have hline : ((new config algorithms).run steps).session.fleet.outbox.lines[place] = line :=
    congrArg (·.2.2) (List.inj_on_of_nodup_map hall.numbered hown hmade rfl)
  rw [hline] at hpacket
  exact ⟨houtbox, hpacket, List.getElem?_eq_some_iff.mpr ⟨hlength ▸ hplace, hline⟩⟩

end Exchange

/-! ## From the arguments to the outbox -/

namespace CommandLine

/-- What is sent for a command and its arguments is what was meant. -/
structure Unambiguous (command : String) (args : List String) : Prop where
  /-- Whatever there is, a call hands over one packet and the line is read back behind the others,
  or the call ends with a fault and hands over nothing. -/
  called : ∀ (f : Fleet) (now : Nat) (vehicle : VehicleId),
    (∃ slot destination, (f.call now vehicle (generic command args)).2 = .ok slot ∧
        f.preferred? vehicle = some destination ∧
        (f.call now vehicle (generic command args)).1.outbox.sent =
          f.outbox.sent ++ [⟨destination, packet (generic command args)⟩] ∧
        (f.call now vehicle (generic command args)).1.outbox.lines =
          f.outbox.lines ++ [generic command args]) ∨
      ∃ fault, (f.call now vehicle (generic command args)).2 = .error fault ∧
        (f.call now vehicle (generic command args)).1.outbox.sent = f.outbox.sent
  /-- Among calls that are made at the same time, what is read back of a call that was sent stands
  at the place of its packet. -/
  sent : ∀ (config : Config) (algorithms : List Algorithm) (steps : List Exchange.Step)
    (place : Nat) (id : CallId) (vehicle : VehicleId) (p : SentPacket),
    (id, vehicle, generic command args) ∈
      (Exchange.new config algorithms).log Exchange.made? steps →
    ((Exchange.new config algorithms).log Exchange.sent? steps)[place]? = some (id, p) →
      ((Exchange.new config algorithms).run steps).session.fleet.outbox.sent[place]? = some p ∧
        p.packet = packet (generic command args) ∧
        ((Exchange.new config algorithms).run steps).session.fleet.outbox.lines[place]? =
          some (generic command args)
  /-- The line starts with the command, and what follows shows the arguments.  The piece in front of
  them is what stands before the first blank. -/
  parted : ∃ following, generic command args = command ++ following ∧
    pieces following = "" :: args
  /-- No other arguments that are accepted with the command have the line, or the packet. -/
  alone : ∀ (others : List String) (keywords : List (String × String)),
    validate command others keywords = .ok () → others ≠ args →
      generic command others ≠ generic command args ∧
        packet (generic command others) ≠ packet (generic command args)

/-- **A command that was accepted is unambiguous.** -/
theorem generic_unambiguous {command : String} {args : List String}
    {keywords : List (String × String)} (haccepted : validate command args keywords = .ok ()) :
    Unambiguous command args := by
  obtain ⟨-, -, hfree⟩ := validate_eq_ok_iff.mp haccepted
  constructor
  · exact fun f now vehicle => f.outbox_call now vehicle (generic command args)
  · exact fun _ _ _ _ _ _ _ hmade hsent => Exchange.getElem?_lines hmade hsent
  · exact ⟨generic "" args, generic_eq_append command args, pieces_following hfree⟩
  · intro others keywords' hothers hne
    obtain ⟨-, -, hfreeothers⟩ := validate_eq_ok_iff.mp hothers
    have hline : generic command others ≠ generic command args :=
      fun heq => hne (args_eq_of_generic_eq hfree hfreeothers heq)
    exact ⟨hline, fun heq => hline (packet_inj heq)⟩

/-- Empty arguments, one of them at the end, and letters that take more than a byte. -/
theorem unambiguous_empty_args : validate "set alt" ["", "név", ""] [] = .ok () ∧
    Unambiguous "set alt" ["", "név", ""] :=
  ⟨by decide, @generic_unambiguous _ _ [] (by decide)⟩

end CommandLine

end FleetLink
