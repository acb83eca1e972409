import FleetLink.Assembler

/-!
# What a buffer holds

A buffer is filled chunk by chunk.  What it holds in the end can be said without running anything:
**for every index, the body of the first chunk with that index.**  `gathered` is the buffer
described so, from the chunks that were heard alone, and filling a described buffer with one more
chunk gives the described buffer with one more chunk heard.  That a buffer knows by a counter
whether it is complete, and not by its places, makes no difference.

## Main Statements

* `Chunk.IsSound` — the header of a chunk makes sense
* `firstBody?`, `assembled` — the body that counts for an index, and all of them in order
* `AssemblyBuffer.gathered` — the buffer of the chunks that were heard
* `fill?_gathered`, `gathered_concat_of_known` — one more chunk
* `isComplete_gathered_iff`, `bytes_gathered` — when it is complete, and with what
-/

namespace FleetLink

/-- The header of a chunk makes sense: there are parts, and it is one of them. -/
def Chunk.IsSound (c : Chunk) : Prop := 0 < c.total ∧ c.index < c.total

instance (c : Chunk) : Decidable c.IsSound :=
  inferInstanceAs (Decidable (0 < c.total ∧ c.index < c.total))

theorem Chunk.IsSound.toNat_lt {c : Chunk} (h : c.IsSound) : c.index.toNat < c.total.toNat :=
  UInt8.lt_iff_toNat_lt.mp h.2

/-- If there are parts and the header makes no sense, then it is none of them. -/
theorem Chunk.total_le_index {c : Chunk} (h : ¬ c.IsSound) (hparts : c.total ≠ 0) :
    c.total ≤ c.index := by
  rw [← UInt8.not_lt]
  exact fun hlt => h ⟨UInt8.pos_iff_ne_zero.mpr hparts, hlt⟩

/-- The body that counts for an index: that of the first chunk with it. -/
def firstBody? (chunks : List Chunk) (index : Nat) : Option (List UInt8) :=
  (chunks.find? fun c => c.index.toNat = index).map (·.body)

@[simp] theorem firstBody?_nil (index : Nat) : firstBody? [] index = none := rfl

theorem firstBody?_concat (chunks : List Chunk) (c : Chunk) (index : Nat) :
    firstBody? (chunks ++ [c]) index =
      (firstBody? chunks index).or (if c.index.toNat = index then some c.body else none) := by
  unfold firstBody?
  rw [List.find?_append]
  cases chunks.find? fun c => c.index.toNat = index with
  | some found => simp
  | none =>
      by_cases h : c.index.toNat = index
      · simp [h]
      · simp [h]

theorem firstBody?_isSome_iff (chunks : List Chunk) (index : Nat) :
    (firstBody? chunks index).isSome = true ↔ ∃ c ∈ chunks, c.index.toNat = index := by
  simp [firstBody?]

/-- Every index of a response of so many chunks was heard. -/
def Covers (total : UInt8) (chunks : List Chunk) : Prop :=
  ∀ index < total.toNat, ∃ c ∈ chunks, c.index.toNat = index

/-- The bodies that count, index by index. -/
def assembled (total : UInt8) (chunks : List Chunk) : List UInt8 :=
  (List.range total.toNat).flatMap fun index => (firstBody? chunks index).getD []

namespace AssemblyBuffer

/-- The places of a response whose chunks were heard, of which there are so many. -/
def places (total : UInt8) (chunks : List Chunk) : List (Option (List UInt8)) :=
  (List.range total.toNat).map (firstBody? chunks)

/-- The buffer that was opened for a chunk and heard some chunks since, that chunk among them. -/
def gathered (first : Chunk) (compressed : Bool) (firstSeen : Nat) (chunks : List Chunk) :
    AssemblyBuffer where
  sequence := first.sequence
  compressed := compressed
  slots := places first.total chunks
  received := (places first.total chunks).countP (·.isSome)
  firstSeen := firstSeen

@[simp] theorem length_places (total : UInt8) (chunks : List Chunk) :
    (places total chunks).length = total.toNat := by
  simp [places]

theorem getElem?_places (total : UInt8) (chunks : List Chunk) {index : Nat}
    (h : index < total.toNat) : (places total chunks)[index]? = some (firstBody? chunks index) := by
  simp [places, h]

/-- A free place that is filled is one more that is filled. -/
theorem countP_set_of_free {slots : List (Option (List UInt8))} {index : Nat}
    (h : slots[index]? = some none) (body : List UInt8) :
    (slots.set index (some body)).countP (·.isSome) = slots.countP (·.isSome) + 1 := by
  obtain ⟨hlt, hfree⟩ := List.getElem?_eq_some_iff.mp h
  rw [List.countP_set hlt, hfree]
  simp

section

variable {first : Chunk} {compressed : Bool} {firstSeen : Nat} {chunks : List Chunk} {c : Chunk}

/-- A buffer that was opened has heard nothing yet. -/
theorem opened_eq_gathered (first : Chunk) (compressed : Bool) (now : Nat) :
    opened first compressed now = gathered first compressed now [] := by
  have hplaces : places first.total [] = List.replicate first.total.toNat none := by
    rw [places, List.eq_replicate_iff]
    simp
  simp [opened, gathered, hplaces, List.countP_replicate]

/-- A place that is taken stays as it is. -/
theorem places_concat_of_known (total : UInt8)
    (known : (firstBody? chunks c.index.toNat).isSome = true) :
    places total (chunks ++ [c]) = places total chunks := by
  refine List.map_congr_left fun index _ => ?_
  rw [firstBody?_concat]
  by_cases h : c.index.toNat = index
  · subst h
    obtain ⟨body, hbody⟩ := Option.isSome_iff_exists.mp known
    rw [hbody]
    rfl
  · simp [h]

/-- A place that is free gets the body. -/
theorem places_concat_of_missing (total : UInt8)
    (missing : firstBody? chunks c.index.toNat = none) :
    places total (chunks ++ [c]) = (places total chunks).set c.index.toNat (some c.body) := by
  refine List.ext_getElem? fun index => ?_
  rw [List.getElem?_set, length_places]
  by_cases hlt : index < total.toNat
  · rw [getElem?_places total _ hlt, getElem?_places total _ hlt, firstBody?_concat]
    by_cases h : c.index.toNat = index
    · subst h
      simp [missing, hlt]
    · simp [h]
  · have hle : total.toNat ≤ index := Nat.le_of_not_lt hlt
    rw [List.getElem?_eq_none (by simpa using hle), List.getElem?_eq_none (by simpa using hle)]
    by_cases h : c.index.toNat = index
    · simp [h, hlt]
    · simp [h]

/-- A chunk whose index is known adds nothing. -/
theorem gathered_concat_of_known (known : (firstBody? chunks c.index.toNat).isSome = true) :
    gathered first compressed firstSeen (chunks ++ [c]) =
      gathered first compressed firstSeen chunks := by
  simp only [gathered, places_concat_of_known first.total known]

/-- **One more chunk.**  A chunk of the response is put in its place exactly when its index is new,
and the buffer is then the one that heard it, too. -/
theorem fill?_gathered (hlt : c.index.toNat < first.total.toNat) :
    (gathered first compressed firstSeen chunks).fill? c =
      if (firstBody? chunks c.index.toNat).isSome then none
      else some (gathered first compressed firstSeen (chunks ++ [c])) := by
  have hplace := getElem?_places first.total chunks hlt
  unfold fill?
  cases hbody : firstBody? chunks c.index.toNat with
  | some body => simp [gathered, hplace, hbody]
  | none =>
      have hset := places_concat_of_missing first.total hbody
      have hcount := countP_set_of_free (hplace.trans (congrArg some hbody)) c.body
      simp [gathered, hplace, hbody, hset, hcount]

/-- The counter tells whether every index was heard. -/
theorem isComplete_gathered_iff :
    (gathered first compressed firstSeen chunks).isComplete = true ↔ Covers first.total chunks := by
  rw [isComplete, decide_eq_true_iff]
  show (places first.total chunks).countP (·.isSome) = (places first.total chunks).length ↔ _
  rw [List.countP_eq_length]
  simp only [Covers, places, List.mem_map, List.mem_range, forall_exists_index, and_imp,
    forall_apply_eq_imp_iff₂, firstBody?_isSome_iff]

theorem bytes_gathered :
    (gathered first compressed firstSeen chunks).bytes = assembled first.total chunks := by
  simp [bytes, gathered, places, assembled, List.flatMap_map]

end

end AssemblyBuffer

end FleetLink
