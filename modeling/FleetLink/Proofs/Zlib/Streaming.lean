import FleetLink.Zlib

/-!
# A stream is read from the front

An inflater that wants no more than some number of bytes can stop early, and that is only sound if
nothing behind the place where it stops could have changed what it has.  This module shows that:
**what some bytes of a stream produce is what any stream produces first that begins with them**, and
once a stream has ended, what follows it is not looked at.

Every reader is taken for itself first: if it finds something, it finds the same when more bits
follow, and leaves them behind what it left before (the lemmas `…_append`).  A run over blocks can
also fail, and then a longer stream may go on where it failed, so there two facts are carried
through together (`Progress.Foretells`): what was produced comes first, and a run that can go on
goes on from the same place.  Only a stored block needs the rear to be whole bytes, because it
begins at a byte.

`Inflation.read?` is a reader that asks for a limited number of bytes, one after another, and
`within_eq_ofRead` says what its answer has to do with all that a stream produces.

## Main Statements

* `produced_append` — the front of a stream produces the front of the bytes
* `inflate_append_of_ended` — what follows the end of a stream does not matter
* `read?_eq` — what a limited reader gets
* `within_eq_ofRead` — reading one byte past the limit is enough to tell
-/

namespace FleetLink.Zlib

/-! ## Readers -/

/-- A reader finds something, and leaves the rest of the stream. -/
def Finds {α : Type} {p : Bits → Prop} (answer : Option (α × { r : Bits // p r })) (found : α)
    (rest : Bits) : Prop :=
  ∃ h, answer = some (found, ⟨rest, h⟩)

section

variable {bits rest : Bits} {n : Nat} (more : Bits)

theorem Bits.number?_append {found : Nat} (h : Finds (number? n bits) found rest) :
    Finds (number? n (bits ++ more)) found (rest ++ more) := by
  induction n, bits using number?.induct generalizing found rest with
  | case1 bits =>
      obtain ⟨_, h⟩ := h
      rw [number?_zero] at h
      cases h
      exact ⟨_, number?_zero _⟩
  | case2 => obtain ⟨_, h⟩ := h; cases h
  | case3 n b tail ih =>
      obtain ⟨_, h⟩ := h
      obtain ⟨⟨high, r, hr⟩, hfound, hmap⟩ := Option.map_eq_some_iff.mp h
      cases hmap
      obtain ⟨_, hmore⟩ := ih ⟨hr, hfound⟩
      rw [List.cons_append, number?, hmore]
      exact ⟨_, rfl⟩

theorem CodeTree.symbol?_node (zero one : CodeTree) (b : Bool) (tail : Bits) :
    (node zero one).symbol? (b :: tail) =
      (if b then one.symbol? tail else zero.symbol? tail).map fun x =>
        (x.1, ⟨x.2.1, Nat.le_succ_of_le x.2.2⟩) :=
  rfl

theorem CodeTree.symbol?_append {tree : CodeTree} {found : Nat}
    (h : Finds (tree.symbol? bits) found rest) :
    Finds (tree.symbol? (bits ++ more)) found (rest ++ more) := by
  induction tree generalizing bits found rest with
  | empty => obtain ⟨_, h⟩ := h; cases h
  | leaf symbol =>
      obtain ⟨_, h⟩ := h
      cases h
      exact ⟨Nat.le_refl _, rfl⟩
  | node zero one ihZero ihOne =>
      obtain ⟨_, h⟩ := h
      cases bits with
      | nil => cases h
      | cons b tail =>
          obtain ⟨⟨s, r, hr⟩, hfound, hmap⟩ := Option.map_eq_some_iff.mp h
          cases hmap
          have hmore : Finds (if b then one.symbol? (tail ++ more) else zero.symbol? (tail ++ more))
              found (rest ++ more) := by
            cases b with
            | false => exact ihZero ⟨hr, hfound⟩
            | true => exact ihOne ⟨hr, hfound⟩
          obtain ⟨_, hmore⟩ := hmore
          rw [List.cons_append, symbol?_node, hmore]
          exact ⟨_, rfl⟩

theorem Code.symbol?_append {code : Code} {found : Nat} (h : Finds (code.symbol? bits) found rest) :
    Finds (code.symbol? (bits ++ more)) found (rest ++ more) := by
  obtain ⟨_, h⟩ := h
  cases bits with
  | nil => cases h
  | cons b tail =>
      obtain ⟨⟨s, r, hr⟩, hfound, hmap⟩ := Option.map_eq_some_iff.mp h
      cases hmap
      obtain ⟨_, hmore⟩ := CodeTree.symbol?_append more ⟨hr, hfound⟩
      rw [List.cons_append, symbol?, hmore]
      exact ⟨_, rfl⟩

theorem baseValue?_append {bases : List Base} {symbol found : Nat}
    (h : Finds (baseValue? bases symbol bits) found rest) :
    Finds (baseValue? bases symbol (bits ++ more)) found (rest ++ more) := by
  obtain ⟨_, h⟩ := h
  unfold baseValue? at h ⊢
  split at h
  · cases h
  · obtain ⟨⟨n, r, hr⟩, hfound, hmap⟩ := Option.map_eq_some_iff.mp h
    cases hmap
    obtain ⟨_, hmore⟩ := Bits.number?_append more ⟨hr, hfound⟩
    rw [hmore]
    exact ⟨_, rfl⟩

theorem distance?_append {code : Code} {found : Nat} (h : Finds (distance? code bits) found rest) :
    Finds (distance? code (bits ++ more)) found (rest ++ more) := by
  obtain ⟨_, h⟩ := h
  unfold distance? at h ⊢
  split at h
  · cases h
  next hsymbol =>
    obtain ⟨⟨n, r, hr⟩, hfound, hmap⟩ := Option.map_eq_some_iff.mp h
    cases hmap
    obtain ⟨_, hmore⟩ := Code.symbol?_append more ⟨_, hsymbol⟩
    obtain ⟨_, hmore'⟩ := baseValue?_append more ⟨hr, hfound⟩
    rw [hmore]
    dsimp only
    rw [hmore']
    exact ⟨_, rfl⟩

theorem repetition?_append {code : Code} {place : Nat} {found : Nat × Nat}
    (h : Finds (repetition? code place bits) found rest) :
    Finds (repetition? code place (bits ++ more)) found (rest ++ more) := by
  obtain ⟨_, h⟩ := h
  unfold repetition? at h ⊢
  split at h
  · cases h
  next hlength =>
    obtain ⟨⟨n, r, hr⟩, hfound, hmap⟩ := Option.map_eq_some_iff.mp h
    cases hmap
    obtain ⟨_, hmore⟩ := baseValue?_append more ⟨_, hlength⟩
    obtain ⟨_, hmore'⟩ := distance?_append more ⟨hr, hfound⟩
    rw [hmore]
    dsimp only
    rw [hmore']
    exact ⟨_, rfl⟩

theorem triples?_succ (n : Nat) (bits : Bits) :
    triples? (n + 1) bits = (bits.number? 3).bind fun x => (triples? n x.2.1).map fun y =>
      (x.1 :: y.1, ⟨y.2.1, Nat.le_trans y.2.2 x.2.2⟩) := by
  conv => lhs; whnf
  cases bits.number? 3 <;> rfl

theorem triples?_append {found : List Nat} (h : Finds (triples? n bits) found rest) :
    Finds (triples? n (bits ++ more)) found (rest ++ more) := by
  induction n generalizing bits found rest with
  | zero =>
      obtain ⟨_, h⟩ := h
      cases h
      exact ⟨Nat.le_refl _, rfl⟩
  | succ n ih =>
      obtain ⟨_, h⟩ := h
      rw [triples?_succ] at h ⊢
      obtain ⟨⟨first, r, hr⟩, hfirst, h⟩ := Option.bind_eq_some_iff.mp h
      obtain ⟨⟨others, r', hr'⟩, hothers, hmap⟩ := Option.map_eq_some_iff.mp h
      cases hmap
      obtain ⟨_, hmore⟩ := Bits.number?_append more ⟨_, hfirst⟩
      obtain ⟨_, hmore'⟩ := ih ⟨_, hothers⟩
      rw [hmore, Option.bind_some, hmore']
      exact ⟨_, rfl⟩

theorem wordLengths?_append {code : Code} {wanted : Nat} {taken found : List Nat}
    (h : Finds (wordLengths? code wanted taken bits) found rest) :
    Finds (wordLengths? code wanted taken (bits ++ more)) found (rest ++ more) := by
  fun_induction wordLengths? code wanted taken bits generalizing found rest with
  | case1 taken bits hfull hexact =>
      obtain ⟨_, h⟩ := h
      cases h
      rw [wordLengths?, if_pos hfull, if_pos hexact]
      exact ⟨Nat.le_refl _, rfl⟩
  | case2 | case3 | case5 | case6 =>
      obtain ⟨_, h⟩ := h
      cases h
  | case4 taken bits hopen symbol r hr hsymbol hliteral ih =>
      obtain ⟨_, h⟩ := h
      obtain ⟨⟨ls, r', hr'⟩, hfound, hmap⟩ := Option.map_eq_some_iff.mp h
      cases hmap
      obtain ⟨_, hmore⟩ := Code.symbol?_append more ⟨_, hsymbol⟩
      obtain ⟨_, hmore'⟩ := ih ⟨_, hfound⟩
      rw [wordLengths?, if_neg hopen, hmore]
      dsimp only
      rw [if_pos hliteral, hmore']
      exact ⟨_, rfl⟩
  | case7 taken bits hopen symbol r hr hsymbol hrun least extra length n r₁ hr₁ hextra hwhich ih =>
      obtain ⟨_, h⟩ := h
      obtain ⟨⟨ls, r', hr'⟩, hfound, hmap⟩ := Option.map_eq_some_iff.mp h
      cases hmap
      obtain ⟨_, hmore⟩ := Code.symbol?_append more ⟨_, hsymbol⟩
      obtain ⟨_, hmore'⟩ := Bits.number?_append more ⟨_, hextra⟩
      obtain ⟨_, hmore''⟩ := ih ⟨_, hfound⟩
      simp only [dite_eq_ite] at hwhich
      rw [wordLengths?, if_neg hopen, hmore]
      dsimp only
      rw [if_neg hrun, hwhich]
      dsimp only
      rw [hmore']
      dsimp only
      rw [hmore'']
      exact ⟨_, rfl⟩

theorem blockCodes?_append {found : Code × Code} (h : Finds (blockCodes? bits) found rest) :
    Finds (blockCodes? (bits ++ more)) found (rest ++ more) := by
  obtain ⟨_, h⟩ := h
  revert h
  fun_cases blockCodes? bits with
  | case8 hlit r₁ _ h₁ hdist r₂ _ h₂ hclen r₃ _ h₃ hfew given r₄ _ h₄ lengths code hcode all r₅ _
      hall symbols distances hdistances hsymbols =>
      intro h
      cases h
      obtain ⟨_, h₁⟩ := Bits.number?_append more ⟨_, h₁⟩
      obtain ⟨_, h₂⟩ := Bits.number?_append more ⟨_, h₂⟩
      obtain ⟨_, h₃⟩ := Bits.number?_append more ⟨_, h₃⟩
      obtain ⟨_, h₄⟩ := triples?_append more ⟨_, h₄⟩
      obtain ⟨_, hall⟩ := wordLengths?_append more ⟨_, hall⟩
      simp only [lengths] at hcode
      simp only [blockCodes?, h₁, h₂, h₃, if_neg hfew, h₄, hcode, hall, hsymbols, hdistances]
      exact ⟨_, rfl⟩
  | _ => intro h; cases h

/-! ## What was produced stays -/

theorem prefix_push (out : Array UInt8) (b : UInt8) : out.toList <+: (out.push b).toList := by
  rw [Array.toList_push]
  exact List.prefix_append _ _

theorem prefix_repeatBack (out : Array UInt8) (distance n : Nat) :
    out.toList <+: (repeatBack out distance n).toList := by
  induction n generalizing out with
  | zero => exact List.prefix_rfl
  | succ n ih => exact (prefix_push out _).trans (ih _)

theorem prefix_symbolRun (symbols distances : Code) (bound : Nat) (out : Array UInt8) (bits : Bits)
    (h : bits.length ≤ bound) :
    out.toList <+: (symbolRun symbols distances bound out bits h).out.toList := by
  fun_induction symbolRun symbols distances bound out bits h with
  | case1 | case3 | case4 => exact List.prefix_rfl
  | case2 out _ _ _ _ _ _ b _ ih => exact (prefix_push out b).trans ih
  | case5 out _ _ _ _ _ _ _ _ distance length _ _ _ ih =>
      exact (prefix_repeatBack out distance length).trans ih

theorem byteRun_succ (out : Array UInt8) (n : Nat) (bits : Bits) :
    byteRun out (n + 1) bits = (bits.number? 8).elim (.failed out) fun x =>
      (byteRun (out.push (UInt8.ofNat x.1)) n x.2.1).widen x.2.2 := by
  conv => lhs; whnf
  cases bits.number? 8 <;> rfl

theorem prefix_byteRun (out : Array UInt8) (n : Nat) (bits : Bits) :
    out.toList <+: (byteRun out n bits).out.toList := by
  induction n generalizing out bits with
  | zero => exact List.prefix_rfl
  | succ n ih =>
      rw [byteRun_succ]
      cases bits.number? 8 with
      | none => exact List.prefix_rfl
      | some x => exact (prefix_push out _).trans (ih _ _)

theorem prefix_storedRun (out : Array UInt8) (bits : Bits) :
    out.toList <+: (storedRun out bits).out.toList := by
  fun_cases storedRun out bits with
  | case3 => exact prefix_byteRun out _ _
  | _ => exact List.prefix_rfl

theorem prefix_block (kind : Nat) (out : Array UInt8) (bits : Bits) :
    out.toList <+: (block kind out bits).out.toList := by
  unfold block
  split
  · exact prefix_storedRun out bits
  · split
    · exact prefix_symbolRun _ _ _ out bits _
    · split
      · split
        · exact List.prefix_rfl
        · exact prefix_symbolRun _ _ _ out _ _
      · exact List.prefix_rfl

theorem prefix_blocks (bound : Nat) (out : Array UInt8) (bits : Bits) (h : bits.length ≤ bound) :
    out.toList <+: (blocks bound out bits h).out.toList := by
  fun_induction blocks bound out bits h with
  | case1 out _ low high body _ _ hblock | case2 out low high body _ _ _ hblock =>
      have hfirst := prefix_block (low.toNat + 2 * high.toNat) out body
      rw [hblock] at hfirst
      exact hfirst
  | case3 out _ low high body _ _ _ _ hblock _ _ ih =>
      have hfirst := prefix_block (low.toNat + 2 * high.toNat) out body
      rw [hblock] at hfirst
      exact hfirst.trans ih
  | case4 => exact List.prefix_rfl

/-- What the first block produced stays. -/
theorem prefix_blocks_of_block (bound : Nat) (out : Array UInt8) (last low high : Bool)
    (body : Bits) (h : (last :: low :: high :: body).length ≤ bound) :
    (block (low.toNat + 2 * high.toNat) out body).out.toList <+:
      (blocks bound out (last :: low :: high :: body) h).out.toList := by
  rw [blocks]
  split
  next hblock =>
    rw [hblock]
    exact List.prefix_rfl
  next hblock =>
    rw [hblock]
    split
    · exact List.prefix_rfl
    · exact prefix_blocks bound _ _ _

/-! ## What more of a stream changes -/

/-- What a run over the front of a stream tells about the run over all of it: all that it produced
comes first, and if it could go on, then the other goes on from there, with more to read. -/
structure Progress.Foretells {a b : Nat} (front : Progress a) (whole : Progress b) (more : Bits) :
    Prop where
  produced : front.out.toList <+: whole.out.toList
  goesOn : ∀ out rest h, front = ⟨out, some ⟨rest, h⟩⟩ → ∃ h, whole = ⟨out, some ⟨rest ++ more, h⟩⟩

theorem Progress.foretells_failed {a b : Nat} {out : Array UInt8} {whole : Progress b}
    (h : out.toList <+: whole.out.toList) : (failed out : Progress a).Foretells whole more :=
  ⟨h, fun _ _ _ hrest => by cases hrest⟩

theorem Progress.foretells_of_rest {a b : Nat} {out : Array UInt8} {rest : Bits}
    (h : rest.length ≤ a) (h' : (rest ++ more).length ≤ b) :
    (⟨out, some ⟨rest, h⟩⟩ : Progress a).Foretells ⟨out, some ⟨rest ++ more, h'⟩⟩ more := by
  refine ⟨List.prefix_rfl, fun _ _ _ hrest => ?_⟩
  cases hrest
  exact ⟨h', rfl⟩

theorem Progress.Foretells.widen {a a' b b' : Nat} {front : Progress a} {whole : Progress b}
    (h : front.Foretells whole more) (ha : a ≤ a') (hb : b ≤ b') :
    (front.widen ha).Foretells (whole.widen hb) more := by
  refine ⟨h.produced, fun out rest _ hrest => ?_⟩
  obtain ⟨out', rest'⟩ := front
  cases rest' with
  | none => cases hrest
  | some left =>
      obtain ⟨r, hr⟩ := left
      cases hrest
      obtain ⟨_, rfl⟩ := h.goesOn _ _ _ rfl
      exact ⟨_, rfl⟩

theorem symbolRun_of_byte {symbols distances : Code} {bound symbol : Nat} {out : Array UInt8}
    {h : bits.length ≤ bound} {hr : rest.length < bits.length} {b : UInt8}
    (hsymbol : symbols.symbol? bits = some (symbol, ⟨rest, hr⟩))
    (hbyte : Request.ofSymbol symbol = .byte b) :
    symbolRun symbols distances bound out bits h =
      symbolRun symbols distances bound (out.push b) rest (Nat.le_trans (Nat.le_of_lt hr) h) := by
  conv => lhs; rw [symbolRun, hsymbol]
  dsimp only
  rw [hbyte]

theorem symbolRun_of_finish {symbols distances : Code} {bound symbol : Nat} {out : Array UInt8}
    {h : bits.length ≤ bound} {hr : rest.length < bits.length}
    (hsymbol : symbols.symbol? bits = some (symbol, ⟨rest, hr⟩))
    (hfinish : Request.ofSymbol symbol = .finish) :
    symbolRun symbols distances bound out bits h =
      ⟨out, some ⟨rest, Nat.le_trans (Nat.le_of_lt hr) h⟩⟩ := by
  rw [symbolRun, hsymbol]
  dsimp only
  rw [hfinish]

theorem symbolRun_of_repetition {symbols distances : Code} {bound symbol place : Nat}
    {out : Array UInt8} {h : bits.length ≤ bound} {hr : rest.length < bits.length}
    {distance length : Nat} {rest' : Bits} {hr' : rest'.length ≤ rest.length}
    (hsymbol : symbols.symbol? bits = some (symbol, ⟨rest, hr⟩))
    (hplace : Request.ofSymbol symbol = .repetition place)
    (hrepetition : repetition? distances place rest = some ((distance, length), ⟨rest', hr'⟩)) :
    symbolRun symbols distances bound out bits h =
      symbolRun symbols distances bound (repeatBack out distance length) rest'
        (Nat.le_trans hr' (Nat.le_trans (Nat.le_of_lt hr) h)) := by
  conv => lhs; rw [symbolRun, hsymbol]
  dsimp only
  rw [hplace]
  dsimp only
  rw [hrepetition]

theorem symbolRun_foretells (symbols distances : Code) {bound bound' : Nat} (out : Array UInt8)
    (h : bits.length ≤ bound) (h' : (bits ++ more).length ≤ bound') :
    (symbolRun symbols distances bound out bits h).Foretells
      (symbolRun symbols distances bound' out (bits ++ more) h') more := by
  fun_induction symbolRun symbols distances bound out bits h with
  | case1 | case4 => exact Progress.foretells_failed more (prefix_symbolRun ..)
  | case2 out bits h symbol r hr hsymbol b hbyte ih =>
      obtain ⟨_, hmore⟩ := Code.symbol?_append more ⟨_, hsymbol⟩
      rw [symbolRun_of_byte hmore hbyte]
      exact ih _
  | case3 out bits h symbol r hr hsymbol hfinish =>
      obtain ⟨_, hmore⟩ := Code.symbol?_append more ⟨_, hsymbol⟩
      rw [symbolRun_of_finish hmore hfinish]
      exact Progress.foretells_of_rest more _ _
  | case5 out bits h symbol r hr hsymbol place hplace distance length r' hr' hrepetition ih =>
      obtain ⟨_, hmore⟩ := Code.symbol?_append more ⟨_, hsymbol⟩
      obtain ⟨_, hmore'⟩ := repetition?_append more ⟨_, hrepetition⟩
      rw [symbolRun_of_repetition hmore hplace hmore']
      exact ih _

theorem byteRun_foretells (out : Array UInt8) (n : Nat) (bits : Bits) :
    (byteRun out n bits).Foretells (byteRun out n (bits ++ more)) more := by
  induction n generalizing out bits with
  | zero => exact Progress.foretells_of_rest more _ _
  | succ n ih =>
      cases hbyte : bits.number? 8 with
      | none =>
          rw [byteRun_succ, hbyte]
          exact Progress.foretells_failed more (prefix_byteRun ..)
      | some x =>
          obtain ⟨_, hmore⟩ := Bits.number?_append more ⟨x.2.2, hbyte⟩
          rw [byteRun_succ, byteRun_succ, hbyte, hmore]
          exact (ih _ _).widen more x.2.2 ‹_›

/-- Whole bytes in the rear do not change where a byte of the front begins. -/
theorem byteAligned_append (hwhole : 8 ∣ more.length) {hr : rest.length ≤ bits.length}
    (haligned : bits.byteAligned = ⟨rest, hr⟩) :
    ∃ h, (bits ++ more).byteAligned = ⟨rest ++ more, h⟩ := by
  have hrest : rest = bits.drop (bits.length % 8) := (congrArg Subtype.val haligned).symm
  have hmod : (bits ++ more).length % 8 = bits.length % 8 := by
    rw [List.length_append, Nat.add_mod, Nat.mod_eq_zero_of_dvd hwhole, Nat.add_zero, Nat.mod_mod]
  have hle : (rest ++ more).length ≤ (bits ++ more).length := by
    rw [List.length_append, List.length_append]
    omega
  refine ⟨hle, Subtype.ext ?_⟩
  show (bits ++ more).drop ((bits ++ more).length % 8) = rest ++ more
  rw [hmod, List.drop_append_of_le_length (Nat.mod_le _ _), hrest]

theorem storedRun_foretells (hwhole : 8 ∣ more.length) (out : Array UInt8) (bits : Bits) :
    (storedRun out bits).Foretells (storedRun out (bits ++ more)) more := by
  fun_cases storedRun out bits with
  | case3 r hr haligned length r₁ _ hlength check r₂ _ hcheck hsum =>
      obtain ⟨_, haligned⟩ := byteAligned_append more hwhole haligned
      obtain ⟨_, hlength⟩ := Bits.number?_append more ⟨_, hlength⟩
      obtain ⟨_, hcheck⟩ := Bits.number?_append more ⟨_, hcheck⟩
      rw [storedRun, haligned]
      dsimp only
      rw [hlength]
      dsimp only
      rw [hcheck]
      dsimp only
      rw [if_pos hsum]
      exact (byteRun_foretells more out length r₂).widen more _ _
  | _ => exact Progress.foretells_failed more (prefix_storedRun ..)

theorem block_foretells (hwhole : 8 ∣ more.length) (kind : Nat) (out : Array UInt8) (bits : Bits) :
    (block kind out bits).Foretells (block kind out (bits ++ more)) more := by
  fun_cases block kind out bits with
  | case1 hstored =>
      rw [block, if_pos hstored]
      exact storedRun_foretells more hwhole out bits
  | case2 hnew hfixed =>
      rw [block, if_neg hnew, if_pos hfixed]
      exact symbolRun_foretells more _ _ out _ _
  | case3 | case5 => exact Progress.foretells_failed more (prefix_block ..)
  | case4 hnew hfixed hown symbols distances r hr hcodes =>
      obtain ⟨_, hcodes⟩ := blockCodes?_append more ⟨_, hcodes⟩
      rw [block, if_neg hnew, if_neg hfixed, if_pos hown, hcodes]
      exact symbolRun_foretells more _ _ out _ _

theorem blocks_foretells (hwhole : 8 ∣ more.length) {bound bound' : Nat} (out : Array UInt8)
    (h : bits.length ≤ bound) (h' : (bits ++ more).length ≤ bound') :
    (blocks bound out bits h).Foretells (blocks bound' out (bits ++ more) h') more := by
  fun_induction blocks bound out bits h with
  | case1 out last low high body _ out' hblock =>
      have hfirst := block_foretells more hwhole (low.toNat + 2 * high.toNat) out body
      rw [hblock] at hfirst
      exact Progress.foretells_failed more
        (hfirst.produced.trans
          (prefix_blocks_of_block bound' out last low high (body ++ more) h'))
  | case2 out low high body out' r hr hblock =>
      have hfirst := block_foretells more hwhole (low.toNat + 2 * high.toNat) out body
      obtain ⟨_, hmore⟩ := hfirst.goesOn _ _ _ hblock
      simp only [List.cons_append]
      rw [blocks, hmore]
      exact Progress.foretells_of_rest more _ _
  | case3 out last low high body _ out' r _ hblock hlast _ ih =>
      have hfirst := block_foretells more hwhole (low.toNat + 2 * high.toNat) out body
      obtain ⟨_, hmore⟩ := hfirst.goesOn _ _ _ hblock
      simp only [List.cons_append]
      rw [blocks, hmore]
      dsimp only
      rw [if_neg hlast]
      exact ih _
  | case4 => exact Progress.foretells_failed more (prefix_blocks ..)

/-! ## Whole streams -/

theorem Bits.ofBytes_append (front rear : List UInt8) :
    ofBytes (front ++ rear) = ofBytes front ++ ofBytes rear :=
  List.flatMap_append

theorem Bits.dvd_length_ofBytes (bytes : List UInt8) : 8 ∣ (ofBytes bytes).length := by
  induction bytes with
  | nil => exact Nat.dvd_zero 8
  | cons b bytes ih =>
      have hcons : ofBytes (b :: bytes) = ofByte b ++ ofBytes bytes := rfl
      have hbyte : (ofByte b).length = 8 := by simp [ofByte]
      rw [hcons, List.length_append, hbyte]
      exact Nat.dvd_add (Nat.dvd_refl 8) ih

theorem bigEndian32?_append {sum : Nat} (h : bigEndian32? bits = some sum) :
    bigEndian32? (bits ++ more) = some sum := by
  unfold bigEndian32? at h ⊢
  obtain ⟨⟨a, r₁, _⟩, ha, h⟩ := Option.bind_eq_some_iff.mp h
  obtain ⟨⟨b, r₂, _⟩, hb, h⟩ := Option.bind_eq_some_iff.mp h
  obtain ⟨⟨c, r₃, _⟩, hc, h⟩ := Option.bind_eq_some_iff.mp h
  obtain ⟨⟨d, r₄, _⟩, hd, h⟩ := Option.bind_eq_some_iff.mp h
  obtain ⟨_, ha⟩ := Bits.number?_append more ⟨_, ha⟩
  obtain ⟨_, hb⟩ := Bits.number?_append more ⟨_, hb⟩
  obtain ⟨_, hc⟩ := Bits.number?_append more ⟨_, hc⟩
  obtain ⟨_, hd⟩ := Bits.number?_append more ⟨_, hd⟩
  simp only [ha, hb, hc, hd, Option.bind_eq_bind, Option.bind_some]
  exact h

end

theorem Bits.length_le (bits : Bits) : bits.length ≤ bits.length := Nat.le_refl _

/-- All blocks of a stream. -/
def allBlocks (bits : Bits) : Progress bits.length :=
  blocks bits.length #[] bits bits.length_le

theorem allBlocks_foretells (front rear : List UInt8) :
    (allBlocks (.ofBytes front)).Foretells (allBlocks (.ofBytes (front ++ rear)))
      (.ofBytes rear) := by
  rw [Bits.ofBytes_append]
  exact blocks_foretells _ (Bits.dvd_length_ofBytes rear) _ _ _

section

variable {a b : UInt8} {deflated : List UInt8}

theorem inflate_of_not_header (h : ¬ isHeader a b = true) :
    inflate (a :: b :: deflated) = ⟨[], false⟩ := by
  rw [inflate, if_neg h]

theorem produced_inflate (h : isHeader a b = true) :
    (inflate (a :: b :: deflated)).produced = (allBlocks (.ofBytes deflated)).out.toList := by
  rw [inflate, if_pos h]
  dsimp only
  split <;> rfl

/-- A stream comes to its end where its blocks leave the right checksum. -/
theorem ended_inflate_iff (h : isHeader a b = true) :
    (inflate (a :: b :: deflated)).ended = true ↔
      ∃ out rest hr, allBlocks (.ofBytes deflated) = ⟨out, some ⟨rest, hr⟩⟩ ∧
        bigEndian32? rest.byteAligned.1 = some (checksum out.toList) := by
  rw [inflate, if_pos h]
  dsimp only
  show _ ↔ ∃ out rest hr, allBlocks (.ofBytes deflated) = _ ∧ _
  generalize hblocks : allBlocks (.ofBytes deflated) = p
  unfold allBlocks at hblocks
  rw [hblocks]
  obtain ⟨out, rest⟩ := p
  cases rest with
  | none => simp
  | some left =>
      constructor
      · intro hsum
        exact ⟨out, left.1, left.2, rfl, of_decide_eq_true hsum⟩
      · rintro ⟨_, _, _, hsame, hsum⟩
        cases hsame
        exact decide_eq_true hsum

end

/-- **What a stream produces is decided from the front:** what follows some bytes of a stream only
adds to what they produced. -/
theorem produced_append (front rear : List UInt8) :
    (inflate front).produced <+: (inflate (front ++ rear)).produced := by
  match front with
  | [] | [_] => exact List.nil_prefix
  | a :: b :: deflated =>
      by_cases h : isHeader a b = true
      · simp only [List.cons_append]
        rw [produced_inflate h, produced_inflate h]
        exact (allBlocks_foretells deflated rear).produced
      · rw [inflate_of_not_header h]
        exact List.nil_prefix

/-- What follows the end of a stream is not looked at. -/
theorem inflate_append_of_ended {front : List UInt8} (h : (inflate front).ended = true)
    (rear : List UInt8) : inflate (front ++ rear) = inflate front := by
  match front with
  | [] | [_] => cases h
  | a :: b :: deflated =>
      by_cases hheader : isHeader a b = true
      · obtain ⟨out, rest, hr, hblocks, hsum⟩ := (ended_inflate_iff hheader).mp h
        obtain ⟨hr', hwhole⟩ := (allBlocks_foretells deflated rear).goesOn _ _ _ hblocks
        obtain ⟨_, haligned⟩ : ∃ h, (rest ++ Bits.ofBytes rear).byteAligned =
            ⟨rest.byteAligned.1 ++ Bits.ofBytes rear, h⟩ :=
          byteAligned_append _ (Bits.dvd_length_ofBytes rear) rfl
        simp only [List.cons_append]
        have hproduced : (inflate (a :: b :: (deflated ++ rear))).produced =
            (inflate (a :: b :: deflated)).produced := by
          rw [produced_inflate hheader, produced_inflate hheader, hwhole, hblocks]
        have hended : (inflate (a :: b :: (deflated ++ rear))).ended = true := by
          refine (ended_inflate_iff hheader).mpr ⟨out, _, hr', hwhole, ?_⟩
          rw [haligned]
          exact bigEndian32?_append _ hsum
        calc inflate (a :: b :: (deflated ++ rear))
            = ⟨(inflate (a :: b :: (deflated ++ rear))).produced,
                (inflate (a :: b :: (deflated ++ rear))).ended⟩ := rfl
          _ = inflate (a :: b :: deflated) := by rw [hproduced, hended, ← h]
      · rw [inflate_of_not_header hheader] at h
        cases h

/-! ## Reading up to a limit -/

namespace Inflation

/-- Asks a stream for up to `room` bytes, one after another: none if it fails before.  When no more
are asked for, it is not found out how the stream goes on. -/
def read? : (room : Nat) → Inflation → Option (List UInt8)
  | 0, _ => some []
  | _ + 1, ⟨[], ended⟩ => if ended then some [] else none
  | room + 1, ⟨b :: later, ended⟩ => (read? room ⟨later, ended⟩).map (b :: ·)

/-- **What a limited reader gets:** as many bytes as it asks for, or all there are if the stream
comes to its end before. -/
theorem read?_eq (room : Nat) (i : Inflation) :
    i.read? room =
      if room ≤ i.produced.length then some (i.produced.take room)
      else if i.ended then some i.produced else none := by
  fun_induction read? room i with
  | case1 i => rw [if_pos (Nat.zero_le _), List.take_zero]
  | case2 | case3 => simp_all
  | case4 room b later ended ih =>
      rw [ih]
      simp only [List.length_cons, Nat.succ_eq_add_one, Nat.add_le_add_iff_right,
        List.take_succ_cons]
      split
      · rfl
      · split <;> rfl

/-! ### Limits -/

variable {i : Inflation} {limit : Nat} {bytes : List UInt8}

theorem within_eq_tooLong_iff : i.within limit = .tooLong ↔ limit < i.produced.length := by
  unfold within
  split
  next hlong => exact iff_of_true rfl hlong
  next hshort => split <;> exact iff_of_false nofun hshort

theorem within_eq_whole_iff :
    i.within limit = .whole bytes ↔
      i.produced = bytes ∧ i.ended = true ∧ bytes.length ≤ limit := by
  unfold within
  split
  next hlong =>
    refine iff_of_false nofun ?_
    rintro ⟨rfl, -, hle⟩
    omega
  next hshort =>
    split
    next hended =>
      constructor
      · intro h
        cases h
        exact ⟨rfl, hended, Nat.le_of_not_lt hshort⟩
      · rintro ⟨rfl, -, -⟩
        rfl
    next hbroken => exact iff_of_false nofun fun h => hbroken h.2.1

theorem within_eq_broken_iff :
    i.within limit = .broken ↔ i.ended = false ∧ i.produced.length ≤ limit := by
  unfold within
  split
  next hlong => exact iff_of_false nofun fun h => by omega
  next hshort =>
    split
    next hended => exact iff_of_false nofun fun h => by rw [hended] at h; cases h.1
    next hbroken => exact iff_of_true rfl ⟨Bool.eq_false_iff.mpr hbroken, Nat.le_of_not_lt hshort⟩

end Inflation

/-- What was read, if that is within a limit. -/
def Limited.ofRead (limit : Nat) : Option (List UInt8) → Limited
  | none => .broken
  | some bytes => if limit < bytes.length then .tooLong else .whole bytes

/-- **Whoever asks for one byte past the limit** can tell what is too long from what is whole and
from what is broken.  To ask for less will do if the stream has still less than that. -/
theorem within_eq_ofRead (i : Inflation) {limit room : Nat} (hroom : room ≤ limit + 1)
    (h : limit < room ∨ i.produced.length < room) :
    i.within limit = .ofRead limit (i.read? room) := by
  rw [Inflation.read?_eq, Inflation.within]
  by_cases hlong : limit < i.produced.length
  · have hread : room ≤ i.produced.length := by omega
    have hlonger : limit < (i.produced.take room).length := by
      rw [List.length_take]
      omega
    rw [if_pos hlong, if_pos hread, Limited.ofRead, if_pos hlonger]
  · have hread : ¬ room ≤ i.produced.length := by omega
    rw [if_neg hlong, if_neg hread]
    cases i.ended with
    | false => rfl
    | true => rw [if_pos rfl, if_pos rfl, Limited.ofRead, if_neg hlong]

end FleetLink.Zlib
