/-
# Which bodies can be written

A body whose operands have the layouts of their operations, whose metadata is imported and
whose branches and regions name instructions of the body (`Encodable`) is written, as long
as its code has less than `2 ^ 31` bytes, exactly if none of its regions ends before it
begins (`exists_encode_eq_ok`).  The order of a region is that of the instructions it names;
where several carry one number the last of them counts, as for branches.
-/

import HookImage.Proofs.Cil.EncodedCode

namespace HookImage

/-- Whether all that a body names can be written. -/
structure MethodBody.Encodable (b : MethodBody) : Prop where
  fits : ∀ i ∈ b.instructions, i.operand.fits i.opcode.operandKind
  imported : ∀ i ∈ b.instructions, ¬i.operand.isSymbolic
  targets : ∀ i ∈ b.instructions, ∀ id ∈ i.operand.instrIds, id ∈ b.instructions.map (·.id)
  anchors : ∀ r ∈ b.regions, ∀ id ∈ r.anchors, id ∈ b.instructions.map (·.id)
  filters : ∀ r ∈ b.regions, r.isFilter → r.filterStart.isSome
  catches : ∀ r ∈ b.regions, ¬r.isFilter → r.isCatch →
    ∃ t, r.catchType = some t ∧ (Region.catchToken? t).isSome

/-- A number has a place exactly if an instruction has it. -/
theorem MethodBody.isNone_position? {b : MethodBody} {id : InstrId} :
    (b.position? id).isNone = false ↔ id ∈ b.instructions.map (·.id) := by
  rw [MethodBody.position?, Option.isNone_eq_false_iff, List.findIdx?_isSome, List.any_eq_true,
    List.mem_map]
  exact exists_congr fun i => and_congr_right fun _ => beq_iff_eq

/-- The number of bytes of the code of a body. -/
def MethodBody.codeSize (b : MethodBody) : Nat :=
  Layout.total (Layout.settle (Layout.draft b))

/-- Whether a range of instructions does not end before it begins.  A range without an end
reaches to the end of the body. -/
def MethodBody.RunsForward (b : MethodBody) (start : InstrId) (stop : Option InstrId) : Prop :=
  ∀ id i j, stop = some id → Layout.lastPosition? b.instructions start = some i →
    Layout.lastPosition? b.instructions id = some j → i ≤ j

/-- Whether neither the protected range nor the handler ends before it begins. -/
def Region.RunsForward (b : MethodBody) (r : Region) : Prop :=
  b.RunsForward r.tryStart r.tryEnd ∧ b.RunsForward r.handlerStart r.handlerEnd

instance (b : MethodBody) (start : InstrId) (stop : Option InstrId) :
    Decidable (b.RunsForward start stop) :=
  decidable_of_iff (stop.all (fun id => (Layout.lastPosition? b.instructions start).all fun i =>
      (Layout.lastPosition? b.instructions id).all fun j => i ≤ j) = true) <| by
    simp only [Option.all_eq_true, decide_eq_true_eq]
    exact ⟨fun h id i j hid hi hj => h id hid i hi j hj, fun h id hid i hi j hj =>
      h id i j hid hi hj⟩

instance (b : MethodBody) (r : Region) : Decidable (r.RunsForward b) :=
  inferInstanceAs (Decidable (_ ∧ _))

namespace Encode

open Layout

variable {σ : Type} {b : MethodBody}

/-- The offsets of the instructions of a body. -/
def bodyLabels (b : MethodBody) : Labels := labels (place (settle (draft b)))

/-- No instruction begins behind the end of the code. -/
theorem bodyLabel_le {id : InstrId} {offset : Nat} (h : (bodyLabels b)[id]? = some offset) :
    offset ≤ b.codeSize := by
  obtain ⟨p, hp, _, rfl⟩ := exists_of_label h
  have inside := (offset_add_size_le hp).2
  rw [Nat.zero_add] at inside
  exact Nat.le_trans (Nat.le_add_right ..) inside

/-- The offset of an instruction that a body has is one within its code. -/
theorem exists_bodyLabel {id : InstrId} (h : id ∈ b.instructions.map (·.id)) :
    ∃ offset, (bodyLabels b)[id]? = some offset ∧ offset ≤ b.codeSize := by
  have numbers : (place (settle (draft b))).map (·.instr.id) = b.instructions.map (·.id) := by
    rw [← map_instr_settle_draft b, ← map_instr_placeFrom 0, List.map_map]
    rfl
  obtain ⟨offset, label⟩ := exists_label (numbers ▸ h)
  exact ⟨offset, label, bodyLabel_le label⟩

/-- Looking a label up succeeds exactly if there is one. -/
@[simp] theorem offsetOf_eq_ok {labels : Labels} {id : InstrId} {offset : Nat} :
    offsetOf labels id = .ok offset ↔ labels[id]? = some offset := by
  unfold offsetOf
  split
  · rename_i o h
    exact ⟨fun e => by cases e; exact h, fun e => by rw [Option.some.inj (h.symm.trans e)]⟩
  · rename_i h
    exact ⟨fun e => (nomatch e), fun e => (nomatch h.symm.trans e)⟩

/-! ### Code -/

/-- A long form is the operation itself or that of a short branch. -/
theorem longForm_cases (op : Opcode) :
    op.longForm = op ∨ op.operandKind = .shortBranch ∧ op.longForm.operandKind = .branch := by
  cases op <;> first | exact .inl rfl | exact .inr ⟨rfl, rfl⟩

/-- An operand that fits an operation fits its long form. -/
theorem fits_of_grown {i : Instruction} {l : Line} (grown : Line.Grown ⟨i.opcode, i⟩ l)
    (fits : i.operand.fits i.opcode.operandKind) : i.operand.fits l.op.operandKind := by
  rcases grown.op_eq with same | long
  · rw [same]
    exact fits
  · rw [long]
    rcases longForm_cases i.opcode with same | ⟨short, branch⟩
    · rw [same]
      exact fits
    · dsimp only at long
      rw [branch]
      rw [short] at fits
      cases h : i.operand with
      | target id => rfl
      | _ =>
        rw [h] at fits
        exact nomatch fits

/-- A line that is placed has an operand of the layout that is written. -/
theorem fits_of_placed (enc : b.Encodable) {p : PlacedLine} (hp : p ∈ place (settle (draft b))) :
    p.instr ∈ b.instructions ∧ p.instr.operand.fits p.op.operandKind := by
  have mem : p.toLine ∈ settle (draft b) := by
    rw [← map_toLine_placeFrom 0 (settle (draft b))]
    exact List.mem_map_of_mem hp
  obtain ⟨i, hi, grown⟩ := exists_of_mem_settle_draft mem
  have same : p.instr = i := grown.instr_eq
  rw [same]
  exact ⟨hi, fits_of_grown grown (enc.fits i hi)⟩

/-- In a body of less than `2 ^ 31` bytes every distance has four bytes. -/
theorem exists_distance (small : b.codeSize < 0x80000000) {id : InstrId} {next : Nat}
    (hn : next ≤ b.codeSize) (fault : Malformation) (h : id ∈ b.instructions.map (·.id)) :
    ∃ bytes, distance (bodyLabels b) next 4 fault id = .ok bytes := by
  obtain ⟨offset, label, bound⟩ := exists_bodyLabel h
  have half : (Nat.pow 2 (8 * 4 - 1) : Nat) = 0x80000000 := rfl
  refine ⟨_, distance_eq_ok.2 ⟨offset, label, ?_, ?_, rfl⟩⟩ <;> rw [half] <;> omega

/-- Layout ends where every distance of a short branch has one byte. -/
theorem exists_shortDistance {p : PlacedLine} (hp : p ∈ place (settle (draft b)))
    (short : p.isShort) {id : InstrId} (target : p.instr.operand = .target id)
    (fault : Malformation) (h : id ∈ b.instructions.map (·.id)) :
    ∃ bytes, distance (bodyLabels b) p.next 1 fault id = .ok bytes := by
  obtain ⟨offset, label, _⟩ := exists_bodyLabel h
  have near := isNear_of_settle hp
    (Line.shortTarget?_eq_some.2 ⟨eq_of_beq short, target⟩) label
  rw [isNear_eq_true] at near
  have half : (Nat.pow 2 (8 * 1 - 1) : Nat) = 128 := rfl
  refine ⟨_, distance_eq_ok.2 ⟨offset, label, ?_, ?_, rfl⟩⟩ <;> rw [half] <;> omega

/-- The operand of a line in an encodable body can be written, literals apart. -/
theorem exists_operand_eq_ok (enc : b.Encodable) (small : b.codeSize < 0x80000000)
    {p : PlacedLine} (hp : p ∈ place (settle (draft b)))
    (nonliteral : ∀ s, p.instr.operand = .string s → False) :
    ∃ bytes, operand (bodyLabels b) p = .ok bytes := by
  obtain ⟨mem, -⟩ := fits_of_placed enc hp
  have next : p.next ≤ b.codeSize := by
    have := (offset_add_size_le hp).2
    rwa [Nat.zero_add] at this
  have targets := enc.targets _ mem
  have imported := enc.imported _ mem
  unfold operand
  cases hoperand : p.instr.operand with
  | none => exact ⟨_, rfl⟩
  | immediate v => exact ⟨_, rfl⟩
  | argument i => exact ⟨_, rfl⟩
  | slot i => exact ⟨_, rfl⟩
  | token t => exact ⟨_, rfl⟩
  | target id =>
    rw [hoperand] at targets
    have inside := targets id List.mem_cons_self
    dsimp only
    split
    · rename_i short
      exact exists_shortDistance hp short hoperand _ inside
    · exact exists_distance small next _ inside
  | targets ids =>
    rw [hoperand] at targets
    exact exists_map_eq_ok.2
      (exists_mapM_eq_ok.2 fun id hid => exists_distance small next _ (targets id hid))
  | string s => exact absurd hoperand (nonliteral s)
  | type t =>
    rw [hoperand] at imported
    exact absurd rfl imported
  | method m =>
    rw [hoperand] at imported
    exact absurd rfl imported
  | field f =>
    rw [hoperand] at imported
    exact absurd rfl imported
  | callSite s =>
    rw [hoperand] at imported
    exact absurd rfl imported

/-- Every line of an encodable body can be written, whatever becomes of its literals. -/
theorem exists_line_eq_ok (enc : b.Encodable) (small : b.codeSize < 0x80000000)
    (intern : String → StateM σ Nat) {p : PlacedLine} (hp : p ∈ place (settle (draft b))) (s : σ) :
    ∃ bytes s', (line intern (bodyLabels b) p).run.run s = (.ok bytes, s') := by
  unfold line
  rw [if_pos (fits_of_placed enc hp).2]
  split
  · rename_i literal _
    exact ⟨_, _, run_bind_eq_ok.2 ⟨_, _, run_liftM_eq_ok.2 rfl, run_pure_eq_ok.2 ⟨rfl, rfl⟩⟩⟩
  · rename_i nonliteral
    obtain ⟨bytes, h⟩ := exists_operand_eq_ok enc small hp nonliteral
    exact ⟨_, _, run_bind_eq_ok.2
      ⟨bytes, s, run_lift_eq_ok.2 ⟨h, rfl⟩, run_pure_eq_ok.2 ⟨rfl, rfl⟩⟩⟩

/-- **The code of an encodable body is written**, whatever the heap of literals. -/
theorem exists_code_eq_ok (enc : b.Encodable) (small : b.codeSize < 0x80000000)
    (intern : String → StateM σ Nat) (s : σ) : ∃ bytes s',
      (code intern (bodyLabels b) (place (settle (draft b)))).run.run s = (.ok bytes, s') := by
  have every : ∀ ps : List PlacedLine, (∀ p ∈ ps, p ∈ place (settle (draft b))) → ∀ s : σ,
      ∃ bytes s', (code intern (bodyLabels b) ps).run.run s = (.ok bytes, s') := by
    intro ps
    induction ps with
    | nil => exact fun _ s => ⟨[], s, rfl⟩
    | cons p ps ih =>
      intro inside s
      obtain ⟨hp, inside⟩ := List.forall_mem_cons.1 inside
      obtain ⟨first, s₁, hfirst⟩ := exists_line_eq_ok enc small intern hp s
      obtain ⟨rest, s₂, hrest⟩ := ih inside s₁
      exact ⟨_, _, run_bind_eq_ok.2 ⟨first, s₁, hfirst,
        run_bind_eq_ok.2 ⟨rest, s₂, hrest, run_pure_eq_ok.2 ⟨rfl, rfl⟩⟩⟩⟩
  exact every _ (fun _ h => h) s

/-! ### Regions -/

/-- The last place of a number lies in the list. -/
theorem lastPosition?_lt {is : List Instruction} {id : InstrId} {k : Nat}
    (h : lastPosition? is id = some k) : k < is.length := by
  obtain ⟨⟨i, k⟩, hfind, rfl⟩ := Option.map_eq_some_iff.1 h
  have mem := List.mem_reverse.1 (List.mem_of_find?_eq_some hfind)
  exact (List.mem_zipIdx' mem).1

/-- Offsets are ordered as the positions of their lines are. -/
theorem runsForward_iff {start : InstrId} {stop : Option InstrId} {first last : Nat}
    (hfirst : (bodyLabels b)[start]? = some first)
    (hlast : boundary (bodyLabels b) b.codeSize stop = .ok last) :
    b.RunsForward start stop ↔ first ≤ last := by
  have positions (id : InstrId) : (bodyLabels b)[id]? =
      (lastPosition? b.instructions id).map fun k => total ((settle (draft b)).take k) := by
    rw [bodyLabels, getElem?_labels_place, map_instr_settle_draft]
  cases stop with
  | none =>
    cases hlast
    exact ⟨fun _ => bodyLabel_le hfirst, fun _ _ _ _ h => (nomatch h)⟩
  | some id =>
    have hlast := offsetOf_eq_ok.1 hlast
    rw [positions] at hfirst hlast
    obtain ⟨i, hi, rfl⟩ := Option.map_eq_some_iff.1 hfirst
    obtain ⟨j, hj, rfl⟩ := Option.map_eq_some_iff.1 hlast
    have inside {id : InstrId} {k : Nat} (h : lastPosition? b.instructions id = some k) :
        k ≤ (settle (draft b)).length := by
      have := lastPosition?_lt h
      rw [← map_instr_settle_draft b, List.length_map] at this
      exact Nat.le_of_lt this
    constructor
    · intro forward
      rcases Nat.eq_or_lt_of_le (forward id i j rfl hi hj) with rfl | before
      · exact Nat.le_refl _
      · exact Nat.le_of_lt (total_take_lt before (inside hj))
    · intro le id' i' j' same hi' hj'
      cases same
      cases hi.symm.trans hi'
      cases hj.symm.trans hj'
      rcases Nat.lt_or_ge j i with before | before
      · have := total_take_lt before (inside hi)
        omega
      · exact before

/-- The last field of a clause of an encodable body can be written. -/
theorem exists_clauseExtra (enc : b.Encodable) {r : Region} (hr : r ∈ b.regions) :
    ∃ extra, clauseExtra (bodyLabels b) r = .ok extra := by
  unfold clauseExtra
  split
  · rename_i filter
    obtain ⟨id, hid⟩ := Option.isSome_iff_exists.1 (enc.filters r hr filter)
    have anchor : id ∈ r.anchors := by
      rw [Region.anchors, hid]
      simp
    obtain ⟨offset, label, _⟩ := exists_bodyLabel (enc.anchors r hr id anchor)
    rw [hid]
    exact ⟨offset, offsetOf_eq_ok.2 label⟩
  · rename_i filter
    split
    · rename_i typed
      obtain ⟨t, ht, token⟩ := enc.catches r hr filter typed
      obtain ⟨token, htoken⟩ := Option.isSome_iff_exists.1 token
      rw [ht]
      dsimp only
      rw [htoken]
      exact ⟨_, rfl⟩
    · exact ⟨_, rfl⟩

/-- The end of a region of an encodable body has an offset. -/
theorem exists_boundary (enc : b.Encodable) {r : Region} (hr : r ∈ b.regions)
    (stop : Option InstrId) (anchor : ∀ id, stop = some id → id ∈ r.anchors) :
    ∃ last, boundary (bodyLabels b) b.codeSize stop = .ok last := by
  cases stop with
  | none => exact ⟨_, rfl⟩
  | some id =>
    obtain ⟨offset, label, _⟩ := exists_bodyLabel (enc.anchors r hr id (anchor id rfl))
    exact ⟨offset, offsetOf_eq_ok.2 label⟩

/-- **A clause is written** exactly if its ranges do not end before they begin. -/
theorem exists_clause_eq_ok (enc : b.Encodable) {r : Region} (hr : r ∈ b.regions) :
    (∃ bytes, clause (bodyLabels b) b.codeSize r = .ok bytes) ↔ r.RunsForward b := by
  have tryAnchor : r.tryStart ∈ r.anchors := by simp [Region.anchors]
  have handlerAnchor : r.handlerStart ∈ r.anchors := by simp [Region.anchors]
  obtain ⟨tryFirst, hts, -⟩ := exists_bodyLabel (enc.anchors r hr _ tryAnchor)
  obtain ⟨handlerFirst, hhs, -⟩ := exists_bodyLabel (enc.anchors r hr _ handlerAnchor)
  obtain ⟨tryLast, hte⟩ := exists_boundary enc hr r.tryEnd fun id h => by
    simp [Region.anchors, h]
  obtain ⟨handlerLast, hhe⟩ := exists_boundary enc hr r.handlerEnd fun id h => by
    simp [Region.anchors, h]
  obtain ⟨extra, hextra⟩ := exists_clauseExtra enc hr
  have order : r.RunsForward b ↔ tryFirst ≤ tryLast ∧ handlerFirst ≤ handlerLast :=
    and_congr (runsForward_iff hts hte) (runsForward_iff hhs hhe)
  unfold clause
  rw [order, offsetOf_eq_ok.2 hts, hte, offsetOf_eq_ok.2 hhs, hhe]
  show (∃ bytes, (if decide (tryLast < tryFirst) || decide (handlerLast < handlerFirst)
    then (.error .regionEndsEarly : Except Malformation Bytes)
    else clauseExtra (bodyLabels b) r >>= fun extra => pure _) = .ok bytes) ↔ _
  split
  · rename_i early
    rw [Bool.or_eq_true, decide_eq_true_eq, decide_eq_true_eq] at early
    refine ⟨fun ⟨_, h⟩ => (nomatch h), fun h => ?_⟩
    omega
  · rename_i forward
    rw [Bool.or_eq_true, decide_eq_true_eq, decide_eq_true_eq] at forward
    rw [hextra]
    exact ⟨fun _ => by omega, fun _ => ⟨_, rfl⟩⟩

/-- **The section of regions is written** exactly if none of them ends before it begins. -/
theorem exists_regions_eq_ok (enc : b.Encodable) (few : b.regions.length * 24 + 4 < 0x100000000) :
    (∃ bytes, regions (bodyLabels b) b.codeSize b.regions = .ok bytes) ↔
      ∀ r ∈ b.regions, r.RunsForward b := by
  unfold regions
  rw [if_pos few, exists_map_eq_ok, exists_mapM_eq_ok]
  exact forall₂_congr fun r hr => exists_clause_eq_ok enc hr

/-! ### Bodies -/

/-- The set of the numbers of instructions has all of them. -/
theorem contains_ids (is : List Instruction) (known : Std.HashMap InstrId Unit) (id : InstrId)
    (h : known.contains id ∨ id ∈ is.map (·.id)) :
    (is.foldl (fun m i => m.insert i.id ()) known).contains id := by
  induction is generalizing known with
  | nil => exact h.resolve_right fun h => (nomatch h)
  | cons i is ih =>
    refine ih _ ?_
    rw [Std.HashMap.contains_insert, Bool.or_eq_true, beq_iff_eq]
    rcases h with h | h
    · exact .inl (.inr h)
    · rcases List.mem_cons.1 h with same | h
      · exact .inl (.inl same.symm)
      · exact .inr h

/-- No short branch is reported where each names an instruction of the body. -/
theorem missingTarget?_eq_none (named : ∀ i ∈ b.instructions, ∀ id,
    i.opcode.operandKind = .shortBranch → i.operand = .target id →
      id ∈ b.instructions.map (·.id)) : missingTarget? b = none := by
  unfold missingTarget?
  refine List.findSome?_eq_none_iff.2 fun i hi => ?_
  split
  · rename_i target htarget
    obtain ⟨short, operand⟩ := Line.shortTarget?_eq_some.1 htarget
    rw [if_pos (contains_ids _ _ _ (.inr (named i hi target short operand)))]
  · rfl

/-- The layout of an encodable body of less than `2 ^ 31` bytes. -/
theorem ofBody_of_encodable (enc : b.Encodable) (small : b.codeSize < 0x80000000) :
    ofBody b = .ok ⟨place (settle (draft b)), b.codeSize⟩ := by
  have present : missingTarget? b = none := missingTarget?_eq_none fun i hi id _ operand =>
    enc.targets i hi id (by simp [operand, Operand.instrIds])
  exact ofBody_eq_ok.2 ⟨present, Nat.lt_trans small (by decide), rfl⟩

/-- **An encodable body is written** exactly if none of its regions ends before it begins. -/
theorem exists_encode_eq_ok (enc : b.Encodable) (small : b.codeSize < 0x80000000)
    (few : b.regions.length * 24 + 4 < 0x100000000) (intern : String → StateM σ Nat)
    (localSig : Option Token) (s : σ) :
    (∃ e s', (b.encode intern localSig).run.run s = (.ok e, s')) ↔
      ∀ r ∈ b.regions, r.RunsForward b := by
  have layout := ofBody_of_encodable enc small
  rw [← exists_regions_eq_ok enc few]
  constructor
  · rintro ⟨e, s', h⟩
    obtain ⟨layout', bytes, hlayout, _, ⟨empty, _⟩ | ⟨_, clauses, hclauses, _⟩⟩ := encode_eq_ok.1 h
    · exact (exists_regions_eq_ok enc few).2 fun r hr => by simp [empty] at hr
    · cases layout.symm.trans hlayout
      exact ⟨clauses, hclauses⟩
  · rintro ⟨clauses, hclauses⟩
    obtain ⟨bytes, s', hbytes⟩ := exists_code_eq_ok enc small intern s
    by_cases empty : b.regions = []
    · exact ⟨_, s', encode_eq_ok.2 ⟨_, bytes, layout, hbytes, .inl ⟨empty, rfl⟩⟩⟩
    · exact ⟨_, s', encode_eq_ok.2 ⟨_, bytes, layout, hbytes, .inr ⟨empty, clauses, hclauses, rfl⟩⟩⟩

/-! ### Sizes -/

/-- A clause takes 24 bytes. -/
theorem length_clause {labels : Labels} {codeSize : Nat} {r : Region} {bytes : Bytes}
    (h : clause labels codeSize r = .ok bytes) : bytes.length = 24 := by
  obtain ⟨_, _, h⟩ := bind_eq_ok.1 h
  obtain ⟨_, _, h⟩ := bind_eq_ok.1 h
  obtain ⟨_, _, h⟩ := bind_eq_ok.1 h
  obtain ⟨_, _, h⟩ := bind_eq_ok.1 h
  split at h
  · exact nomatch h
  · obtain ⟨_, _, h⟩ := bind_eq_ok.1 h
    cases h
    simp

/-- Clauses take 24 bytes each. -/
theorem length_clauses {labels : Labels} {codeSize : Nat} {rs : List Region}
    {clauses : List Bytes}
    (h : List.Forall₂ (fun r bytes => clause labels codeSize r = .ok bytes) rs clauses) :
    clauses.flatten.length = 24 * rs.length := by
  induction h with
  | nil => rfl
  | cons first _ ih =>
    rw [List.flatten_cons, List.length_append, length_clause first, ih, List.length_cons]
    omega

/-- A section takes four bytes and 24 for each clause. -/
theorem length_regions {labels : Labels} {codeSize : Nat} {rs : List Region} {bytes : Bytes}
    (h : regions labels codeSize rs = .ok bytes) : bytes.length = 4 + 24 * rs.length := by
  unfold regions at h
  dsimp only at h
  split at h
  · obtain ⟨clauses, hclauses, h⟩ := bind_eq_ok.1 h
    cases h
    simp [length_clauses (mapM_eq_ok.1 hclauses)]
    omega
  · exact nomatch h

end Encode

/-- The number of bytes of a written body. -/
def MethodBody.writtenSize (b : MethodBody) : Nat :=
  if b.regions.isEmpty then 12 + b.codeSize
  else Bytes.roundUp 4 (12 + b.codeSize) + (4 + 24 * b.regions.length)

/-- A written body has room for its code. -/
theorem MethodBody.codeSize_le_writtenSize (b : MethodBody) : b.codeSize ≤ b.writtenSize := by
  unfold writtenSize Bytes.roundUp
  split <;> omega

/-- A written body has room for its clauses. -/
theorem MethodBody.regions_le_writtenSize (b : MethodBody) :
    b.regions.length * 24 ≤ b.writtenSize := by
  unfold writtenSize
  split
  · rename_i empty
    rw [List.isEmpty_iff.1 empty]
    exact Nat.zero_le _
  · omega

/-- **A written body is as long as its layout and its regions say.** -/
theorem MethodBody.length_encode {σ : Type} {b : MethodBody} {intern : String → StateM σ Nat}
    {localSig : Option Token} {e : EncodedBody} {s s' : σ}
    (h : (b.encode intern localSig).run.run s = (.ok e, s')) : e.bytes.length = b.writtenSize := by
  obtain ⟨layout, bytes, hlayout, hbytes, rest⟩ := Encode.encode_eq_ok.1 h
  obtain ⟨_, small, rfl⟩ := Layout.ofBody_eq_ok.1 hlayout
  have length := (Encode.code_read small hbytes).1
  have plain : (Encode.header b b.codeSize localSig ++ bytes).length = 12 + b.codeSize := by
    simp [length, MethodBody.codeSize]
  unfold writtenSize
  rcases rest with ⟨empty, rfl⟩ | ⟨nonempty, clauses, hclauses, rfl⟩
  · rw [if_pos (List.isEmpty_iff.2 empty)]
    exact plain
  · rw [if_neg (by simpa using nonempty)]
    show (Bytes.aligned 4 (Encode.header b b.codeSize localSig ++ bytes) ++ clauses).length = _
    rw [List.length_append, Encode.length_regions hclauses, Bytes.aligned, List.length_append,
      List.length_replicate, plain]
    rfl

end HookImage
