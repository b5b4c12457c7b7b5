import BlockEquiv.Proofs.Interpretation
import BlockEquiv.Proofs.Scope

/-!
# Soundness of the comparison

If the comparison of two straight-line functions says that they are equal, their last instructions
have the same effect in all executions from corresponding arguments.

Everything that corresponds holds the same, and this is kept as long as new pairs of operands do.
Up to the first jump there are none but void ones, since all that is visible corresponds already.
After a jump, values from inside the skipped code do not. But they are used only where the walk from
the synchronization point has found them to match, so they are outputs that the solver has proven
equal.
-/

namespace BlockEquiv

/-- The last instruction that is not debug info. -/
def Block.last? (b : Block Instruction) : Option Instruction :=
  (b.entries.filter fun x => !x.isDebugInfo).getLast?

variable {X : Type}

/-- Two instructions do the same to the same operands, with the same result. -/
structure SameEffect (I : Interpretation X) (el er : Env X) (l r : Instruction) : Prop where
  signature : l.signature = r.signature
  inputs : l.inputs I.toExternals el = r.inputs I.toExternals er
  result : l.value.content I.toExternals el = r.value.content I.toExternals er

/-- The last instructions of two blocks have the same effect, or there are none. -/
def SameEnd (I : Interpretation X) (el er : Env X) (bl br : Block Instruction) : Prop :=
  (bl.last? = none ∧ br.last? = none) ∨
    ∃ l r, bl.last? = some l ∧ br.last? = some r ∧ SameEffect I el er l r

/-- The contents that the executions of two straight-line functions leave. -/
structure Executions (I : Interpretation X) (al : List Register) (bl : Block Instruction)
    (ar : List Register) (br : Block Instruction) (el er : Env X) : Prop where
  left : StraightLine al bl
  right : StraightLine ar br
  fitsLeft : bl.ConstantsFit
  fitsRight : br.ConstantsFit
  holdsLeft : Holds I.Yields I.toExternals bl.entries el
  holdsRight : Holds I.Yields I.toExternals br.entries er

section

variable {I : Interpretation X} {al ar : List Register} {bl br : Block Instruction}
  {el er : Env X} {skip : Skip} {i j k n : Nat} {l r : Instruction} {v : List (Value × Value)}

/-! ### Positions -/

private theorem Block.last?_eq {b : Block Instruction} (hskip : ∀ x, skip x = false) :
    b.last? = (b.significant skip 0).getLast? := by
  simp [last?, significant, hskip]

/-- What is left at a position ends as the block does. -/
theorem Block.last?_of_significant {b : Block Instruction} (hskip : ∀ x, skip x = false)
    (h : b.significant skip i = [l]) : b.last? = some l := by
  obtain ⟨pre, hpre⟩ : b.significant skip i <:+ b.significant skip 0 :=
    significant_of_le (Nat.zero_le i)
  rw [last?_eq hskip, ← hpre, h]
  simp

private theorem Block.mem_significant {b : Block Instruction} (h : l ∈ b.significant skip i) :
    ∃ m, i ≤ m ∧ b.entries[m]? = some l ∧ l.isDebugInfo = false := by
  obtain ⟨hmem, hc⟩ := List.mem_filter.mp h
  obtain ⟨m, hm⟩ := List.mem_iff_getElem?.mp hmem
  rw [List.getElem?_drop] at hm
  refine ⟨i + m, Nat.le_add_right i m, hm, ?_⟩
  exact (Bool.or_eq_false_iff.mp (Bool.not_eq_true' _ |>.mp hc)).1

/-! ### Agreement -/

/-- Registers that hold nothing agree. -/
theorem agrees_of_void {sym : Externals X} {a b : Register} (ht : a.type = b.type)
    (hv : a.type = .void) : Agrees sym el er (.register a, .register b) := by
  have hunit : ∀ t : Ty, t = .void → ∀ x y : t.shape.Denote X, x = y := by
    rintro _ rfl x y
    rfl
  exact (agrees_registers ht).mpr (hunit _ hv _ _)

/-- Linked registers in scope agree if all pairs do. -/
theorem Scoped.agrees_of_linked {sym : Externals X} {m m' : Nat} (hs : Scoped al bl ar br i j v)
    (hl : StraightLine al bl) (hr : StraightLine ar br) (hv : ∀ q ∈ v, Agrees sym el er q)
    {a b : Register} (ha : Visible al bl m a) (hb : Visible ar br m' b)
    (h : Pairing.Linked v a.uid b.uid) : Agrees sym el er (.register a, .register b) := by
  obtain ⟨q, hq, hqa, hqb⟩ := h
  obtain ⟨a', b', rfl, -, ha', hb'⟩ := hs q hq
  rw [← hl.eq_of_uid ha' ha hqa, ← hr.eq_of_uid hb' hb hqb]
  exact hv _ hq

private theorem map_eq_of_zip {α β γ : Type} {f : α → γ} {g : β → γ} {xs : List α} {ys : List β}
    (hlen : xs.length = ys.length) (h : ∀ q ∈ xs.zip ys, f q.1 = g q.2) : xs.map f = ys.map g := by
  induction xs generalizing ys with
  | nil =>
    rw [List.eq_nil_of_length_eq_zero hlen.symm]
    rfl
  | cons x xs ih =>
    cases ys with
    | nil => cases hlen
    | cons y ys =>
      rw [List.map_cons, List.map_cons, h (x, y) List.mem_cons_self,
        ih (Nat.succ.inj hlen) fun q hq => h q (List.mem_cons_of_mem _ hq)]

/-- Two instructions of one shape have the same effect on operands that agree. -/
theorem Isomorphic.sameEffect {ρ : Uid → Uid → Prop} (h : Isomorphic ρ l r)
    (hl : l.Obeys I.Yields I.toExternals el) (hr : r.Obeys I.Yields I.toExternals er)
    (hdl : l.isDebugInfo = false) (hdr : r.isDebugInfo = false)
    (hops : ∀ q ∈ l.operands.zip r.operands, Agrees I.toExternals el er q) :
    SameEffect I el er l r := by
  have hshape := h.shape
  simp only [Pairing.sameShape, Bool.and_eq_true, beq_iff_eq] at hshape
  obtain ⟨⟨⟨⟨⟨⟨hop, hty⟩, hlen⟩, hpred⟩, hnsw⟩, hnuw⟩, hexact⟩ := hshape
  have hsig : l.signature = r.signature := by
    have hcallee : (if l.opcode = .call then l.callee else none) =
        if r.opcode = .call then r.callee else none := by
      rw [← hop]
      by_cases hc : l.opcode = .call
      · rw [if_pos hc, if_pos hc, h.callee hc]
      · rw [if_neg hc, if_neg hc]
    simp only [Instruction.signature, hop, hty, hpred, hnsw, hnuw, hexact, Signature.mk.injEq,
      true_and, and_true]
    rw [← hcallee, hop]
  have hin : l.inputs I.toExternals el = r.inputs I.toExternals er := map_eq_of_zip hlen hops
  refine ⟨hsig, hin, ?_⟩
  rw [Interpretation.content_value hl hdl, Interpretation.content_value hr hdr, hsig, hin]

/-! ### What a walk keeps -/

/-- The rest of both sides matches under a relation between registers, and those in sight that it
relates agree. -/
def Resumed (I : Interpretation X) (al : List Register) (bl : Block Instruction)
    (ar : List Register) (br : Block Instruction) (el er : Env X) (skip : Skip) (i j : Nat) :
    Prop :=
  ∃ ρ, OneToOne ρ ∧ IsomorphicAll ρ (bl.significant skip i) (br.significant skip j) ∧
    ∀ a b, Visible al bl i a → Visible ar br j b → a.type = b.type → ρ a.uid b.uid →
      Agrees I.toExternals el er (.register a, .register b)

/-- What holds of two positions and the correspondence while two functions are compared. -/
structure Sound (I : Interpretation X) (al : List Register) (bl : Block Instruction)
    (ar : List Register) (br : Block Instruction) (el er : Env X) (skip : Skip) (i j : Nat)
    (p : Pairing) : Prop where
  valid : p.Valid
  scope : Scoped al bl ar br i j p.view
  agrees : ∀ q ∈ p.view, Agrees I.toExternals el er q
  covered : Complete al bl i p.view ∨ Resumed I al bl ar br el er skip i j
  ended : bl.significant skip i = [] → br.significant skip j = [] → SameEnd I el er bl br

namespace Sound

variable {p : Pairing}

/-- Operands that come to correspond agree. -/
theorem agrees_newPair (h : Sound I al bl ar br el er skip i j p) (hl : StraightLine al bl)
    (hr : StraightLine ar br) (hskip : ∀ x, skip x = false) (hx : bl.Meets skip i k l)
    (hy : br.Meets skip j n r) {q : Value × Value} (hq : q ∈ l.operands.zip r.operands)
    (hnew : Pairing.NewPair p.view q) : Agrees I.toExternals el er q := by
  obtain ⟨a, b, rfl, ht, ha, hb⟩ := visible_of_newPair hl hr hx hy hq hnew
  by_cases hv : a.type = .void
  · exact agrees_of_void ht hv
  · rcases h.covered with hc | ⟨ρ, -, hiso, hρ⟩
    · obtain ⟨_, _, he, -, hfresh, -⟩ := hnew
      cases he
      exact absurd hfresh (hc a (hx.visible hskip ha) hv)
    · rw [hx.significant, hy.significant] at hiso
      cases (hiso.each (l, r) List.mem_cons_self).operands _ hq with
      | registers _ hab => exact hρ a b (hx.visible hskip ha) (hy.visible hskip hb) ht hab

/-- Operands of instructions that compare equal agree. -/
theorem agrees_operands (h : Sound I al bl ar br el er skip i j p)
    (hE : Executions I al bl ar br el er) (hskip : ∀ x, skip x = false)
    (hx : bl.Meets skip i k l) (hy : br.Meets skip j n r)
    (he : (Pairing.compareInstructions l r p).1 = .equal) :
    ∀ q ∈ l.operands.zip r.operands, Agrees I.toExternals el er q := by
  rintro ⟨a, b⟩ hq
  obtain ⟨ha, hb⟩ := List.of_mem_zip hq
  cases (Pairing.compareInstructions_sound h.valid he).operands _ hq with
  | @constants c d hcd =>
    exact Interpretation.content_of_sameValue
      (hE.fitsLeft l (List.mem_of_getElem? hx.entry) c ha)
      (hE.fitsRight r (List.mem_of_getElem? hy.entry) d hb) hcd
  | @registers a b ht hab =>
    have hva := hE.left.operands k l hx.entry a ha
    have hvb := hE.right.operands n r hy.entry b hb
    obtain ⟨x, hmem, hxa, hxb⟩ := hab
    rcases Pairing.mem_view_compareInstructions h.valid hmem with
      hold | ⟨hop, hnew⟩ | ⟨-, -, rfl, -⟩
    · exact h.scope.agrees_of_linked hE.left hE.right h.agrees hva hvb ⟨x, hold, hxa, hxb⟩
    · obtain ⟨a', b', rfl, -, ha', hb'⟩ := visible_of_newPair hE.left hE.right hx hy hop hnew
      rw [← hE.left.eq_of_uid ha' hva hxa, ← hE.right.eq_of_uid hb' hvb hxb]
      exact h.agrees_newPair hE.left hE.right hskip hx hy hop hnew
    · exact absurd hxa (hE.left.uid_ne hva (Nat.le_refl k) hx.entry)

/-- Instructions that compare equal have the same effect. -/
theorem sameEffect (h : Sound I al bl ar br el er skip i j p)
    (hE : Executions I al bl ar br el er) (hskip : ∀ x, skip x = false)
    (hx : bl.Meets skip i k l) (hy : br.Meets skip j n r)
    (he : (Pairing.compareInstructions l r p).1 = .equal) : SameEffect I el er l r :=
  (Pairing.compareInstructions_sound h.valid he).sameEffect
    (hE.holdsLeft l (List.mem_of_getElem? hx.entry))
    (hE.holdsRight r (List.mem_of_getElem? hy.entry)) hx.not_debugInfo hy.not_debugInfo
    (h.agrees_operands hE hskip hx hy he)

/-- What corresponds after two instructions have been compared agrees, the results apart. -/
theorem agrees_view (h : Sound I al bl ar br el er skip i j p) (hl : StraightLine al bl)
    (hr : StraightLine ar br) (hskip : ∀ x, skip x = false) (hx : bl.Meets skip i k l)
    (hy : br.Meets skip j n r)
    (hres : (Pairing.compareInstructions l r p).1 = .equal →
      Agrees I.toExternals el er (l.value, r.value)) :
    ∀ q ∈ (Pairing.compareInstructions l r p).2.view, Agrees I.toExternals el er q := by
  intro q hq
  rcases Pairing.mem_view_compareInstructions h.valid hq with hold | ⟨hop, hnew⟩ | ⟨he, -, rfl, -⟩
  · exact h.agrees q hold
  · exact h.agrees_newPair hl hr hskip hx hy hop hnew
  · exact hres he

/-- A relation under which the rest matches still does after one instruction of either side. -/
theorem resumed_step (hE : Executions I al bl ar br el er)
    (hres : Resumed I al bl ar br el er skip i j) (hskip : ∀ x, skip x = false)
    (hx : bl.Meets skip i k l) (hy : br.Meets skip j n r) (heff : SameEffect I el er l r) :
    Resumed I al bl ar br el er skip (k + 1) (n + 1) := by
  obtain ⟨ρ, hone, hiso, hρ⟩ := hres
  rw [hx.significant, hy.significant] at hiso
  have hhead := hiso.each (l, r) List.mem_cons_self
  refine ⟨ρ, hone, ⟨Nat.succ.inj hiso.length, fun q hq => hiso.each q (List.mem_cons_of_mem _ hq)⟩,
    fun a b ha hb ht hab => ?_⟩
  by_cases hv : a.type = .void
  · exact agrees_of_void ht hv
  · rcases ha.of_succ hx.entry with ha | ⟨-, rfl⟩ <;> rcases hb.of_succ hy.entry with hb | ⟨-, rfl⟩
    · exact hρ a b (hx.visible hskip ha) (hy.visible hskip hb) ht hab
    · -- The relation has only the left result for the right one.
      have htype : l.type = r.type := Pairing.type_eq_of_sameShape hhead.shape
      have hlr : ρ l.uid r.uid :=
        hhead.result (bne_iff_ne.mpr fun hvoid => hv (ht.trans (htype.symm.trans hvoid)))
      exact absurd (hone.left hlr hab) (hE.left.uid_ne ha (Nat.le_refl k) hx.entry)
    · have hlr : ρ l.uid r.uid := hhead.result (bne_iff_ne.mpr hv)
      exact absurd (hone.right hlr hab) (hE.right.uid_ne hb (Nat.le_refl n) hy.entry)
    · exact heff.result

/-- The comparison of two equal instructions keeps what a walk keeps. -/
theorem step (h : Sound I al bl ar br el er skip i j p) (hE : Executions I al bl ar br el er)
    (hskip : ∀ x, skip x = false) (hx : bl.Meets skip i k l) (hy : br.Meets skip j n r)
    (he : (Pairing.compareInstructions l r p).1 = .equal) :
    Sound I al bl ar br el er skip (k + 1) (n + 1) (Pairing.compareInstructions l r p).2 := by
  have heff := h.sameEffect hE hskip hx hy he
  refine ⟨(Pairing.compareInstructions_grows h.valid l r).valid,
    (h.scope.compareInstructions h.valid hE.left hE.right hx hy).1,
    h.agrees_view hE.left hE.right hskip hx hy fun _ => heff.result, ?_, fun hln hrn => ?_⟩
  · rcases h.covered with hc | hres
    · exact .inl (hc.step h.valid hskip hx he)
    · exact .inr (resumed_step hE hres hskip hx hy heff)
  · exact .inr ⟨l, r, Block.last?_of_significant hskip (by rw [hx.significant, hln]),
      Block.last?_of_significant hskip (by rw [hy.significant, hrn]), heff⟩

/-- What the solver has proven equal agrees. -/
theorem agrees_outputs (h : Sound I al bl ar br el er skip i j p)
    (hE : Executions I al bl ar br el er) (hskip : ∀ x, skip x = false) {s : Surroundings}
    (hs : ∀ m as, s.solver m as = some .unsat → ¬ Satisfiable as) (hx : bl.Meets skip i k l)
    (hy : br.Meets skip j n r) (hd : (Pairing.compareInstructions l r p).1 = .different)
    {c : Int × Int} {q : Pairing}
    (hc : Structural.ProvenUpTo s skip bl br k n (Pairing.compareInstructions l r p).2.undo c q) :
    ∀ x ∈ outputPairs ⟨bl, k, c.1⟩ ⟨br, n, c.2⟩
      (Structural.walkFrom skip bl br c.1 c.2 q).2.mapping.pairs, Agrees I.toExternals el er x := by
  have hvalid := (Pairing.compareInstructions_grows h.valid l r).valid
  refine hc.2.agrees hs (fun x hx => hE.holdsLeft x (Snippet.entries_subset _ hx))
    (fun x hx => hE.holdsRight x (Snippet.entries_subset _ hx)) fun x hx' => ?_
  have hseed := seedPairs_subset (Pairing.valid_undo hvalid) hc.1.kept c _ hx'
  refine h.agrees_view hE.left hE.right hskip hx hy (fun he => ?_) x
    (Pairing.view_undo_subset hvalid hseed)
  rw [hd] at he
  cases he

/-- Operands that the walk from a synchronization point makes correspond agree: they are outputs
that have been proven, or in sight already where the sides diverge. -/
theorem agrees_tail (h : Sound I al bl ar br el er skip i j p) (hskip : ∀ x, skip x = false)
    (hx : bl.Meets skip i k l) (hy : br.Meets skip j n r) {c : Int × Int} (hcl : k ≤ c.1)
    (hcr : n ≤ c.2) {pairs : PairTable}
    (hout : ∀ x ∈ outputPairs ⟨bl, k, c.1⟩ ⟨br, n, c.2⟩ pairs, Agrees I.toExternals el er x)
    (hlen : (bl.significant skip c.1.toNat).length = (br.significant skip c.2.toNat).length)
    {x : Instruction × Instruction}
    (hmem : x ∈ (bl.significant skip c.1.toNat).zip (br.significant skip c.2.toNat))
    {a b : Register} (hop : (.register a, .register b) ∈ x.1.operands.zip x.2.operands)
    (hfresh : Pairing.FreshLeft p.view a.uid) (ha : Visible al bl c.1.toNat a)
    (hb : Visible ar br c.2.toNat b) (ht : a.type = b.type)
    (hpair : (.register a, .register b) ∈ pairs.toList.map Prod.snd) :
    Agrees I.toExternals el er (.register a, .register b) := by
  by_cases hv : a.type = .void
  · exact agrees_of_void ht hv
  · by_cases hp : ((⟨bl, k, c.1⟩ : Snippet Instruction).produces (.register a) ||
        (⟨br, n, c.2⟩ : Snippet Instruction).produces (.register b)) = true
    · exact hout _ (List.mem_filter.mpr ⟨hpair, hp⟩)
    · obtain ⟨hpl, hpr⟩ := Bool.or_eq_false_iff.mp (Bool.not_eq_true _ ▸ hp)
      have hai := hx.visible hskip (ha.of_not_produces (Int.natCast_nonneg k)
        (Int.le_trans (Int.natCast_nonneg k) hcl) hv hpl)
      have hbj := hy.visible hskip (hb.of_not_produces (Int.natCast_nonneg n)
        (Int.le_trans (Int.natCast_nonneg n) hcr) (ht ▸ hv) hpr)
      rcases h.covered with hc | ⟨ρ, -, hiso, hρ⟩
      · exact absurd hfresh (hc a hai hv)
      · have hstartl := hx.start
        have hstartr := hy.start
        have hrest := hiso.suffix (Block.significant_of_le (show i ≤ c.1.toNat by omega))
          (Block.significant_of_le (show j ≤ c.2.toNat by omega)) hlen
        cases (hrest.each x hmem).operands _ hop with
        | registers _ hab => exact hρ a b hai hbj ht hab

/-- After a jump the rest matches under what the walk from there has made correspond. -/
theorem resumed_jump (h : Sound I al bl ar br el er skip i j p)
    (hE : Executions I al bl ar br el er) (hskip : ∀ x, skip x = false) {s : Surroundings}
    (hs : ∀ m as, s.solver m as = some .unsat → ¬ Satisfiable as) (hx : bl.Meets skip i k l)
    (hy : br.Meets skip j n r) (hd : (Pairing.compareInstructions l r p).1 = .different)
    {c : Int × Int} {q : Pairing}
    (hc : Structural.ProvenUpTo s skip bl br k n (Pairing.compareInstructions l r p).2.undo c q) :
    Resumed I al bl ar br el er skip c.1.toNat c.2.toNat := by
  have hvalid := (Pairing.compareInstructions_grows h.valid l r).valid
  have hvalid₀ := Pairing.valid_undo hvalid
  have hvalidq := hc.1.kept.valid hvalid₀
  have hscope := (h.scope.compareInstructions h.valid hE.left hE.right hx hy).2 hd
  have hview := h.agrees_view hE.left hE.right hskip hx hy fun he => by
    rw [hd] at he
    cases he
  have hout := h.agrees_outputs hE hskip hs hx hy hd hc
  have hwalk : (Structural.walkFrom skip bl br c.1 c.2 q).1 = .equal := by
    rw [(Structural.walkFrom_congr _ _ _ hvalid₀ hc.1.kept c.1 c.2).1]
    have hsync := hc.1.synchronizes
    simp only [Structural.synchronizes, Bool.and_eq_true, decide_eq_true_eq] at hsync
    exact hsync.2
  have hiso := Pairing.compareAll_sound hvalidq hwalk
  refine ⟨_, Pairing.linked_oneToOne (Pairing.compareAll_grows hvalidq _ _).valid, hiso, ?_⟩
  rintro a b ha hb ht ⟨x, hxv, hxa, hxb⟩
  rcases Pairing.mem_view_compareAll hvalidq hxv with hold | ⟨hnew, y, hmem, hop | rfl⟩
  · rw [hc.1.kept.view] at hold
    exact hscope.agrees_of_linked hE.left hE.right hview ha hb
      ⟨x, Pairing.view_undo_subset hvalid hold, hxa, hxb⟩
  · obtain ⟨a', b', rfl, -, hfresh, -⟩ := hnew
    obtain ⟨hyl, hyr⟩ := List.of_mem_zip hmem
    obtain ⟨hopl, hopr⟩ := List.of_mem_zip hop
    obtain ⟨m, -, hm, -⟩ := Block.mem_significant hyl
    obtain ⟨m', -, hm', -⟩ := Block.mem_significant hyr
    obtain rfl := hE.left.eq_of_uid (hE.left.operands m y.1 hm a' hopl) ha hxa
    obtain rfl := hE.right.eq_of_uid (hE.right.operands m' y.2 hm' b' hopr) hb hxb
    have hsub := Pairing.view_subset_undo_compareInstructions h.valid l r
    rw [hc.1.kept.view] at hfresh
    exact h.agrees_tail hskip hx hy hc.1.left hc.1.right hout hiso.length hmem hop
      (fun z hz => hfresh z (hsub hz)) ha hb ht hxv
  · -- The results of the walk are not in sight yet.
    obtain ⟨m, hm, hy₁, -⟩ := Block.mem_significant (List.of_mem_zip hmem).1
    exact absurd hxa (hE.left.uid_ne ha hm hy₁)

/-- A jump over code that has been proven equal keeps what a walk keeps. -/
theorem jump (h : Sound I al bl ar br el er skip i j p) (hE : Executions I al bl ar br el er)
    (hskip : ∀ x, skip x = false) {s : Surroundings}
    (hs : ∀ m as, s.solver m as = some .unsat → ¬ Satisfiable as) (hx : bl.Meets skip i k l)
    (hy : br.Meets skip j n r) (hd : (Pairing.compareInstructions l r p).1 = .different)
    {c : Int × Int} {q p' : Pairing}
    (hc : Structural.ProvenUpTo s skip bl br k n (Pairing.compareInstructions l r p).2.undo c q)
    (hkept : (Pairing.compareInstructions l r p).2.Kept p') :
    Sound I al bl ar br el er skip c.1.toNat c.2.toNat p' := by
  have hvalid := (Pairing.compareInstructions_grows h.valid l r).valid
  have hscope := (h.scope.compareInstructions h.valid hE.left hE.right hx hy).2 hd
  have hleft := hc.1.left
  have hright := hc.1.right
  refine ⟨hkept.valid hvalid, ?_, ?_, .inr (h.resumed_jump hE hskip hs hx hy hd hc), ?_⟩
  · rw [hkept.view]
    exact hscope.mono (by omega) (by omega)
  · rw [hkept.view]
    refine h.agrees_view hE.left hE.right hskip hx hy fun he => ?_
    rw [hd] at he
    cases he
  · -- The instruction at the synchronization point is still to be compared.
    intro hnil
    have hsync := hc.1.synchronizes
    simp only [Structural.synchronizes, Bool.and_eq_true] at hsync
    obtain ⟨x, -, hx'⟩ := Block.significant_of_comparedAt
      (Int.le_trans (Int.natCast_nonneg k) hleft) hsync.1.1
    rw [hnil] at hx'
    cases hx'

end Sound

/-! ### Whole functions -/

/-- Once the arguments are made to correspond, what a walk keeps holds. -/
theorem sound_start (hE : Executions I al bl ar br el er) (hskip : ∀ x, skip x = false)
    (ht : ∀ q ∈ al.zip ar, q.1.type = q.2.type)
    (hargs : ∀ q ∈ al.zip ar, q.1.content el = q.2.content er) {p : Pairing}
    (hp : Pairing.pairArguments (al.map .register) (ar.map .register) .empty = .ok p) :
    Sound I al bl ar br el er skip 0 0 p := by
  obtain ⟨hvalid, -, hview⟩ :=
    Pairing.view_pairArguments hE.left.arguments hE.right.arguments hp
  refine ⟨hvalid, scoped_pairArguments hE.left.arguments hE.right.arguments ht hp, ?_, .inl ?_, ?_⟩
  · intro q hq
    rw [hview] at hq
    obtain ⟨x, hx, rfl⟩ := List.mem_map.mp hq
    exact hargs x hx
  · exact complete_pairArguments hE.left.arguments hE.right.arguments hp
  · intro hln hrn
    exact .inl ⟨by rw [Block.last?_eq hskip, hln]; rfl, by rw [Block.last?_eq hskip, hrn]; rfl⟩

/-- What the steps of a comparison keep of executions, if the solver is sound. -/
theorem Structural.sound_invariant (hE : Executions I al bl ar br el er)
    (hskip : ∀ x, skip x = false) {s : Surroundings}
    (hs : ∀ m as, s.solver m as = some .unsat → ¬ Satisfiable as) :
    Invariant (fun _ _ _ => True) s skip bl br (Sound I al bl ar br el er skip)
      (SameEnd I el er bl br) where
  valid h := h.valid
  agree h hx hy he := h.step hE hskip hx hy he
  covers _ _ _ _ := fun _ _ _ _ _ => trivial
  jump h hx hy hd _ _ _ hc hkept := h.jump hE hskip hs hx hy hd hc hkept
  finish h hl hr := h.ended hl hr

end

/-- The verdict that two functions are equal is sound. If the comparison of two straight-line
functions from the start gives it, and all that the solver refutes cannot be satisfied, then in
executions from arguments that agree place by place the last instructions, debug info aside, do the
same to the same operands, with the same result. -/
theorem Structural.compareFunctions_sound (I : Interpretation X) {al ar : List Register}
    {bl br : Block Instruction} (hl : StraightLine al bl) (hr : StraightLine ar br)
    (hfl : bl.ConstantsFit) (hfr : br.ConstantsFit)
    (ht : ∀ q ∈ al.zip ar, q.1.type = q.2.type) {c : Settings} (hskip : ∀ x, c.skip x = false)
    {s : Surroundings} (hs : ∀ m as, s.solver m as = some .unsat → ¬ Satisfiable as)
    {w w' : World Serials} (hw : w.outer = Pairing.empty) (hh : w.ledger.history = [])
    (h : compareFunctions c s (al.map .register) bl (ar.map .register) br w = .ok .equal w')
    {el er : Env X} (hargs : ∀ q ∈ al.zip ar, q.1.content el = q.2.content er) :
    SameEnd I (I.run bl.entries el) (I.run br.entries er) bl br := by
  have hrunl := I.runs_run bl.entries el
  have hrunr := I.runs_run br.entries er
  have hE : Executions I al bl ar br (I.run bl.entries el) (I.run br.entries er) :=
    ⟨hl, hr, hfl, hfr, hrunl.holds hl.singleAssignment_entries,
      hrunr.holds hr.singleAssignment_entries⟩
  -- The arguments are never written.
  have hargs' : ∀ q ∈ al.zip ar,
      q.1.content (I.run bl.entries el) = q.2.content (I.run br.entries er) := by
    intro q hq
    obtain ⟨ha, hb⟩ := List.of_mem_zip hq
    have hq' := hargs q hq
    unfold Register.content at hq' ⊢
    rw [hrunl.frame (hl.apart q.1 ha), hrunr.frame (hr.apart q.2 hb), hq']
  have hstart : ∀ p, Pairing.pairArguments (al.map .register) (ar.map .register) w.outer = .ok p →
      Sound I al bl ar br (I.run bl.entries el) (I.run br.entries er) c.skip 0 0 p := by
    intro p hp
    rw [hw] at hp
    exact sound_start hE hskip ht hargs' hp
  exact (((sound_invariant hE hskip hs).compareFunctions hstart (hh ▸ .nil)).of_ok h).2 rfl

/-! ### Doubling -/

namespace Sample

/-- The term is a variable of eight bits. -/
def isByte (n : String) : {s : TermSort} → Term s → Bool
  | s, .var k _ => k == n && s == .bits 8
  | _, _ => false

/-- The term doubles a variable of eight bits. -/
def isDouble (n : String) : {s : TermSort} → Term s → Bool
  | _, .bin op a b => isByte n a && (op == .add && isByte n b || op == .shl && isOne b)
  | _, _ => false
where
  isOne : {s : TermSort} → Term s → Bool
    | _, .bits v => v.toNat == 1
    | _, _ => false

/-- The question whether doubles `y` and `y'` of equal bytes `x` and `x'` may differ. That the bytes
are equal may be said more than once. -/
def asksDoubling (x x' y y' : String) (as : List Assertion) : Bool :=
  match as.drop (as.length - 4) with
  | [.eq a b, .eq c d, .eq e f, .distinct g h] =>
    isByte x a && isByte x' b && isByte y c && isDouble x d && isByte y' e && isDouble x' f &&
      isByte y g && isByte y' h
  | _ => false

private theorem sort_of_isByte {n : String} {s : TermSort} {t : Term s} (h : isByte n t = true) :
    s = .bits 8 := by
  cases t with
  | var k s =>
    simp only [isByte, Bool.and_eq_true, beq_iff_eq] at h
    exact h.2
  | _ => cases h

private theorem eval_of_isByte {n : String} {t : Term (.bits 8)} (h : isByte n t = true)
    (m : Model) : t.eval m = m.value n (.bits 8) := by
  cases t with
  | var k s =>
    simp only [isByte, Bool.and_eq_true, beq_iff_eq] at h
    rw [← h.1]
    rfl
  | _ => cases h

private theorem eval_of_isDouble {n : String} {t : Term (.bits 8)} (h : isDouble n t = true)
    (m : Model) : t.eval m = (m.value n (.bits 8) <<< 1 : BitVec 8) := by
  cases t with
  | bin op a b =>
    simp only [isDouble, Bool.and_eq_true, Bool.or_eq_true, beq_iff_eq] at h
    obtain ⟨ha, ⟨rfl, hb⟩ | ⟨rfl, hb⟩⟩ := h
    · simp only [Term.eval, BitOp.apply, eval_of_isByte ha, eval_of_isByte hb]
      generalize m.value n (.bits 8) = x
      revert x
      decide +kernel
    · cases b with
      | bits v =>
        have hv : v = 1#8 := BitVec.eq_of_toNat_eq (beq_iff_eq.mp hb)
        simp only [Term.eval, BitOp.apply, eval_of_isByte ha, hv]
        rfl
      | _ => cases hb
  | _ => cases h

/-- Two ways to double equal bytes never differ. -/
theorem not_satisfiable_of_asksDoubling {x x' y y' : String} {as : List Assertion}
    (h : asksDoubling x x' y y' as = true) : ¬ Satisfiable as := by
  rintro ⟨m, hm⟩
  unfold asksDoubling at h
  have hlast : m.Satisfies (as.drop (as.length - 4)) := fun a ha => hm a (List.mem_of_mem_drop ha)
  split at h
  next s₁ a b s₂ c d s₃ e f s₄ g h' heq =>
    rw [heq] at hlast
    simp only [Bool.and_eq_true] at h
    obtain ⟨⟨⟨⟨⟨⟨⟨ha, hb⟩, hc⟩, hd⟩, he⟩, hf⟩, hg⟩, hh⟩ := h
    obtain rfl := sort_of_isByte ha
    obtain rfl := sort_of_isByte hc
    obtain rfl := sort_of_isByte he
    obtain rfl := sort_of_isByte hg
    simp only [Model.Satisfies, List.forall_mem_cons] at hlast
    obtain ⟨hseed, hsum, hshift, hne, -⟩ := hlast
    rw [Term.eval_eq, eval_of_isByte ha, eval_of_isByte hb] at hseed
    rw [Term.eval_eq, eval_of_isByte hc, eval_of_isDouble hd] at hsum
    rw [Term.eval_eq, eval_of_isByte he, eval_of_isDouble hf] at hshift
    rw [Term.eval_distinct, eval_of_isByte hg, eval_of_isByte hh] at hne
    exact hne (by rw [hsum, hshift, hseed])
  next => cases h

/-- A solver that knows nothing but that these are two ways to double, and a clock that stands
still. -/
def doubling : Surroundings where
  clock _ := .whole 0
  solver _ as := if asksDoubling "L_0" "R_1" "L_2" "R_3" as then some .unsat else some .unknown

private theorem doubling_sound (n : Nat) (as : List Assertion)
    (h : doubling.solver n as = some .unsat) : ¬ Satisfiable as := by
  by_cases hask : asksDoubling "L_0" "R_1" "L_2" "R_3" as = true
  · exact not_satisfiable_of_asksDoubling hask
  · rw [show doubling.solver n as = some .unknown from if_neg hask] at h
    cases h

private theorem summed_constantsFit : summed.ConstantsFit := by
  simp [Block.ConstantsFit, summed, sum, ret]

private theorem shifted_constantsFit : shifted.ConstantsFit := by
  have hfits : Constant.Fits ⟨9, .integer 8, .int 1⟩ := ⟨.int 1, rfl⟩
  simp [Block.ConstantsFit, shifted, shift, ret, hfits]

/-- A sum and a shift are found equal with the help of the solver, so both functions return the same
byte. -/
theorem doubling_sameEnd : ∃ w,
    Structural.compareFunctions {} doubling ([byte 0].map .register) summed
      ([byte 1].map .register) shifted fresh = .ok .equal w ∧ w.ledger.questions ≠ 0 ∧
    ∀ el er : Env Unit, (byte 0).content el = (byte 1).content er →
      SameEnd .standard (Interpretation.standard.run summed.entries el)
        (Interpretation.standard.run shifted.entries er) summed shifted := by
  have hrun : agreesByAsking (Structural.compareFunctions {} doubling ([byte 0].map .register)
      summed ([byte 1].map .register) shifted fresh) = true := by decide +kernel
  obtain ⟨w, hw, hasked⟩ := eq_ok_of_agreesByAsking hrun
  refine ⟨w, hw, hasked, fun el er hargs => ?_⟩
  exact Structural.compareFunctions_sound .standard summed_straightLine shifted_straightLine
    summed_constantsFit shifted_constantsFit (by decide) (fun _ => rfl) doubling_sound rfl rfl hw
    (by simpa using hargs)

end Sample

end BlockEquiv
