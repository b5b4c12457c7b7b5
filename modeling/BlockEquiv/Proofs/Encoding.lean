import BlockEquiv.Proofs.Comparison

/-!
# Encodings of all instructions

The remaining rules (conversions, choices and calls), and the statement for every instruction: its
assertion holds in a model that reads an environment exactly if the environment gives the
instruction's register a content that the instruction may yield.
-/

namespace BlockEquiv

namespace Encode

variable {X : Type} {m : Model} {sym : Externals X} {side : String} {e : Env X}

/-! ### Conversions -/

/-- An extension takes a vector that is no wider than its result. -/
theorem extend_eq_ok {sign : Signedness} {n : Nat} {a c : AnyTerm}
    (h : extend sign n a = .ok c) :
    ∃ (w : Nat) (x : Term (.bits w)), w ≤ n ∧ a = x.pack ∧
      c = (match sign with
        | .unsigned => Term.zeroExtend n x
        | .signed => Term.signExtend n x).pack := by
  unfold extend at h
  split at h
  · next w x =>
    split at h
    · next hw =>
      refine ⟨w, x, hw, rfl, ?_⟩
      cases sign <;> exact (Except.ok.inj h).symm
    · cases h
  · cases h

/-- A truncation takes a vector that is no narrower than its result. -/
theorem truncate_eq_ok {n : Nat} {a c : AnyTerm} (h : truncate n a = .ok c) :
    ∃ (w : Nat) (x : Term (.bits w)), n ≤ w ∧ a = x.pack ∧ c = (Term.extract 0 n x).pack := by
  unfold truncate at h
  split at h
  · next w x =>
    split at h
    · next hw => exact ⟨w, x, hw.2, rfl, (Except.ok.inj h).symm⟩
    · cases h
  · cases h

/-- The conversion to an integer takes a floating term. -/
theorem wholePart_eq_ok {sign : Signedness} {n : Nat} {a c : AnyTerm}
    (h : wholePart sign n a = .ok c) :
    ∃ (f : Format) (x : Term (.float f)), a = x.pack ∧ c = (Term.toBits sign n x).pack := by
  unfold wholePart at h
  split at h
  · next f x =>
    split at h
    · exact ⟨f, x, rfl, (Except.ok.inj h).symm⟩
    · cases h
  · cases h

/-- The conversion from an integer takes a vector. -/
theorem ofWhole_eq_ok {sign : Signedness} {f : Format} {a c : AnyTerm}
    (h : ofWhole sign f a = .ok c) :
    ∃ (w : Nat) (x : Term (.bits w)), a = x.pack ∧ c = (Term.ofBits sign f x).pack := by
  unfold ofWhole at h
  split at h
  · next w x => exact ⟨w, x, rfl, (Except.ok.inj h).symm⟩
  · cases h

/-- The conversion to another format takes a floating term. -/
theorem reformat_eq_ok {f : Format} {a c : AnyTerm} (h : reformat f a = .ok c) :
    ∃ (g : Format) (x : Term (.float g)), a = x.pack ∧ c = (Term.convert f x).pack := by
  unfold reformat at h
  split at h
  · next g x => exact ⟨g, x, rfl, (Except.ok.inj h).symm⟩
  · cases h

private theorem format_eq_ok {t : Ty} {f : Format} (h : t.format = .ok f) : t = .floating f := by
  cases t with
  | floating g => cases h; rfl
  | void | integer | pointer | label => cases h

/-- The term of a conversion has the content of the converted operand. -/
theorem converted_content (hm : m.outside = sym.outside) {op : Opcode} {t : Ty} {a c : AnyTerm}
    (ht : t.sort? = some c.sort) (h : converted op t a = .ok c) (rest : List (Content X)) :
    Meaning.cast? sym op t (a.content X m :: rest) = some (c.content X m) := by
  unfold converted at h
  split at h
  · obtain ⟨d, hd, h⟩ := bind_eq_ok_iff.mp (sorted_eq_ok h)
    obtain ⟨w, x, hw, hx, rfl⟩ := extend_eq_ok hd
    have hc := ofBits_content (X := X) (m := m) ht h
    rw [Term.eval] at hc
    simpa only [Meaning.cast?, bits_of_toBits hx, if_pos hw] using hc
  · obtain ⟨d, hd, h⟩ := bind_eq_ok_iff.mp (sorted_eq_ok h)
    obtain ⟨w, x, hw, hx, rfl⟩ := extend_eq_ok hd
    have hc := ofBits_content (X := X) (m := m) ht h
    rw [Term.eval] at hc
    simpa only [Meaning.cast?, bits_of_toBits hx, if_pos hw] using hc
  · obtain ⟨d, hd, h⟩ := bind_eq_ok_iff.mp (sorted_eq_ok h)
    obtain ⟨w, x, hw, hx, rfl⟩ := truncate_eq_ok hd
    have hc := ofBits_content (X := X) (m := m) ht h
    rw [Term.eval, ← BitVec.setWidth_eq_extractLsb' hw] at hc
    simpa only [Meaning.cast?, bits_of_toBits hx, if_pos hw] using hc
  · obtain ⟨f, hf, h⟩ := bind_eq_ok_iff.mp h
    obtain ⟨g, x, rfl, rfl⟩ := reformat_eq_ok (sorted_eq_ok h)
    rw [format_eq_ok hf]
    rfl
  · obtain ⟨f, hf, h⟩ := bind_eq_ok_iff.mp h
    obtain ⟨g, x, rfl, rfl⟩ := reformat_eq_ok (sorted_eq_ok h)
    rw [format_eq_ok hf]
    rfl
  · obtain ⟨d, hd, h⟩ := bind_eq_ok_iff.mp (sorted_eq_ok h)
    obtain ⟨f, x, rfl, rfl⟩ := wholePart_eq_ok hd
    rw [← ofBits_content ht h, Term.eval, hm]
    rfl
  · obtain ⟨d, hd, h⟩ := bind_eq_ok_iff.mp (sorted_eq_ok h)
    obtain ⟨f, x, rfl, rfl⟩ := wholePart_eq_ok hd
    rw [← ofBits_content ht h, Term.eval, hm]
    rfl
  · obtain ⟨f, hf, h⟩ := bind_eq_ok_iff.mp h
    obtain ⟨w, x, hx, rfl⟩ := ofWhole_eq_ok (sorted_eq_ok h)
    rw [format_eq_ok hf]
    simp only [Meaning.cast?, bits_of_toBits hx]
    rfl
  · obtain ⟨f, hf, h⟩ := bind_eq_ok_iff.mp h
    obtain ⟨w, x, hx, rfl⟩ := ofWhole_eq_ok (sorted_eq_ok h)
    rw [format_eq_ok hf]
    simp only [Meaning.cast?, bits_of_toBits hx]
    rfl
  · cases h

/-- The value of a conversion is that of its one operand converted. -/
theorem value?_of_isCast {o : Signature} (h : o.opcode.isCast = true) (args : List (Content X)) :
    o.value? sym args = Meaning.cast? sym o.opcode o.type args := by
  unfold Signature.value?
  cases hop : o.opcode <;> rw [hop] at h <;> first | rfl | cases h

private theorem cast_defines (hm : m.Reads sym side e) {i : Instruction} {res : AnyTerm}
    {t : Assertion} (hop : i.opcode.isCast = true) (hres : i.type.sort? = some res.sort)
    (h : cast side i res = .ok t) : Defines m sym i (i.inputs sym e) res t := by
  unfold cast at h
  split at h
  · cases h
  · next source rest hops =>
    obtain ⟨a, ha, h⟩ := bind_eq_ok_iff.mp h
    obtain ⟨c, hc, h⟩ := bind_eq_ok_iff.mp h
    have heq := sorted_eq_ok h
    have hsort := (AnyTerm.equal_eq_ok (X := X) (m := m) heq).1
    refine defines_of_equal heq ?_ (defined_of_bitOp_none ?_ _)
    · rw [value?_of_isCast (o := i.signature) hop, Instruction.inputs, hops, List.map_cons,
        term_content hm ha]
      exact converted_content hm.outside (hsort ▸ hres) hc _
    · change i.opcode.bitOp? = none
      cases hi : i.opcode <;> rw [hi] at hop <;> first | rfl | cases hop

/-! ### Choices -/

private theorem choose_content {a b c d : AnyTerm} (h : AnyTerm.choose a b c = .ok d) :
    Meaning.select? [a.content X m, b.content X m, c.content X m] = some (d.content X m) := by
  obtain ⟨x, hx, h⟩ := bind_eq_ok_iff.mp h
  obtain ⟨y, hy, h⟩ := bind_eq_ok_iff.mp h
  cases h
  rw [AnyTerm.expect_eq_ok hx, AnyTerm.expect_eq_ok hy, AnyTerm.content_pack, AnyTerm.content_pack]
  simp only [AnyTerm.content, Content.of, Meaning.select?, if_true, Term.eval, Term.pack]
  split <;> rfl

private theorem select_defines {i : Instruction} {res a b c d : AnyTerm} {t : Assertion}
    (hop : i.opcode = .select) (hd : AnyTerm.choose a b c = .ok d) (h : res.equal d = .ok t) :
    Defines m sym i [a.content X m, b.content X m, c.content X m] res t := by
  refine defines_of_equal h ?_ (defined_of_bitOp_none (by rw [Instruction.signature, hop]; rfl) _)
  simp only [Signature.value?, Instruction.signature, hop]
  exact choose_content hd

/-! ### Calls -/

/-- A fused multiplication has a term only on three terms of one format. -/
theorem fma_eq_ok {a b c d : AnyTerm} (h : AnyTerm.fma a b c = .ok d) :
    ∃ (f : Format) (x y z : Term (.float f)), a = x.pack ∧ b = y.pack ∧ c = z.pack ∧
      d = (Term.fma x y z).pack := by
  unfold AnyTerm.fma at h
  split at h
  · next f x =>
    obtain ⟨y, hy, h⟩ := bind_eq_ok_iff.mp h
    obtain ⟨z, hz, h⟩ := bind_eq_ok_iff.mp h
    cases h
    exact ⟨f, x, y, z, rfl, AnyTerm.expect_eq_ok hy, AnyTerm.expect_eq_ok hz, rfl⟩
  · cases h

private theorem multiplyAdd_content {n : String} (hn : n.startsWith multiplyAddStart = true)
    {a b c d p : AnyTerm} (hp : AnyTerm.floatBin .mul a b = .ok p)
    (hd : AnyTerm.floatBin .add p c = .ok d) :
    Meaning.call? sym n [a.content X m, b.content X m, c.content X m] = some (d.content X m) := by
  obtain ⟨f, x, y, rfl, rfl, rfl⟩ := floatBin_eq_ok hp
  obtain ⟨g, x', z, hx', rfl, rfl⟩ := floatBin_eq_ok hd
  cases hx'
  simp only [AnyTerm.content_pack, Meaning.call?, Content.floatTriple?_float, Option.bind_some,
    Option.bind_eq_bind]
  rw [multiplyAddStart] at hn
  rw [if_pos hn]
  rfl

private theorem fused_content {n : String} (hn : ¬ n.startsWith multiplyAddStart = true)
    (hf : n.startsWith fusedStart = true) {a b c d : AnyTerm} (hd : AnyTerm.fma a b c = .ok d) :
    Meaning.call? sym n [a.content X m, b.content X m, c.content X m] = some (d.content X m) := by
  obtain ⟨f, x, y, z, rfl, rfl, rfl, rfl⟩ := fma_eq_ok hd
  simp only [AnyTerm.content_pack, Meaning.call?, Content.floatTriple?_float, Option.bind_some,
    Option.bind_eq_bind]
  rw [multiplyAddStart] at hn
  rw [fusedStart] at hf
  rw [if_neg hn, if_pos hf]
  rfl

private theorem call_defines (hm : m.Reads sym side e) {i : Instruction} {res : AnyTerm}
    {t : Assertion} (hop : i.opcode = .call) (h : call side i res = .ok t) :
    Defines m sym i (i.inputs sym e) res t := by
  have hdef : i.signature.Defined (i.inputs sym e) :=
    defined_of_bitOp_none (by rw [Instruction.signature, hop]; rfl) _
  have hval : i.signature.value? sym (i.inputs sym e) =
      Meaning.call? sym (i.callee.getD "") (i.inputs sym e) := by
    simp only [Signature.value?, Instruction.signature, hop, if_true]
  unfold call at h
  dsimp only at h
  split at h
  · next x y z hops =>
    have hin : i.inputs sym e = [x.content sym e, y.content sym e, z.content sym e] := by
      rw [Instruction.inputs, hops]
      rfl
    split at h
    · next hn =>
      obtain ⟨a, ha, h⟩ := bind_eq_ok_iff.mp h
      obtain ⟨b, hb, h⟩ := bind_eq_ok_iff.mp h
      obtain ⟨c, hc, h⟩ := bind_eq_ok_iff.mp h
      obtain ⟨p, hp, h⟩ := bind_eq_ok_iff.mp (sorted_eq_ok h)
      obtain ⟨d, hd, h⟩ := bind_eq_ok_iff.mp h
      refine defines_of_equal h ?_ hdef
      rw [hval, hin, term_content hm ha, term_content hm hb, term_content hm hc]
      exact multiplyAdd_content hn hp hd
    · next hn =>
      split at h
      · next hf =>
        obtain ⟨a, ha, h⟩ := bind_eq_ok_iff.mp h
        obtain ⟨b, hb, h⟩ := bind_eq_ok_iff.mp h
        obtain ⟨c, hc, h⟩ := bind_eq_ok_iff.mp h
        obtain ⟨d, hd, h⟩ := bind_eq_ok_iff.mp (sorted_eq_ok h)
        refine defines_of_equal h ?_ hdef
        rw [hval, hin, term_content hm ha, term_content hm hb, term_content hm hc]
        exact fused_content hn hf hd
      · cases h
  · next x hops =>
    split at h
    · next fn hfn =>
      obtain ⟨a, ha, h⟩ := bind_eq_ok_iff.mp h
      obtain ⟨y, hy, h⟩ := bind_eq_ok_iff.mp (sorted_eq_ok h)
      refine defines_of_equal h ?_ hdef
      have hin : i.inputs sym e = [y.pack.content X m] := by
        rw [Instruction.inputs, hops, ← AnyTerm.expect_eq_ok hy, ← term_content hm ha]
        rfl
      rw [hval, hin, AnyTerm.content_pack, AnyTerm.content_pack, Term.eval, hm.math]
      simp only [Meaning.call?, Content.of, hfn, Option.map_some]
      rfl
    · cases h
  · cases h

/-! ### All instructions -/

private theorem first_width_pos {i : Instruction} {a : AnyTerm} {ts : List AnyTerm}
    (h : operands side i = .ok (a :: ts)) : ∀ w, a.sort = .bits w → 0 < w := by
  unfold operands at h
  cases hops : i.operands with
  | nil =>
    rw [hops] at h
    cases h
  | cons v vs =>
    rw [hops, List.mapM_cons] at h
    obtain ⟨b, hb, h⟩ := bind_eq_ok_iff.mp h
    obtain ⟨bs, hbs, h⟩ := bind_eq_ok_iff.mp h
    cases h
    exact fun w hw => width_pos hb hw

/-- The opcodes that a rule is for. -/
def Rule.Governs : Rule → Opcode → Prop
  | integer op, code => code.bitOp? = some op
  | floating op, code => code.floatOp? = some op
  | cast, code => code.isCast = true
  | negation, code => code = .fneg
  | intCompare, code => code = .icmp
  | floatCompare, code => code = .fcmp
  | select, code => code = .select
  | call, code => code = .call

/-- The rule chosen for an opcode is one for it. -/
theorem governs_of_rule? {code : Opcode} {rule : Rule} (h : rule? code = some rule) :
    rule.Governs code := by
  cases code <;> cases h <;> rfl

private theorem byRule_defines (hm : m.Reads sym side e) {i : Instruction} {res : AnyTerm}
    {rule : Rule} {t : Assertion} (hrule : rule.Governs i.opcode)
    (hres : i.type.sort? = some res.sort) (h : byRule side i res rule = .ok t) :
    Defines m sym i (i.inputs sym e) res t := by
  unfold byRule at h
  split at h
  · exact floatCompare_defines hm hrule h
  · exact cast_defines hm hrule hres h
  · exact call_defines hm hrule h
  · obtain ⟨ts, hts, h⟩ := bind_eq_ok_iff.mp h
    rw [operands_content hm hts]
    split at h
    · next op a b =>
      exact integer_defines hrule hres (first_width_pos hts) h
    · exact floating_defines hrule h
    · obtain ⟨c, hc, h⟩ := bind_eq_ok_iff.mp (sorted_eq_ok h)
      exact negation_defines hrule hc h
    · exact intCompare_defines hrule h
    · obtain ⟨c, hc, h⟩ := bind_eq_ok_iff.mp (sorted_eq_ok h)
      exact select_defines hrule hc h
    · cases h

/-- Only debug info is encoded as nothing. -/
theorem isDebugInfo_of_none {i : Instruction} (h : instruction side i = .ok none) :
    i.isDebugInfo = true := by
  unfold instruction at h
  split at h
  · assumption
  · split at h
    · cases h
    · split at h
      · cases h
      · obtain ⟨res, hres, h⟩ := bind_eq_ok_iff.mp h
        obtain ⟨t, ht, h⟩ := bind_eq_ok_iff.mp h
        cases h

/-- An instruction with an assertion has a rule, a term for its result, and the assertion by that
rule. -/
theorem instruction_eq_ok {i : Instruction} {t : Assertion}
    (h : instruction side i = .ok (some t)) :
    i.isDebugInfo = false ∧ ∃ rule res, rule? i.opcode = some rule ∧ i.value.term side = .ok res ∧
      byRule side i res rule = .ok t := by
  unfold instruction at h
  split at h
  · cases h
  · next hd =>
    refine ⟨Bool.eq_false_iff.mpr hd, ?_⟩
    split at h
    · cases h
    · next rule hrule =>
      split at h
      · cases h
      · obtain ⟨res, hres, h⟩ := bind_eq_ok_iff.mp h
        obtain ⟨a, ha, h⟩ := bind_eq_ok_iff.mp h
        cases h
        exact ⟨rule, res, hrule, hres, ha⟩

/-- An encoded instruction has a value on any operands, and its assertion holds exactly if its
register holds that value or the flags leave the result undefined. -/
theorem instruction_sound (hm : m.Reads sym side e) {i : Instruction} {t : Assertion}
    (h : instruction side i = .ok (some t)) :
    ∃ x : i.type.shape.Denote X,
      i.signature.value? sym (i.inputs sym e) = some ⟨i.type.shape, x⟩ ∧
      (t.eval m = true ↔ (i.signature.Defined (i.inputs sym e) → e i.uid i.type.shape = x)) := by
  obtain ⟨-, rule, res, hrule, hres, ht⟩ := instruction_eq_ok h
  have hsort : i.type.sort? = some res.sort := term_sort hres
  obtain ⟨c, d, heq, hval, hiff⟩ := byRule_defines hm (governs_of_rule? hrule) hsort ht
  obtain ⟨hcs, hd⟩ := AnyTerm.equal_eq_ok (X := X) (m := m) heq
  have hshape : i.type.shape = .sorted c.sort := by rw [Ty.shape_of_sort? hsort, hcs]
  have hcont : res.content X m = ⟨i.type.shape, e i.uid i.type.shape⟩ :=
    (term_content hm hres).symm
  rw [hval, hiff, hd, hcont]
  generalize i.type.shape = k at hshape
  subst hshape
  exact ⟨c.term.eval m, rfl, by simp [AnyTerm.content, Content.of]⟩

/-- The assertion of an instruction holds exactly if its register holds what it may yield. -/
theorem instruction_allows (hm : m.Reads sym side e) {i : Instruction} {t : Assertion}
    (h : instruction side i = .ok (some t)) :
    t.eval m = true ↔ i.signature.Allows sym (i.inputs sym e) (e i.uid i.type.shape) := by
  obtain ⟨x, hx, ht⟩ := instruction_sound hm h
  rw [ht]
  constructor
  · exact fun hd => ⟨x, hx, hd⟩
  · rintro ⟨y, hy, hd⟩ hdef
    rw [hx] at hy
    cases hy
    exact hd hdef

end Encode

end BlockEquiv
