import BlockEquiv.Encoding.Instruction
import BlockEquiv.Proofs.Inversion
import BlockEquiv.Proofs.Wrapping

/-!
# What the assertion of an instruction says

In a model that reads the variables of a side from an environment, the assertion of an instruction
holds exactly if the instruction's register holds the value of the operation on its operands, or if
the flags leave the result undefined.
-/

namespace BlockEquiv

variable {X : Type}

/-- The model gives the variables of a side the contents of the environment. -/
structure Model.Reads (m : Model) (sym : Externals X) (side : String) (e : Env X) : Prop where
  value : ∀ u s, m.value (Value.variableName side u) s = e u (.sorted s)
  math : m.math = sym.math
  outside : m.outside = sym.outside

namespace Encode

variable {m : Model} {sym : Externals X} {side : String} {e : Env X}

/-- A checked term that has an encoding is that encoding. -/
theorem sorted_eq_ok {α : Type} {x : Except SortError α} {a : α} (h : sorted x = .ok a) :
    x = .ok a := by
  cases x with
  | error e => cases h
  | ok b => exact congrArg Except.ok (Except.ok.inj h)

/-! ### Values -/

/-- The symbol of a type is the variable of its sort. -/
theorem symbol_eq_ok {t : Ty} {n : String} {a : AnyTerm} (h : t.symbol n = .ok a) :
    t.sort? = some a.sort ∧ a = ⟨a.sort, .var n a.sort⟩ := by
  unfold Ty.symbol at h
  split at h
  · next s hs =>
    cases h
    exact ⟨hs, rfl⟩
  · cases h

private theorem literal_content {c : Constant} {a : AnyTerm} (h : c.literal = .ok a) :
    c.content sym = a.content X m := by
  rw [Constant.literal] at h
  rw [Constant.content]
  split at h
  · next w _ n ht hp =>
    rw [ht, hp]
    by_cases hw : w = 1
    · simp only [if_pos hw] at h ⊢
      cases h
      rfl
    · simp only [if_neg hw] at h ⊢
      cases h
      rfl
  · next f x ht hp =>
    rw [ht, hp]
    cases h
    rfl
  · cases h
  · cases h
  · cases h

private theorem literal_sort {c : Constant} {a : AnyTerm} (h : c.literal = .ok a) :
    c.type.sort? = some a.sort := by
  rw [Constant.literal] at h
  split at h
  · next w _ n ht _ =>
    rw [ht, Ty.sort?]
    by_cases hw : w = 1
    · rw [if_pos hw] at h ⊢
      cases h
      rfl
    · rw [if_neg hw] at h ⊢
      cases h
      rfl
  · next f x ht _ =>
    rw [ht]
    cases h
    rfl
  · cases h
  · cases h
  · cases h

/-- The term of a value has the sort of the value's type. -/
theorem term_sort {v : Value} {a : AnyTerm} (h : v.term side = .ok a) :
    v.type.sort? = some a.sort := by
  cases v with
  | register r => exact (symbol_eq_ok h).1
  | constant c => exact literal_sort h

/-- The term of a value has the value's content. -/
theorem term_content (hm : m.Reads sym side e) {v : Value} {a : AnyTerm}
    (h : v.term side = .ok a) : v.content sym e = a.content X m := by
  cases v with
  | constant c => exact literal_content h
  | register r =>
    obtain ⟨hs, ha⟩ := symbol_eq_ok h
    rw [ha, AnyTerm.content, Content.of, Term.eval, hm.value, Value.content, Register.content,
      Ty.shape_of_sort? hs]

/-- The vectors of values have at least one bit. -/
theorem width_pos {v : Value} {a : AnyTerm} (h : v.term side = .ok a) {w : Nat}
    (hw : a.sort = .bits w) : 0 < w := by
  have hs := term_sort h
  rw [hw] at hs
  cases ht : v.type with
  | integer n hn =>
    rw [ht, Ty.sort?] at hs
    by_cases h1 : n = 1
    · rw [if_pos h1] at hs
      cases hs
    · rw [if_neg h1] at hs
      cases hs
      exact hn
  | void | floating f | pointer | label => simp [ht, Ty.sort?] at hs

/-- The contents of the operands are those of their terms. -/
theorem operands_content (hm : m.Reads sym side e) {i : Instruction} {ts : List AnyTerm}
    (h : operands side i = .ok ts) : i.inputs sym e = ts.map (AnyTerm.content X m) := by
  unfold operands at h
  unfold Instruction.inputs
  generalize i.operands = vs at h ⊢
  induction vs generalizing ts with
  | nil =>
    cases h
    rfl
  | cons v vs ih =>
    rw [List.mapM_cons] at h
    obtain ⟨a, ha, h⟩ := bind_eq_ok_iff.mp h
    obtain ⟨as, has, h⟩ := bind_eq_ok_iff.mp h
    cases h
    rw [List.map_cons, List.map_cons, term_content hm ha, ih has]

/-! ### Vectors -/

/-- The content of a term that reads as a vector reads as the same vector. -/
theorem bits_of_toBits {a : AnyTerm} {w : Nat} {x : Term (.bits w)} (h : a.toBits = x.pack) :
    (a.content X m).bits? = some ⟨w, x.eval m⟩ := by
  obtain ⟨s, t⟩ := a
  cases s with
  | bool =>
    cases h
    rw [AnyTerm.content, Content.bits?_bool, Term.eval]
    cases t.eval m <;> rfl
  | bits v =>
    cases h
    rfl
  | float f => cases h

private theorem pos_of_toBits {a : AnyTerm} (ha : ∀ w, a.sort = .bits w → 0 < w) {w : Nat}
    {x : Term (.bits w)} (h : a.toBits = x.pack) : 0 < w := by
  obtain ⟨s, t⟩ := a
  cases s with
  | bool =>
    cases h
    exact Nat.one_pos
  | bits v =>
    cases h
    exact ha w rfl
  | float f => cases h

/-- Two contents that read as vectors of one width read as a pair of them. -/
theorem bitsPair_of_bits {c d : Content X} {w : Nat} {x y : BitVec w}
    (hc : c.bits? = some ⟨w, x⟩) (hd : d.bits? = some ⟨w, y⟩) :
    c.bitsPair? d = some ⟨w, x, y⟩ := by
  simp [Content.bitsPair?, hc, hd]

private theorem getLsbD_zero_eq (v : BitVec 1) : v.getLsbD 0 = decide (v = 1#1) := by
  rcases BitVec.eq_zero_or_eq_one v with rfl | rfl <;> rfl

/-- A vector stored at an integer type, whose sort is checked where the result is equated. -/
theorem ofBits_content {t : Ty} {w : Nat} {x : Term (.bits w)} {c : AnyTerm}
    (ht : t.sort? = some c.sort) (h : ofBits t x.pack = .ok c) :
    Meaning.ofBits t (x.eval m : BitVec w) = some (c.content X m) := by
  cases t with
  | void | pointer | label => simp [Ty.sort?] at ht
  | floating f =>
    cases h
    simp [Ty.sort?, Term.pack] at ht
  | integer n hn =>
    by_cases h1 : n = 1
    · subst h1
      obtain ⟨d, hd, hc⟩ := bind_eq_ok_iff.mp (show (x.pack.equal _ >>= _) = .ok c from h)
      cases hc
      obtain ⟨hs, hv⟩ := AnyTerm.equal_eq_ok (X := X) (m := m) hd
      cases hs
      have hb : d.eval m = decide (x.eval m = 1#1) := by
        rw [Bool.eq_iff_iff, hv, decide_eq_true_iff]
        exact Content.of_inj
      rw [AnyTerm.content_pack, hb, ← getLsbD_zero_eq]
      rfl
    · have hc : ofBits (.integer n hn) x.pack = .ok x.pack := by
        simp [ofBits, Ty.isBool, Ty.isInteger, Ty.width, h1]
      rw [hc] at h
      cases h
      rw [Ty.sort?, if_neg h1] at ht
      cases ht
      rw [Meaning.ofBits, if_neg (not_not_intro rfl), if_neg h1, AnyTerm.content_pack]

/-! ### What an assertion defines -/

/-- The assertion equates the result with the value of the operation, where it is defined. -/
def Defines (m : Model) (sym : Externals X) (i : Instruction) (args : List (Content X))
    (res : AnyTerm) (t : Assertion) : Prop :=
  ∃ c d, res.equal c = .ok d ∧ i.signature.value? sym args = some (c.content X m) ∧
    (t.eval m = true ↔ (i.signature.Defined args → d.eval m = true))

/-- Equating the result with the value of a defined operation defines it. -/
theorem defines_of_equal {i : Instruction} {args : List (Content X)} {res c : AnyTerm}
    {t : Assertion} (h : res.equal c = .ok t)
    (hv : i.signature.value? sym args = some (c.content X m)) (hd : i.signature.Defined args) :
    Defines m sym i args res t := ⟨c, t, h, hv, by simp [hd]⟩

private theorem defined_of_forall {o : Signature}
    (h : ∀ {w : Nat} (x y : BitVec w), o.DefinedOn x y) (args : List (Content X)) :
    o.Defined args := by
  unfold Signature.Defined
  split
  · exact fun p _ => h p.left p.right
  · trivial

/-- Only integer operations may be left undefined. -/
theorem defined_of_bitOp_none {o : Signature} (h : o.opcode.bitOp? = none)
    (args : List (Content X)) : o.Defined args := by
  apply defined_of_forall
  intro w x y
  constructor <;> intro _ <;> cases hop : o.opcode <;> rw [hop] at h <;> trivial

/-- The logical operations are always defined. -/
theorem defined_of_connective {o : Signature} {f : Term .bool → Term .bool → Assertion}
    (h : connective? o.opcode = some f) (args : List (Content X)) : o.Defined args := by
  apply defined_of_forall
  intro w x y
  constructor <;> intro _ <;> cases hop : o.opcode <;> rw [hop] at h <;> trivial

/-- The meaning of an opcode on vectors is the operation that it is encoded as. -/
theorem onBits?_of_bitOp {code : Opcode} {op : BitOp} (h : code.bitOp? = some op) {w : Nat}
    (x y : BitVec w) : code.onBits? x y = some (op.apply x y) := by
  cases code <;> cases h <;> rfl

/-- The value of an integer operation is the one computed on its operands. -/
theorem value?_of_integer? {o : Signature} {op : BitOp} (h : o.opcode.bitOp? = some op)
    {args : List (Content X)} {c : Content X}
    (hc : Meaning.integer? o.opcode o.type args = some c) : o.value? sym args = some c := by
  have hv : o.value? sym args =
      (Meaning.integer? o.opcode o.type args).or (Meaning.rounded? o.opcode args) := by
    unfold Signature.value?
    cases hop : o.opcode <;> rw [hop] at h <;> cases h <;> rfl
  rw [hv, hc, Option.some_or]

private theorem bitwise_defines {i : Instruction} {op : BitOp} {res a b : AnyTerm} {t : Assertion}
    (hop : i.opcode.bitOp? = some op) (hres : i.type.sort? = some res.sort)
    (ha : ∀ w, a.sort = .bits w → 0 < w) (h : bitwise i op res a.toBits b.toBits = .ok t) :
    Defines m sym i [a.content X m, b.content X m] res t := by
  unfold bitwise at h
  split at h
  · next w x hx =>
    obtain ⟨y, hy, h⟩ := bind_eq_ok_iff.mp h
    obtain ⟨c, hc, h⟩ := bind_eq_ok_iff.mp h
    obtain ⟨d, hd, h⟩ := bind_eq_ok_iff.mp h
    cases h
    have hpair := bitsPair_of_bits (bits_of_toBits (X := X) (m := m) hx)
      (bits_of_toBits (X := X) (m := m) (AnyTerm.expect_eq_ok hy))
    have hsort := (AnyTerm.equal_eq_ok (X := X) (m := m) hd).1
    refine ⟨c, d, hd, ?_, ?_⟩
    · have hv := ofBits_content (X := X) (m := m) (hsort ▸ hres) hc
      have hi : Meaning.integer? i.opcode i.type [a.content X m, b.content X m] =
          some (c.content X m) := by
        simp only [Meaning.integer?, hpair, Option.bind_some, Option.bind_eq_bind,
          onBits?_of_bitOp hop]
        exact hv
      exact value?_of_integer? hop hi
    · rw [eval_guarded, eval_preconditions (pos_of_toBits ha hx) i rfl rfl]
      simp only [Signature.Defined, hpair, Option.mem_some_iff, forall_eq']
  · cases h

private theorem connective_content {code : Opcode} {f : Term .bool → Term .bool → Assertion}
    (hf : connective? code = some f) {t : Ty} (ht : t.isBool = true) (x y : Term .bool) :
    Meaning.integer? code t [x.pack.content X m, y.pack.content X m] =
      some ((f x y).pack.content X m) := by
  cases t with
  | void | floating f | pointer | label => cases ht
  | integer n hn =>
    have h1 : n = 1 := by simpa [Ty.isBool, Ty.isInteger, Ty.width] using ht
    subst h1
    cases code <;> cases hf <;> simp only [Meaning.integer?, AnyTerm.content_pack,
      Content.bitsPair?_bool, Option.bind_some, Option.bind_eq_bind, Opcode.onBits?, Term.eval,
      Term.evalAll, Term.evalAny] <;>
      cases x.eval m <;> cases y.eval m <;> rfl

/-- The assertion of an integer operation defines its result. -/
theorem integer_defines {i : Instruction} {op : BitOp} {res a b : AnyTerm} {t : Assertion}
    (hop : i.opcode.bitOp? = some op) (hres : i.type.sort? = some res.sort)
    (ha : ∀ w, a.sort = .bits w → 0 < w) (h : integer i op res a b = .ok t) :
    Defines m sym i [a.content X m, b.content X m] res t := by
  unfold integer at h
  split at h
  · next connective hbool hconn =>
    obtain ⟨x, hx, h⟩ := bind_eq_ok_iff.mp (sorted_eq_ok h)
    obtain ⟨y, hy, h⟩ := bind_eq_ok_iff.mp h
    rw [AnyTerm.expect_eq_ok hx, AnyTerm.expect_eq_ok hy]
    exact defines_of_equal h (value?_of_integer? hop (connective_content hconn hbool x y))
      (defined_of_connective (o := i.signature) hconn _)
  · split at h
    · exact bitwise_defines hop hres ha (sorted_eq_ok h)
    · cases h

/-! ### Floating-point operations -/

/-- A floating operation has a term only on two terms of one format. -/
theorem floatBin_eq_ok {op : FloatOp} {a b c : AnyTerm} (h : AnyTerm.floatBin op a b = .ok c) :
    ∃ (f : Format) (x y : Term (.float f)), a = x.pack ∧ b = y.pack ∧
      c = (Term.floatBin op x y).pack := by
  unfold AnyTerm.floatBin at h
  split at h
  · next f x =>
    obtain ⟨y, hy, h⟩ := bind_eq_ok_iff.mp h
    cases h
    exact ⟨f, x, y, rfl, AnyTerm.expect_eq_ok hy, rfl⟩
  · cases h

private theorem value?_of_floatOp {o : Signature} {op : FloatOp} (h : o.opcode.floatOp? = some op)
    {f : Format} (x y : FloatValue f) :
    o.value? sym [.of (s := .float f) x, .of (s := .float f) y] =
      some (Meaning.ofFloat (op.apply x y)) := by
  unfold Signature.value?
  cases hop : o.opcode <;> rw [hop] at h <;> cases h <;>
    simp [Opcode.isCast, Meaning.integer?, Meaning.rounded?, FloatOp.apply]

/-- The assertion of a floating operation defines its result. -/
theorem floating_defines {i : Instruction} {op : FloatOp} {res a b : AnyTerm} {t : Assertion}
    (hop : i.opcode.floatOp? = some op) (h : floating op res a b = .ok t) :
    Defines m sym i [a.content X m, b.content X m] res t := by
  obtain ⟨c, hc, h⟩ := bind_eq_ok_iff.mp (sorted_eq_ok h)
  obtain ⟨f, x, y, rfl, rfl, rfl⟩ := floatBin_eq_ok hc
  have hbit : i.signature.opcode.bitOp? = none := by
    change i.opcode.bitOp? = none
    cases hi : i.opcode <;> rw [hi] at hop <;> cases hop <;> rfl
  exact defines_of_equal h (value?_of_floatOp hop _ _) (defined_of_bitOp_none hbit _)

/-- The assertion of a negation defines its result. -/
theorem negation_defines {i : Instruction} {res a c : AnyTerm} {t : Assertion}
    (hop : i.opcode = .fneg) (hc : a.floatNeg = .ok c) (h : res.equal c = .ok t) :
    Defines m sym i [a.content X m] res t := by
  unfold AnyTerm.floatNeg at hc
  split at hc
  · next f x =>
    cases hc
    refine defines_of_equal h ?_ (defined_of_bitOp_none (by rw [Instruction.signature, hop]; rfl) _)
    simp only [Signature.value?, Instruction.signature, hop]
    rfl
  · cases hc

end Encode

end BlockEquiv
