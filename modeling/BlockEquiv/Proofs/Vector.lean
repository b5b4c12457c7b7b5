import BlockEquiv.Proofs.Question

/-!
# Integers in a model

A model gives every value of an integer type a bit vector of the type's width, a truth value being a
vector of one bit. Integer instructions that are well typed have an assertion, and it holds exactly
if the vector of the result is the operation's value on the vectors of the operands, or if the flags
leave the result undefined.
-/

namespace BlockEquiv

/-! ### Vectors of values -/

/-- A register of the integer type of a width, or a constant of that type with a whole number. -/
inductive Value.IsInteger (w : Nat) : Value → Prop
  | register {r : Register} (pos : 0 < w) (type : r.type = .integer w pos) :
    IsInteger w (.register r)
  | constant {c : Constant} {n : Int} (pos : 0 < w) (type : c.type = .integer w pos)
    (payload : c.payload = .int n) : IsInteger w (.constant c)

/-- The sort of the integers of a width. -/
def TermSort.integer (w : Nat) : TermSort := if w = 1 then .bool else .bits w

private theorem TermSort.integer_of_ne_one {w : Nat} (h : w ≠ 1) :
    TermSort.integer w = .bits w := if_neg h

/-- The vector of a width that a model gives a variable. -/
def Model.vector (m : Model) (w : Nat) (name : String) : BitVec w :=
  if w = 1 then (BitVec.ofBool (m.value name .bool)).setWidth w else m.value name (.bits w)

/-- The vector of a width that a value has in a model. -/
def Value.vector (m : Model) (side : String) (w : Nat) : Value → BitVec w
  | register r => m.vector w (variableName side r.uid)
  | constant c =>
    match c.payload with
    | .int n => BitVec.ofInt w n
    | _ => 0#w

/-- The model in which a variable is the given vector. -/
def Model.assign (m : Model) (name : String) {w : Nat} (z : BitVec w) : Model where
  value n s :=
    if n = name then
      match s with
      | .bool => z.getLsbD 0
      | .bits v => z.setWidth v
      | .float f => m.value n (.float f)
    else m.value n s
  math := m.math
  outside := m.outside

/-- The model in which the result of an instruction is the given vector. -/
def Model.setResult (m : Model) (side : String) (i : Instruction) {w : Nat} (z : BitVec w) :
    Model :=
  m.assign (Value.variableName side i.uid) z

/-- No operand of the instruction is its own result. -/
def Instruction.ReadsOthers (i : Instruction) : Prop :=
  ∀ r, Value.register r ∈ i.operands → r.uid ≠ i.uid

namespace Model

variable {w : Nat}

private theorem vector_assign (m : Model) (name : String) (z : BitVec w) :
    (m.assign name z).vector w name = z := by
  by_cases hw : w = 1
  · subst hw
    simp only [vector, assign, if_true]
    rcases BitVec.eq_zero_or_eq_one z with rfl | rfl <;> rfl
  · simp only [vector, assign, if_neg hw, if_true, BitVec.setWidth_eq]

private theorem vector_assign_of_ne (m : Model) {n name : String} (h : n ≠ name) (z : BitVec w)
    (v : Nat) : (m.assign name z).vector v n = m.vector v n := by
  simp only [vector, assign, if_neg h]

variable {side : String} {i : Instruction}

/-- The result that has been set is read back. -/
theorem setResult_value (m : Model) (side : String) (i : Instruction) (z : BitVec w) :
    i.value.vector (m.setResult side i z) side w = z := m.vector_assign _ z

/-- Setting the result of an instruction changes none of its operands. -/
theorem setResult_operand (m : Model) (hi : i.ReadsOthers) {v : Value} (hv : v ∈ i.operands)
    (z : BitVec w) (n : Nat) : v.vector (m.setResult side i z) side n = v.vector m side n := by
  cases v with
  | constant c => rfl
  | register r =>
    apply vector_assign_of_ne
    intro hname
    exact hi r hv (Value.variableName_inj hname)

end Model

/-- Contents of one kind are equal if they are equal as vectors. -/
theorem Content.eq_iff_of_bits? {X : Type} {k : Shape} {c d : k.Denote X} {w : Nat} {x y : BitVec w}
    (hc : Content.bits? ⟨k, c⟩ = some ⟨w, x⟩) (hd : Content.bits? ⟨k, d⟩ = some ⟨w, y⟩) :
    c = d ↔ x = y := by
  cases k with
  | foreign | nothing => cases hc
  | sorted s =>
    cases s with
    | float f => cases hc
    | bits v =>
      cases hc
      cases hd
      rfl
    | bool =>
      cases hc
      cases hd
      cases c <;> cases d <;> simp

/-- A vector is the content of an integer of its width. -/
theorem Meaning.ofBits_integer {X : Type} {w : Nat} (hw : 0 < w) (x : BitVec w) :
    ∃ c : Content X, Meaning.ofBits (.integer w hw) x = some c ∧ c.bits? = some ⟨w, x⟩ := by
  by_cases h1 : w = 1
  · subst h1
    refine ⟨.of (s := .bool) (x.getLsbD 0), rfl, ?_⟩
    rcases BitVec.eq_zero_or_eq_one x with rfl | rfl <;> rfl
  · exact ⟨.of (s := .bits w) x, by simp [Meaning.ofBits, h1], rfl⟩

namespace Value.IsInteger

variable {w : Nat} {v : Value}

/-- An integer has at least one bit. -/
theorem pos (h : v.IsInteger w) : 0 < w := by
  cases h <;> assumption

/-- The type of an integer of a width. -/
theorem type_eq (h : v.IsInteger w) : v.type = .integer w h.pos := by
  cases h with
  | register _ type => exact type
  | constant _ type _ => exact type

/-- The content of an integer is its vector. -/
theorem content_eq (h : v.IsInteger w) (m : Model) (side : String) :
    Meaning.ofBits (.integer w h.pos) (v.vector m side w) =
      some (v.content (m.externals Unit) (m.env Unit side)) := by
  cases h with
  | @register r pos type =>
    obtain ⟨u, _, name⟩ := r
    cases type
    simp only [Value.content, Register.content, Value.vector, Model.vector, Ty.shape,
      Meaning.ofBits, ne_eq, not_true, if_false]
    by_cases hw : w = 1
    · subst hw
      have hbit (p : Bool) : ((BitVec.ofBool p).setWidth 1).getLsbD 0 = p := by cases p <;> rfl
      exact congrArg some (congrArg (Content.of (s := .bool)) (hbit _))
    · rw [if_neg hw, if_neg hw, if_neg hw]
      rfl
  | @constant c n pos type payload =>
    simp only [Value.content, Constant.content, Value.vector, type, payload, Meaning.ofBits, ne_eq,
      not_true, if_false]
    by_cases hw : w = 1
    · subst hw
      have hbit : BitVec.ofInt 1 n = BitVec.ofBool (n % 2 == 1) := by
        apply BitVec.eq_of_toNat_eq
        rw [BitVec.toNat_ofInt]
        rcases Int.emod_two_eq n with hn | hn <;> simp [hn]
      rw [if_pos rfl, if_pos rfl, hbit]
      cases n % 2 == 1 <;> rfl
    · rw [if_neg hw, if_neg hw]

/-- The content of an integer reads as its vector. -/
theorem bits? (h : v.IsInteger w) (m : Model) (side : String) :
    (v.content (m.externals Unit) (m.env Unit side)).bits? = some ⟨w, v.vector m side w⟩ := by
  obtain ⟨c, hc, hbits⟩ := Meaning.ofBits_integer (X := Unit) h.pos (v.vector m side w)
  rw [h.content_eq m side] at hc
  cases hc
  exact hbits

/-- An integer has a term of its width. -/
theorem term (h : v.IsInteger w) (side : String) :
    ∃ a, v.term side = .ok a ∧ a.sort = .integer w := by
  have hterm : ∃ a, v.term side = .ok a := by
    cases h with
    | register pos type => simp [Value.term, Ty.symbol, type, Ty.sort?]
    | constant pos type payload =>
      simp only [Value.term, Constant.literal, type, payload]
      by_cases hw : w = 1 <;> simp [hw]
  obtain ⟨a, ha⟩ := hterm
  refine ⟨a, ha, ?_⟩
  have hsort := Encode.term_sort ha
  rw [h.type_eq, Ty.sort?] at hsort
  exact (Option.some.inj hsort).symm

end Value.IsInteger

/-! ### Terms of one sort -/

namespace AnyTerm

variable {w : Nat}

/-- A term passes as one of its own sort. -/
theorem expect_of_sort {a : AnyTerm} {s : TermSort} (h : a.sort = s) :
    ∃ x : Term s, a = x.pack ∧ a.expect s = .ok x := by
  subst h
  exact ⟨a.term, rfl, by simp [expect]⟩

/-- Terms of one sort can be equated. -/
theorem equal_of_sort {a b : AnyTerm} (h : a.sort = b.sort) : ∃ t, a.equal b = .ok t := by
  obtain ⟨y, -, hy⟩ := expect_of_sort h.symm
  exact ⟨_, by rw [equal, hy]; rfl⟩

/-- Terms of one sort can be told to differ. -/
theorem differ_of_sort {a b : AnyTerm} (h : a.sort = b.sort) : ∃ t, a.differ b = .ok t := by
  obtain ⟨y, -, hy⟩ := expect_of_sort h.symm
  exact ⟨_, by rw [differ, hy]; rfl⟩

/-- A term of an integer sort reads as a vector of its width. -/
theorem toBits_of_sort {a : AnyTerm} (h : a.sort = .integer w) :
    ∃ x : Term (.bits w), a.toBits = x.pack := by
  by_cases hw : w = 1
  · subst hw
    obtain ⟨x, rfl, -⟩ := expect_of_sort (show a.sort = .bool from h)
    exact ⟨_, rfl⟩
  · obtain ⟨x, rfl, -⟩ := expect_of_sort (h.trans (TermSort.integer_of_ne_one hw))
    exact ⟨x, rfl⟩

end AnyTerm

namespace Encode

variable {side : String} {i : Instruction} {w : Nat} {t : Assertion}

/-- A vector of the width of an integer type becomes a term of the type. -/
theorem ofBits_of_integer {type : Ty} {hw : 0 < w} (h : type = .integer w hw)
    (x : Term (.bits w)) :
    ∃ c, ofBits type x.pack = .ok c ∧ c.sort = .integer w := by
  subst h
  by_cases h1 : w = 1
  · subst h1
    obtain ⟨d, hd⟩ := AnyTerm.equal_of_sort (a := x.pack) (b := (Term.bits 1#1).pack) rfl
    have hbit : ofBits (.integer 1 hw) x.pack =
        (x.pack.equal (Term.bits 1#1).pack >>= fun d => .ok d.pack) := rfl
    exact ⟨d.pack, hbit.trans (congrArg (· >>= fun d => .ok d.pack) hd), rfl⟩
  · exact ⟨x.pack, by simp [ofBits, Ty.isBool, Ty.isInteger, Ty.width, h1],
      (TermSort.integer_of_ne_one h1).symm⟩

/-- An instruction other than a call is encoded by its rule. -/
theorem instruction_of_byRule {rule : Rule} {res : AnyTerm} (hcall : i.opcode ≠ .call)
    (hrule : rule? i.opcode = some rule) (hres : i.value.term side = .ok res)
    (ht : byRule side i res rule = .ok t) : instruction side i = .ok (some t) := by
  have hdebug : i.isDebugInfo = false := by simp [Instruction.isDebugInfo, hcall]
  have hresult : i.hasResult = true := by
    have hsort := term_sort hres
    rw [Instruction.hasResult, bne_iff_ne]
    intro hvoid
    rw [show i.value.type = .void from hvoid] at hsort
    cases hsort
  simp only [instruction, hdebug, hrule, hresult]
  rw [hres]
  simp only [bind, Except.bind, ht]
  rfl

/-- The assertion of an instruction of integer type whose operation has a value that is known as a
vector. -/
theorem eval_iff_of_value (hi : i.value.IsInteger w) (ht : instruction side i = .ok (some t))
    {m : Model} {c : Content Unit} {x : BitVec w}
    (hc : i.signature.value? (m.externals Unit) (i.inputs (m.externals Unit) (m.env Unit side)) =
      some c)
    (hx : c.bits? = some ⟨w, x⟩) :
    t.eval m = true ↔
      (i.signature.Defined (i.inputs (m.externals Unit) (m.env Unit side)) →
        i.value.vector m side w = x) := by
  obtain ⟨d, hd, hiff⟩ := instruction_sound (m.reads_env (X := Unit) side) ht
  rw [hc] at hd
  cases hd
  rw [hiff]
  apply imp_congr_right
  intro _
  exact Content.eq_iff_of_bits? (hi.bits? m side) hx

end Encode

/-! ### Operations on two integers -/

/-- An instruction on two integers of the width of its result. -/
structure Instruction.Binary (i : Instruction) (w : Nat) (a b : Value) : Prop where
  result : i.value.IsInteger w
  operands : i.operands = [a, b]
  left : a.IsInteger w
  right : b.IsInteger w

namespace Encode

variable {side : String} {i : Instruction} {w : Nat} {a b : Value} {op : BitOp}

/-- The terms of two operands. -/
theorem operands_pair (h : i.operands = [a, b]) {x y : AnyTerm} (hx : a.term side = .ok x)
    (hy : b.term side = .ok y) : operands side i = .ok [x, y] := by
  simp only [operands, h, List.mapM_cons, List.mapM_nil, hx, hy]
  rfl

/-- An integer operation on operands of one width has an assertion. -/
theorem integer_of_sorts (hi : i.value.IsInteger w) {res x y : AnyTerm}
    (hres : res.sort = .integer w) (hx : x.sort = .integer w) (hy : y.sort = .integer w) :
    ∃ t, integer i op res x y = .ok t := by
  have htype : i.type = .integer w hi.pos := hi.type_eq
  unfold integer
  split
  · next connective hbool hconn =>
    have h1 : w = 1 := by simpa [htype, Ty.isBool, Ty.isInteger, Ty.width] using hbool
    subst h1
    obtain ⟨x, -, hx⟩ := AnyTerm.expect_of_sort (s := .bool) hx
    obtain ⟨y, -, hy⟩ := AnyTerm.expect_of_sort (s := .bool) hy
    obtain ⟨t, ht⟩ := AnyTerm.equal_of_sort (a := res) (b := (connective x y).pack) hres
    refine ⟨t, ?_⟩
    simp only [hx, hy, bind, Except.bind, ht]
    rfl
  · obtain ⟨x, hx⟩ := AnyTerm.toBits_of_sort hx
    obtain ⟨y, hy⟩ := AnyTerm.toBits_of_sort hy
    obtain ⟨c, hc, hsort⟩ := ofBits_of_integer htype (Term.bin op x y)
    obtain ⟨d, hd⟩ := AnyTerm.equal_of_sort (a := res) (b := c) (hres.trans hsort.symm)
    obtain ⟨y', hy', hexp⟩ := AnyTerm.expect_of_sort (a := y.pack) (s := .bits w) rfl
    cases hy'
    refine ⟨guarded (preconditions i.toOperation x y) d, ?_⟩
    rw [if_pos (by rw [htype]; rfl), hx, hy]
    simp only [bitwise, Term.pack] at hexp hc ⊢
    simp only [hexp, bind, Except.bind, hc, hd]
    rfl

/-- An operation on vectors is encoded by the rule for integers. -/
theorem rule?_of_bitOp (h : i.opcode.bitOp? = some op) : rule? i.opcode = some (.integer op) := by
  simp [rule?, h]

/-- An operation on two integers of one width has an assertion. -/
theorem instruction_of_binary (hi : i.Binary w a b) (hop : i.opcode.bitOp? = some op)
    (side : String) : ∃ t, instruction side i = .ok (some t) := by
  obtain ⟨res, hres, hsort⟩ := hi.result.term side
  obtain ⟨x, hx, hxs⟩ := hi.left.term side
  obtain ⟨y, hy, hys⟩ := hi.right.term side
  obtain ⟨t, ht⟩ := integer_of_sorts hi.result hsort hxs hys
  refine ⟨t, instruction_of_byRule ?_ (rule?_of_bitOp hop) hres ?_⟩
  · intro hcall
    rw [hcall] at hop
    cases hop
  · simp only [byRule, operands_pair hi.operands hx hy, bind, Except.bind]
    exact ht

/-- The result of an integer operation is that of the bit vectors, if the flags leave it defined. -/
theorem binary_eval_iff (hi : i.Binary w a b) (hop : i.opcode.bitOp? = some op) {t : Assertion}
    (ht : instruction side i = .ok (some t)) (m : Model) :
    t.eval m = true ↔
      (i.signature.DefinedOn (a.vector m side w) (b.vector m side w) →
        i.value.vector m side w = op.apply (a.vector m side w) (b.vector m side w)) := by
  have hpair := bitsPair_of_bits (hi.left.bits? m side) (hi.right.bits? m side)
  have hinputs : i.inputs (m.externals Unit) (m.env Unit side) =
      [a.content (m.externals Unit) (m.env Unit side),
        b.content (m.externals Unit) (m.env Unit side)] := by
    rw [Instruction.inputs, hi.operands, List.map_cons, List.map_cons, List.map_nil]
  obtain ⟨c, hc, hbits⟩ := Meaning.ofBits_integer (X := Unit) hi.result.pos
    (op.apply (a.vector m side w) (b.vector m side w))
  have hint : Meaning.integer? i.signature.opcode i.signature.type
      (i.inputs (m.externals Unit) (m.env Unit side)) = some c := by
    rw [hinputs, Meaning.integer?, hpair]
    simp only [Option.bind_some, Option.bind_eq_bind,
      onBits?_of_bitOp (show i.signature.opcode.bitOp? = some op from hop)]
    rw [show i.signature.type = _ from hi.result.type_eq]
    exact hc
  rw [eval_iff_of_value hi.result ht (value?_of_integer? hop hint) hbits, hinputs]
  simp only [Signature.Defined, hpair, Option.mem_some_iff, forall_eq']

/-- Which results the assertion of an integer operation admits. -/
theorem binary_admits (hi : i.Binary w a b) (hop : i.opcode.bitOp? = some op)
    (hothers : i.ReadsOthers) (side : String) :
    ∃ t, instruction side i = .ok (some t) ∧ ∀ (m : Model) (z : BitVec w),
      t.eval (m.setResult side i z) = true ↔
        (i.signature.DefinedOn (a.vector m side w) (b.vector m side w) →
          z = op.apply (a.vector m side w) (b.vector m side w)) := by
  obtain ⟨t, ht⟩ := instruction_of_binary hi hop side
  have ha : a ∈ i.operands := by simp [hi.operands]
  have hb : b ∈ i.operands := by simp [hi.operands]
  refine ⟨t, ht, fun m z => ?_⟩
  rw [binary_eval_iff hi hop ht, m.setResult_value, m.setResult_operand hothers ha,
    m.setResult_operand hothers hb]

end Encode

namespace Sample

/-- An operation on two registers of eight bits, with the given flags. -/
def operation (op : Opcode) (nsw nuw exact : Bool) : Instruction where
  opcode := op
  operands := [.register (byte 0), .register (byte 1)]
  nsw := nsw
  nuw := nuw
  exact := exact
  result := byte 2

/-- The operation on two bytes is one on two integers. -/
theorem operation_binary (op : Opcode) (nsw nuw exact : Bool) :
    (operation op nsw nuw exact).Binary 8 (.register (byte 0)) (.register (byte 1)) where
  result := .register (by decide) rfl
  operands := rfl
  left := .register (by decide) rfl
  right := .register (by decide) rfl

/-- The operation on two bytes does not read its own result. -/
theorem operation_readsOthers (op : Opcode) (nsw nuw exact : Bool) :
    (operation op nsw nuw exact).ReadsOthers := by
  intro r hr
  simp only [operation, List.mem_cons, Value.register.injEq, List.not_mem_nil, or_false] at hr
  rcases hr with rfl | rfl <;> simp [operation, Instruction.uid, byte]

end Sample

end BlockEquiv
