import BlockEquiv.Encoding.Integer

/-!
# Encoding of instructions

Every instruction other than debug info becomes one assertion, which relates the variable of its
result to the terms of its operands. An instruction whose result is only defined under a condition
leaves the result free if the condition fails.
-/

namespace BlockEquiv

namespace Opcode

/-- The rounded operation of a floating opcode (`_FP_ARITHMETIC`). -/
def floatOp? : Opcode → Option FloatOp
  | fadd => some .add
  | fsub => some .sub
  | fmul => some .mul
  | fdiv => some .div
  | _ => none

end Opcode

namespace Encode

/-- The terms of the operands (`SnippetEncoder._operands`). -/
def operands (side : String) (i : Instruction) : Encode (List AnyTerm) :=
  i.operands.mapM (Value.term side)

/-- A floating operation on two operands (`SnippetEncoder._encode_fp_binary`). -/
def floating (op : FloatOp) (res a b : AnyTerm) : Encode Assertion :=
  sorted do res.equal (← AnyTerm.floatBin op a b)

/-- The relation an integer predicate asks for (`_INT_RELATIONS`). -/
def intRelation (p : IntPredicate) (a b : AnyTerm) : Except SortError Assertion :=
  match p with
  | .eq => a.equal b
  | .ne => a.differ b
  | .sgt => AnyTerm.order .gt a.toBits b.toBits
  | .sge => AnyTerm.order .ge a.toBits b.toBits
  | .slt => AnyTerm.order .lt a.toBits b.toBits
  | .sle => AnyTerm.order .le a.toBits b.toBits
  | .ugt => AnyTerm.bitRel .ugt a.toBits b.toBits
  | .uge => AnyTerm.bitRel .uge a.toBits b.toBits
  | .ult => AnyTerm.bitRel .ult a.toBits b.toBits
  | .ule => AnyTerm.bitRel .ule a.toBits b.toBits

/-- An integer comparison (`SnippetEncoder._encode_icmp`). -/
def intCompare (p : Option Predicate) (res a b : AnyTerm) : Encode Assertion :=
  match p with
  | some (.int p) => sorted do res.equal (← intRelation p a b).pack
  | p => .error (.intPredicate p)

/-- The relation of a floating predicate on operands that are not NaN (`_FP_RELATIONS`). -/
def floatRelation (p : FloatPredicate) (a b : AnyTerm) : Except SortError Assertion :=
  match p with
  | .oeq | .ueq => AnyTerm.floatRel .eq a b
  | .one | .une => return .not (← AnyTerm.floatRel .eq a b)
  | .ogt | .ugt => AnyTerm.floatRel .gt a b
  | .oge | .uge => AnyTerm.floatRel .ge a b
  | .olt | .ult => AnyTerm.floatRel .lt a b
  | .ole | .ule => AnyTerm.floatRel .le a b
  | .never | .ord | .uno | .always => .error .mismatch

/-- Whether a floating predicate holds: an ordered one needs operands that are not NaN, an unordered
one accepts any NaN (`SnippetEncoder._encode_fcmp`). -/
def floatCondition (p : FloatPredicate) (a b : AnyTerm) : Except SortError Assertion := do
  let nanA ← a.isNaN
  let nanB ← b.isNaN
  match p with
  | .ord => return .all [.not nanA, .not nanB]
  | .uno => return .any [nanA, nanB]
  | .oeq | .one | .ogt | .oge | .olt | .ole =>
    return .all [.not nanA, .not nanB, ← floatRelation p a b]
  | _ => return .any [nanA, nanB, ← floatRelation p a b]

/-- A floating comparison (`SnippetEncoder._encode_fcmp`). -/
def floatCompare (side : String) (i : Instruction) (res : AnyTerm) : Encode Assertion :=
  match i.predicate with
  | some (.float .always) => sorted (res.equal (Term.bool true).pack)
  | some (.float .never) => sorted (res.equal (Term.bool false).pack)
  | p => do
    match ← operands side i with
    | [a, b] =>
      match p with
      | some (.float p) => sorted do res.equal (← floatCondition p a b).pack
      | p => .error (.floatPredicate p)
    | _ => .error .operandCount

/-- Extension of a vector to a width that is not smaller. -/
def extend (sign : Signedness) (width : Nat) (a : AnyTerm) : Except SortError AnyTerm :=
  match a with
  | ⟨.bits w, x⟩ =>
    if w ≤ width then
      match sign with
      | .unsigned => .ok (Term.zeroExtend width x).pack
      | .signed => .ok (Term.signExtend width x).pack
    else .error .mismatch
  | _ => .error .mismatch

/-- The low bits of a vector, at least one and at most all. -/
def truncate (width : Nat) (a : AnyTerm) : Except SortError AnyTerm :=
  match a with
  | ⟨.bits w, x⟩ =>
    if 0 < width ∧ width ≤ w then .ok (Term.extract 0 width x).pack else .error .mismatch
  | _ => .error .mismatch

/-- The whole part of a floating-point value as a vector of at least one bit. -/
def wholePart (sign : Signedness) (width : Nat) (a : AnyTerm) : Except SortError AnyTerm :=
  match a with
  | ⟨.float _, x⟩ =>
    if 0 < width then .ok (Term.toBits sign width x).pack else .error .mismatch
  | _ => .error .mismatch

/-- The floating-point value nearest to a vector's number. -/
def ofWhole (sign : Signedness) (f : Format) (a : AnyTerm) : Except SortError AnyTerm :=
  match a with
  | ⟨.bits _, x⟩ => .ok (Term.ofBits sign f x).pack
  | _ => .error .mismatch

/-- The nearest value of another format. -/
def reformat (f : Format) (a : AnyTerm) : Except SortError AnyTerm :=
  match a with
  | ⟨.float _, x⟩ => .ok (Term.convert f x).pack
  | _ => .error .mismatch

/-- The term of a cast to the type `dst` (`SnippetEncoder._encode_cast`). -/
def converted (op : Opcode) (dst : Ty) (a : AnyTerm) : Encode AnyTerm :=
  let toInteger (x : AnyTerm → Except SortError AnyTerm) : Encode AnyTerm :=
    sorted do ofBits dst (← x a)
  match op with
  | .zext => toInteger (extend .unsigned dst.width ·.toBits)
  | .sext => toInteger (extend .signed dst.width ·.toBits)
  | .trunc => toInteger (truncate dst.width ·.toBits)
  | .fptrunc | .fpext => do sorted (reformat (← dst.format) a)
  | .fptoui => toInteger (wholePart .unsigned dst.width)
  | .fptosi => toInteger (wholePart .signed dst.width)
  | .uitofp => do sorted (ofWhole .unsigned (← dst.format) a.toBits)
  | .sitofp => do sorted (ofWhole .signed (← dst.format) a.toBits)
  | op => .error (.cast op)

/-- A conversion of the first operand (`SnippetEncoder._encode_cast`). -/
def cast (side : String) (i : Instruction) (res : AnyTerm) : Encode Assertion := do
  match i.operands with
  | [] => .error .missingOperand
  | source :: _ =>
    let a ← source.term side
    let b ← converted i.opcode i.type a
    sorted (res.equal b)

/-- What the name of a function that multiplies and then adds begins with (`FMULADD_PREFIX`). -/
def multiplyAddStart : String := "llvm.fmuladd"

/-- What the name of a function that multiplies and adds with one rounding begins with
(`FMA_PREFIX`). -/
def fusedStart : String := "llvm.fma"

/-- A call of a function that has a counterpart (`SnippetEncoder._encode_call`). -/
def call (side : String) (i : Instruction) (res : AnyTerm) : Encode Assertion :=
  let name := i.callee.getD ""
  match i.operands with
  | [x, y, z] =>
    if name.startsWith multiplyAddStart then do
      let (a, b, c) := (← x.term side, ← y.term side, ← z.term side)
      sorted do res.equal (← AnyTerm.floatBin .add (← AnyTerm.floatBin .mul a b) c)
    else if name.startsWith fusedStart then do
      let (a, b, c) := (← x.term side, ← y.term side, ← z.term side)
      sorted do res.equal (← AnyTerm.fma a b c)
    else .error (.call name)
  | [x] =>
    match MathFn.ofName? name with
    | some fn => do
      let a ← x.term side
      sorted do res.equal (Term.math fn (← a.expect (.float .double))).pack
    | none => .error (.call name)
  | _ => .error (.call name)

/-- The rules for opcodes, by the shape of what they compute. -/
inductive Rule
  | integer (op : BitOp)
  | floating (op : FloatOp)
  | negation
  | cast
  | intCompare
  | floatCompare
  | select
  | call

/-- The rule for an opcode. -/
def rule? (op : Opcode) : Option Rule :=
  match op.bitOp?, op.floatOp? with
  | some o, _ => some (.integer o)
  | none, some o => some (.floating o)
  | none, none =>
    if op.isCast then some .cast
    else
      match op with
      | .fneg => some .negation
      | .icmp => some .intCompare
      | .fcmp => some .floatCompare
      | .select => some .select
      | .call => some .call
      | _ => none

/-- The assertion of an instruction by a rule, the result being `res`
(`SnippetEncoder.encode_instruction`). -/
def byRule (side : String) (i : Instruction) (res : AnyTerm) (rule : Rule) : Encode Assertion :=
  match rule with
  | .floatCompare => floatCompare side i res
  | .cast => cast side i res
  | .call => call side i res
  | rule => do
    match rule, ← operands side i with
    | .integer op, [a, b] => integer i op res a b
    | .floating op, [a, b] => floating op res a b
    | .negation, [a] => sorted do res.equal (← a.floatNeg)
    | .intCompare, [a, b] => intCompare i.predicate res a b
    | .select, [c, a, b] => sorted do res.equal (← AnyTerm.choose c a b)
    | _, _ => .error .operandCount

/-- The assertion of an instruction; debug info has none (`SnippetEncoder.encode_instruction`). -/
def instruction (side : String) (i : Instruction) : Encode (Option Assertion) :=
  if i.isDebugInfo then .ok none
  else
    match rule? i.opcode with
    | none => .error (.opcode i.opcode)
    | some rule => do
      if !i.hasResult then throw (.noResult i)
      let res ← i.value.term side
      return some (← byRule side i res rule)

end Encode

end BlockEquiv
