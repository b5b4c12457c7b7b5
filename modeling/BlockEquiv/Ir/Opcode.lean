/-!
# Opcodes

The operations an instruction can name, with the number of each and the classes the rules of the
representation refer to.
-/

namespace BlockEquiv

/-- The operation of an instruction. -/
inductive Opcode
  | ret | br | switch | unreachable
  | fneg
  | add | fadd | sub | fsub | mul | fmul
  | udiv | sdiv | fdiv | urem | srem | frem
  | shl | lshr | ashr | and | or | xor
  | alloca | load | store | getelementptr
  | trunc | zext | sext | fptoui | fptosi | uitofp | sitofp | fptrunc | fpext
  | ptrtoint | inttoptr | bitcast
  | icmp | fcmp | phi | call | select
deriving DecidableEq

namespace Opcode

/-- All opcodes. -/
def all : List Opcode :=
  [ret, br, switch, unreachable, fneg, add, fadd, sub, fsub, mul, fmul, udiv, sdiv, fdiv, urem,
    srem, frem, shl, lshr, ashr, and, or, xor, alloca, load, store, getelementptr, trunc, zext,
    sext, fptoui, fptosi, uitofp, sitofp, fptrunc, fpext, ptrtoint, inttoptr, bitcast, icmp, fcmp,
    phi, call, select]

/-- The number of an opcode. -/
def number : Opcode → Nat
  | ret => 1 | br => 2 | switch => 3 | unreachable => 4
  | fneg => 10
  | add => 20 | fadd => 21 | sub => 22 | fsub => 23 | mul => 24 | fmul => 25
  | udiv => 26 | sdiv => 27 | fdiv => 28 | urem => 29 | srem => 30 | frem => 31
  | shl => 32 | lshr => 33 | ashr => 34 | and => 35 | or => 36 | xor => 37
  | alloca => 50 | load => 51 | store => 52 | getelementptr => 53
  | trunc => 60 | zext => 61 | sext => 62 | fptoui => 63 | fptosi => 64 | uitofp => 65
  | sitofp => 66 | fptrunc => 67 | fpext => 68 | ptrtoint => 69 | inttoptr => 70 | bitcast => 71
  | icmp => 80 | fcmp => 81 | phi => 82 | call => 83 | select => 84

/-- The spelling of an opcode. -/
def name : Opcode → String
  | ret => "ret" | br => "br" | switch => "switch" | unreachable => "unreachable"
  | fneg => "fneg"
  | add => "add" | fadd => "fadd" | sub => "sub" | fsub => "fsub" | mul => "mul" | fmul => "fmul"
  | udiv => "udiv" | sdiv => "sdiv" | fdiv => "fdiv" | urem => "urem" | srem => "srem"
  | frem => "frem"
  | shl => "shl" | lshr => "lshr" | ashr => "ashr" | and => "and" | or => "or" | xor => "xor"
  | alloca => "alloca" | load => "load" | store => "store" | getelementptr => "getelementptr"
  | trunc => "trunc" | zext => "zext" | sext => "sext" | fptoui => "fptoui" | fptosi => "fptosi"
  | uitofp => "uitofp" | sitofp => "sitofp" | fptrunc => "fptrunc" | fpext => "fpext"
  | ptrtoint => "ptrtoint" | inttoptr => "inttoptr" | bitcast => "bitcast"
  | icmp => "icmp" | fcmp => "fcmp" | phi => "phi" | call => "call" | select => "select"

/-- The opcode of the given spelling. -/
def ofName? (s : String) : Option Opcode := all.find? (·.name == s)

/-- Whether the opcode ends a block (`TERMINATOR_OPCODES`). -/
def isTerminator : Opcode → Bool
  | ret | br | switch | unreachable => true
  | _ => false

/-- Whether the opcode is a conversion between types (`CAST_OPCODES`). -/
def isCast : Opcode → Bool
  | trunc | zext | sext | fptoui | fptosi | uitofp | sitofp | fptrunc | fpext
  | ptrtoint | inttoptr | bitcast => true
  | _ => false

/-- Whether the opcode may carry the flags that forbid wrapping (`OVERFLOWING_OPCODES`). -/
def mayWrap : Opcode → Bool
  | add | sub | mul | shl => true
  | _ => false

/-- Whether the opcode may carry the flag that forbids a remainder (`EXACT_OPCODES`). -/
def mayBeExact : Opcode → Bool
  | udiv | sdiv | lshr | ashr => true
  | _ => false

end Opcode

end BlockEquiv
