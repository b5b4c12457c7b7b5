import BlockEquiv.Proofs.Meaning

/-!
# Execution of instructions

Instructions are executed in order, each writing to its register; debug info does nothing. In
single-assignment form nothing that an instruction reads or writes is written again, so the final
environment satisfies the relation between operands and result that each instruction states.
Conversely an environment that satisfies all these relations is its own execution.
-/

namespace BlockEquiv

variable {X : Type}

/-- Which results an instruction of a signature may yield on operands. -/
abbrev Semantics (X : Type) :=
  (o : Signature) → List (Content X) → o.type.shape.Denote X → Prop

/-- Execution of instructions from one environment to another. -/
inductive Runs (R : Semantics X) (sym : Externals X) : List Instruction → Env X → Env X → Prop
  | done (e : Env X) : Runs R sym [] e e
  | skip {i : Instruction} {is : List Instruction} {e e' : Env X} (hd : i.isDebugInfo = true)
      (h : Runs R sym is e e') : Runs R sym (i :: is) e e'
  | step {i : Instruction} {is : List Instruction} {e e' : Env X} {d : i.type.shape.Denote X}
      (hd : i.isDebugInfo = false) (hr : R i.signature (i.inputs sym e) d)
      (h : Runs R sym is (e.write i.uid i.type.shape d) e') : Runs R sym (i :: is) e e'

/-- The instruction's register holds a result that it may yield on the contents of its operands. -/
def Instruction.Obeys (R : Semantics X) (sym : Externals X) (e : Env X) (i : Instruction) : Prop :=
  i.isDebugInfo = false → R i.signature (i.inputs sym e) (e i.uid i.type.shape)

/-- The environment satisfies what every instruction states. -/
def Holds (R : Semantics X) (sym : Externals X) (is : List Instruction) (e : Env X) : Prop :=
  ∀ i ∈ is, i.Obeys R sym e

/-- What several instructions state is what the first and the others state. -/
theorem holds_cons {R : Semantics X} {sym : Externals X} {i : Instruction} {is : List Instruction}
    {e : Env X} : Holds R sym (i :: is) e ↔ i.Obeys R sym e ∧ Holds R sym is e :=
  List.forall_mem_cons

/-- Single-assignment form of a range: each instruction occurs once, an operand is a constant, an
earlier instruction or comes from outside, and debug info yields nothing. -/
structure SingleAssignment (is : List Instruction) : Prop where
  once : (is.map Instruction.uid).Nodup
  operands : ∀ pre i post, is = pre ++ i :: post → ∀ r, Value.register r ∈ i.operands →
    (∃ j ∈ pre, j.isDebugInfo = false ∧ j.result = r) ∨ ∀ j ∈ is, j.uid ≠ r.uid
  void : ∀ i ∈ is, i.isDebugInfo = true → i.type = .void

namespace SingleAssignment

variable {i : Instruction} {is : List Instruction}

/-- The operands of the first instruction come from outside. -/
theorem head (h : SingleAssignment (i :: is)) {r : Register} (hr : .register r ∈ i.operands) :
    ∀ j ∈ i :: is, j.uid ≠ r.uid := by
  rcases h.operands [] i is rfl r hr with ⟨j, hj, -⟩ | hout
  · cases hj
  · exact hout

private theorem uid_ne (h : SingleAssignment (i :: is)) : ∀ j ∈ is, j.uid ≠ i.uid := by
  intro j hj he
  have hn := List.nodup_cons.mp h.once
  exact hn.1 (he ▸ List.mem_map_of_mem hj)

private theorem tail (h : SingleAssignment (i :: is)) : SingleAssignment is where
  once := (List.nodup_cons.mp h.once).2
  void j hj := h.void j (List.mem_cons_of_mem i hj)
  operands pre k post hs r hr := by
    rcases h.operands (i :: pre) k post (by rw [hs]; rfl) r hr with ⟨j, hj, hd, rfl⟩ | hout
    · rcases List.mem_cons.mp hj with rfl | hj
      -- What the first instruction defines comes from outside the rest.
      · exact .inr h.uid_ne
      · exact .inl ⟨j, hj, hd, rfl⟩
    · exact .inr fun j hj => hout j (List.mem_cons_of_mem i hj)

end SingleAssignment

namespace Runs

variable {R : Semantics X} {sym : Externals X} {is : List Instruction} {e e' : Env X}

/-- Registers that no instruction fills keep their content. -/
theorem frame (h : Runs R sym is e e') {u : Uid} (hu : ∀ j ∈ is, j.uid ≠ u) : e' u = e u := by
  induction h with
  | done e => rfl
  | skip hd h ih => exact ih fun j hj => hu j (List.mem_cons_of_mem _ hj)
  | @step i is e e' d hd hr h ih =>
    rw [ih fun j hj => hu j (List.mem_cons_of_mem _ hj)]
    exact Env.write_of_ne e (hu i List.mem_cons_self).symm _ _

/-- In single-assignment form the final environment satisfies what every instruction states. -/
theorem holds (h : Runs R sym is e e') (hs : SingleAssignment is) : Holds R sym is e' := by
  induction h with
  | done e => exact fun i hi => absurd hi List.not_mem_nil
  | @skip i is e e' hd h ih =>
    intro j hj hj'
    rcases List.mem_cons.mp hj with rfl | hj
    · rw [hd] at hj'
      cases hj'
    · exact ih hs.tail j hj hj'
  | @step i is e e' d hd hr h ih =>
    intro j hj hj'
    rcases List.mem_cons.mp hj with rfl | hj
    · -- Neither the operands nor the register are written again.
      have hin : j.inputs sym e' = j.inputs sym e := by
        apply Instruction.inputs_congr
        intro r hr'
        rw [h.frame fun k hk => hs.head hr' k (List.mem_cons_of_mem _ hk)]
        exact Env.write_of_ne e (hs.head hr' j List.mem_cons_self).symm _ _
      rw [hin, h.frame hs.uid_ne, Env.write_self]
      exact hr
    · exact ih hs.tail j hj hj'

/-- An environment that satisfies what every instruction states is an execution of itself. -/
theorem of_holds (h : Holds R sym is e) : Runs R sym is e e := by
  induction is with
  | nil => exact .done e
  | cons i is ih =>
    have hrest : Runs R sym is e e := ih fun j hj => h j (List.mem_cons_of_mem _ hj)
    cases hd : i.isDebugInfo with
    | true => exact .skip hd hrest
    | false =>
      refine .step hd (h i List.mem_cons_self hd) ?_
      rw [Env.write_eq_self]
      exact hrest

/-- If every instruction always has a result, there is an execution from every environment. -/
theorem exists_of_total (h : ∀ i ∈ is, i.isDebugInfo = false → ∀ e, ∃ d,
    R i.signature (i.inputs sym e) d) (e : Env X) : ∃ e', Runs R sym is e e' := by
  induction is generalizing e with
  | nil => exact ⟨e, .done e⟩
  | cons i is ih =>
    have hrest := ih fun j hj => h j (List.mem_cons_of_mem _ hj)
    cases hd : i.isDebugInfo with
    | true =>
      obtain ⟨e', he'⟩ := hrest e
      exact ⟨e', .skip hd he'⟩
    | false =>
      obtain ⟨d, hr⟩ := h i List.mem_cons_self hd e
      obtain ⟨e', he'⟩ := hrest (e.write i.uid i.type.shape d)
      exact ⟨e', .step hd hr he'⟩

end Runs

/-! ### Two ways to double a number -/

namespace Sample

/-- A register of eight bits. -/
def byte (u : Uid) : Register := ⟨u, .integer 8, none⟩

/-- The sum of a register with itself. -/
def sum (a u : Uid) : Instruction where
  opcode := .add
  operands := [.register (byte a), .register (byte a)]
  result := byte u

/-- A register shifted to the left by one place. -/
def shift (a u : Uid) : Instruction where
  opcode := .shl
  operands := [.register (byte a), .constant ⟨9, .integer 8, .int 1⟩]
  result := byte u

/-- The bits of a register that a mask keeps. -/
def masked (mask : Int) (a u : Uid) : Instruction where
  opcode := .and
  operands := [.register (byte a), .constant ⟨9, .integer 8, .int mask⟩]
  result := byte u

/-- The return of a register. -/
def ret (a u : Uid) : Instruction where
  opcode := .ret
  operands := [.register (byte a)]
  result := ⟨u, .void, none⟩

/-- A call that yields nothing. -/
def effect (u : Uid) : Instruction where
  opcode := .call
  callee := some "f"
  result := ⟨u, .void, none⟩

/-- A comparison with a whole number that holds whatever is compared, here what yields nothing. -/
def certain (a : Uid) (m : Int) (u : Uid) : Instruction where
  opcode := .fcmp
  operands := [.register ⟨a, .void, none⟩, .constant ⟨9, .floating .double, .real (.ofInt m)⟩]
  predicate := some (.float .always)
  result := ⟨u, .integer 1 Nat.one_pos, none⟩

/-- The return of a bit together with what yields nothing. -/
def retWith (a b u : Uid) : Instruction where
  opcode := .ret
  operands := [.register ⟨a, .integer 1 Nat.one_pos, none⟩, .register ⟨b, .void, none⟩]
  result := ⟨u, .void, none⟩

/-- Doubling by a sum. -/
def summed : Block Instruction := ⟨"summed", [sum 0 2, ret 2 4]⟩

/-- Doubling by a sum, with other registers. -/
def copied : Block Instruction := ⟨"copied", [sum 1 3, ret 3 5]⟩

/-- Doubling by a shift. -/
def shifted : Block Instruction := ⟨"shifted", [shift 1 3, ret 3 5]⟩

end Sample

end BlockEquiv
