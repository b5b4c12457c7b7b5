import BlockEquiv.Encoding.Integer
import BlockEquiv.Proofs.Meaning
import BlockEquiv.Proofs.Terms

/-!
# Conditions on wrapping and remainders

The encoding tests whether an integer operation is defined by signs of the wrapped result, by an
extra bit, or by shifting back. Each test holds exactly if the exact integer result is in range, or
exactly if the integer division leaves no remainder.
-/

namespace BlockEquiv

namespace Wrapping

variable {w : Nat}

/-- A power of two is twice the one before it. -/
theorem two_pow_pred (hw : 0 < w) : (2 : Int) ^ w = 2 * 2 ^ (w - 1) := by
  obtain ⟨n, rfl⟩ := Nat.exists_eq_succ_of_ne_zero (Nat.ne_of_gt hw)
  rw [Nat.succ_eq_add_one, Nat.add_sub_cancel, Int.pow_succ, Int.mul_comm]

/-- A number in the range of signed numbers is its own balanced remainder. -/
theorem bmod_of_fits (hw : 0 < w) {n : Int} (hl : -2 ^ (w - 1) ≤ n)
    (hu : n < 2 ^ (w - 1)) : n.bmod (2 ^ w) = n := by
  have hp := two_pow_pred hw
  apply Int.bmod_eq_of_le <;> simp only [Int.natCast_pow, Int.cast_ofNat_Int] <;> omega

/-- A number of one bit more than the width is itself when wrapped, or one turn off. -/
private theorem bmod_cases (hw : 0 < w) {n : Int} (hl : -2 ^ w ≤ n) (hu : n < 2 ^ w) :
    (-2 ^ (w - 1) ≤ n ∧ n < 2 ^ (w - 1) ∧ n.bmod (2 ^ w) = n) ∨
      (2 ^ (w - 1) ≤ n ∧ n.bmod (2 ^ w) = n - 2 ^ w) ∨
      (n < -2 ^ (w - 1) ∧ n.bmod (2 ^ w) = n + 2 ^ w) := by
  have hp := two_pow_pred hw
  by_cases hn : n < -2 ^ (w - 1)
  · refine .inr (.inr ⟨hn, ?_⟩)
    have hs := bmod_of_fits hw (n := n + 2 ^ w) (by omega) (by omega)
    have ha := Int.add_bmod_right n (2 ^ w)
    simp only [Int.natCast_pow, Int.cast_ofNat_Int] at ha
    rw [← ha, hs]
  · by_cases hn' : n < 2 ^ (w - 1)
    · exact .inl ⟨by omega, hn', bmod_of_fits hw (by omega) hn'⟩
    · refine .inr (.inl ⟨by omega, ?_⟩)
      have hs := bmod_of_fits hw (n := n - 2 ^ w) (by omega) (by omega)
      have ha := Int.sub_bmod_right n (2 ^ w)
      simp only [Int.natCast_pow, Int.cast_ofNat_Int] at ha
      rw [← ha, hs]

/-! ### Sums and differences -/

private theorem add_signed_iff (hw : 0 < w) (a b : BitVec w) :
    ((0 < a.toInt ∧ 0 < b.toInt → 0 < (a + b).toInt) ∧
        (a.toInt < 0 ∧ b.toInt < 0 → (a + b).toInt < 0)) ↔
      -2 ^ (w - 1) ≤ a.toInt + b.toInt ∧ a.toInt + b.toInt < 2 ^ (w - 1) := by
  have hp := two_pow_pred hw
  have ha := a.le_toInt
  have ha' := a.toInt_lt
  have hb := b.le_toInt
  have hb' := b.toInt_lt
  rw [BitVec.toInt_add]
  obtain ⟨_, _, he⟩ | ⟨_, he⟩ | ⟨_, he⟩ :=
    bmod_cases hw (n := a.toInt + b.toInt) (by omega) (by omega)
  all_goals rw [he]; omega

private theorem add_unsigned_iff (a b : BitVec w) :
    (a.setWidth (w + 1) + b.setWidth (w + 1)).extractLsb' w 1 = 0#1 ↔
      a.toNat + b.toNat < 2 ^ w := by
  have ha := a.isLt
  have hb := b.isLt
  have hp : 2 ^ (w + 1) = 2 * 2 ^ w := by rw [Nat.pow_succ, Nat.mul_comm]
  have hs : (a.setWidth (w + 1) + b.setWidth (w + 1)).toNat = a.toNat + b.toNat := by
    rw [BitVec.toNat_add, BitVec.toNat_setWidth, BitVec.toNat_setWidth,
      Nat.mod_eq_of_lt (a := a.toNat) (by omega), Nat.mod_eq_of_lt (a := b.toNat) (by omega),
      Nat.mod_eq_of_lt (by omega)]
  rw [← BitVec.toNat_inj, BitVec.extractLsb'_toNat, hs, Nat.shiftRight_eq_div_pow, Nat.pow_one,
    BitVec.toNat_ofNat, Nat.zero_mod]
  constructor
  · intro h
    have hd : (a.toNat + b.toNat) / 2 ^ w < 2 := Nat.div_lt_of_lt_mul (by omega)
    have hz : (a.toNat + b.toNat) / 2 ^ w = 0 := by
      generalize (a.toNat + b.toNat) / 2 ^ w = q at h hd
      omega
    exact (Nat.div_eq_zero_iff_lt (Nat.two_pow_pos w)).mp hz
  · intro h
    rw [Nat.div_eq_of_lt h]

private theorem shifted_one :
    (1#w <<< BitVec.ofNat w (w - 1)) = BitVec.intMin w := by
  have hlt : w - 1 < 2 ^ w := Nat.lt_of_le_of_lt (Nat.sub_le w 1) Nat.lt_two_pow_self
  rw [BitVec.shiftLeft_eq', BitVec.toNat_ofNat, Nat.mod_eq_of_lt hlt]
  rfl

private theorem toInt_intMin (hw : 0 < w) : (BitVec.intMin w).toInt = -2 ^ (w - 1) := by
  have hlt : 2 ^ (w - 1) < 2 ^ w := Nat.pow_lt_pow_right (by omega) (by omega)
  rw [BitVec.toInt_intMin, Nat.mod_eq_of_lt hlt]
  simp

/-- The least value has no negative of its own, so a difference to it is tested apart. -/
theorem sub_signed_iff (hw : 0 < w) (a b : BitVec w) :
    ((if b = 1#w <<< BitVec.ofNat w (w - 1) then a.toInt < 0
        else 0 < a.toInt ∧ 0 < (-b).toInt → 0 < (a + -b).toInt) ∧
        (0 < b.toInt → a.toInt < 0 ∧ (-b).toInt < 0 → (a + -b).toInt < 0)) ↔
      -2 ^ (w - 1) ≤ a.toInt - b.toInt ∧ a.toInt - b.toInt < 2 ^ (w - 1) := by
  have hp := two_pow_pred hw
  have hpos : (0 : Int) < 2 ^ (w - 1) := Int.pow_pos (by omega)
  have ha := a.le_toInt
  have ha' := a.toInt_lt
  have hb := b.le_toInt
  have hb' := b.toInt_lt
  rw [shifted_one]
  by_cases hm : b = BitVec.intMin w
  · have hi : b.toInt = -2 ^ (w - 1) := by rw [hm, toInt_intMin hw]
    rw [if_pos hm]
    omega
  · have hn : (-b).toInt = -b.toInt := BitVec.toInt_neg_of_ne_intMin hm
    have hi : b.toInt ≠ -2 ^ (w - 1) := by
      rw [← toInt_intMin hw]
      exact fun he => hm (BitVec.eq_of_toInt_eq he)
    rw [if_neg hm, BitVec.toInt_add, hn]
    obtain ⟨_, _, he⟩ | ⟨_, he⟩ | ⟨_, he⟩ :=
      bmod_cases hw (n := a.toInt + -b.toInt) (by omega) (by omega)
    all_goals rw [he]; omega

/-! ### Shifts -/

private theorem dvd_two_pow {w n : Nat} (h : w ≤ n) : ((2 ^ w : Nat) : Int) ∣ (2 : Int) ^ n := by
  have hd : (2 ^ w : Nat) ∣ 2 ^ n := Nat.pow_dvd_pow 2 h
  exact_mod_cast hd

private theorem toInt_shiftLeft (a b : BitVec w) :
    (a <<< b).toInt = (a.toInt * 2 ^ b.toNat).bmod (2 ^ w) := by
  rw [BitVec.shiftLeft_eq', BitVec.toInt_shiftLeft, Nat.shiftLeft_eq, Int.natCast_mul,
    BitVec.toInt_eq_toNat_bmod, Int.bmod_mul_bmod, Int.natCast_pow]
  rfl

/-- An arithmetic shift to the right divides by a power of two, rounding down. -/
theorem toInt_shiftRight (a b : BitVec w) :
    (a.sshiftRight' b).toInt = a.toInt / 2 ^ b.toNat := by
  rw [BitVec.toInt_sshiftRight', Int.shiftRight_eq_div_pow, Int.natCast_pow]
  rfl

private theorem shl_signed_iff (hw : 0 < w) (a b : BitVec w) :
    (a <<< b).sshiftRight' b = a ↔
      -2 ^ (w - 1) ≤ a.toInt * 2 ^ b.toNat ∧ a.toInt * 2 ^ b.toNat < 2 ^ (w - 1) := by
  have hp := two_pow_pred hw
  have hk : (0 : Int) < 2 ^ b.toNat := Int.pow_pos (by omega)
  have hP : (0 : Int) < 2 ^ (w - 1) := Int.pow_pos (by omega)
  rw [← BitVec.toInt_inj, toInt_shiftRight]
  constructor
  · intro h
    have hz := (a <<< b).le_toInt
    have hz' := (a <<< b).toInt_lt
    have hle : a.toInt * 2 ^ b.toNat ≤ (a <<< b).toInt := by
      rw [← h]
      exact Int.ediv_mul_le _ (by omega)
    have hlt : (a <<< b).toInt < a.toInt * 2 ^ b.toNat + 2 ^ b.toNat := by
      have := Int.lt_ediv_add_one_mul_self (a <<< b).toInt hk
      rw [h, Int.add_mul, Int.one_mul] at this
      exact this
    refine ⟨?_, by omega⟩
    -- The wrapped product exceeds the exact one by less than the shift, and by whole turns.
    have hd : ((2 ^ w : Nat) : Int) ∣ a.toInt * 2 ^ b.toNat - (a <<< b).toInt := by
      rw [toInt_shiftLeft]
      exact Int.dvd_self_sub_bmod
    by_cases hb : w ≤ b.toNat
    · have h0 : (a <<< b).toInt = 0 := by
        rw [toInt_shiftLeft]
        exact Int.bmod_eq_zero_of_dvd (Int.dvd_mul_of_dvd_right (dvd_two_pow hb))
      rw [h0, Int.zero_ediv] at h
      rw [← h]
      omega
    · have hk' : (2 : Int) ^ b.toNat < 2 ^ w := by
        have : (2 : Nat) ^ b.toNat < 2 ^ w := Nat.pow_lt_pow_right (by omega) (by omega)
        exact_mod_cast this
      obtain ⟨t, ht⟩ := hd
      simp only [Int.natCast_pow, Int.cast_ofNat_Int] at ht
      have ht0 : t = 0 := by
        rcases Int.lt_trichotomy t 0 with hneg | hzero | hposi
        · have : (2 : Int) ^ w * t ≤ 2 ^ w * (-1) :=
            Int.mul_le_mul_of_nonneg_left (by omega) (by omega)
          omega
        · exact hzero
        · have : (2 : Int) ^ w * 1 ≤ 2 ^ w * t :=
            Int.mul_le_mul_of_nonneg_left (by omega) (by omega)
          omega
      rw [ht0, Int.mul_zero] at ht
      omega
  · rintro ⟨hl, hu⟩
    rw [toInt_shiftLeft, bmod_of_fits hw hl hu, Int.mul_ediv_cancel _ (by omega)]

private theorem shl_unsigned_iff (a b : BitVec w) :
    (a <<< b) >>> b = a ↔ a.toNat * 2 ^ b.toNat < 2 ^ w := by
  have hk : 0 < 2 ^ b.toNat := Nat.two_pow_pos _
  rw [← BitVec.toNat_inj, BitVec.ushiftRight_eq', BitVec.toNat_ushiftRight, BitVec.shiftLeft_eq',
    BitVec.toNat_shiftLeft, Nat.shiftLeft_eq, Nat.shiftRight_eq_div_pow]
  constructor
  · intro h
    have hle : a.toNat * 2 ^ b.toNat ≤ a.toNat * 2 ^ b.toNat % 2 ^ w := by
      have := Nat.div_mul_le_self (a.toNat * 2 ^ b.toNat % 2 ^ w) (2 ^ b.toNat)
      rwa [h] at this
    exact Nat.lt_of_le_of_lt hle (Nat.mod_lt _ (Nat.two_pow_pos w))
  · intro h
    rw [Nat.mod_eq_of_lt h, Nat.mul_div_cancel _ hk]

private theorem lshr_exact_iff (a b : BitVec w) :
    (a >>> b) <<< b = a ↔ 2 ^ b.toNat ∣ a.toNat := by
  have hle := Nat.div_mul_le_self a.toNat (2 ^ b.toNat)
  rw [← BitVec.toNat_inj, BitVec.shiftLeft_eq', BitVec.toNat_shiftLeft, Nat.shiftLeft_eq,
    BitVec.ushiftRight_eq', BitVec.toNat_ushiftRight, Nat.shiftRight_eq_div_pow,
    Nat.mod_eq_of_lt (Nat.lt_of_le_of_lt hle a.isLt)]
  exact ⟨fun h => ⟨_, by rw [Nat.mul_comm]; exact h.symm⟩, Nat.div_mul_cancel⟩

private theorem ashr_exact_iff (hw : 0 < w) (a b : BitVec w) :
    (a.sshiftRight' b) <<< b = a ↔ (2 : Int) ^ b.toNat ∣ a.toInt := by
  have hp := two_pow_pred hw
  have hk : (0 : Int) < 2 ^ b.toNat := Int.pow_pos (by omega)
  have hP : (0 : Int) < 2 ^ (w - 1) := Int.pow_pos (by omega)
  have ha := a.le_toInt
  have ha' := a.toInt_lt
  rw [← BitVec.toInt_inj, toInt_shiftLeft, toInt_shiftRight]
  constructor
  · intro h
    by_cases hb : w ≤ b.toNat
    · -- All bits are shifted out on the way back.
      rw [Int.bmod_eq_zero_of_dvd (Int.dvd_mul_of_dvd_right (dvd_two_pow hb))] at h
      rw [← h]
      exact Int.dvd_zero _
    · have hle := Int.ediv_mul_le a.toInt (b := 2 ^ b.toNat) (by omega)
      have hlt : a.toInt < a.toInt / 2 ^ b.toNat * 2 ^ b.toNat + 2 ^ b.toNat := by
        have := Int.lt_ediv_add_one_mul_self a.toInt hk
        rwa [Int.add_mul, Int.one_mul] at this
      have hk' : (2 : Int) ^ b.toNat ≤ 2 ^ (w - 1) := by
        have : (2 : Nat) ^ b.toNat ≤ 2 ^ (w - 1) := Nat.pow_le_pow_right (by omega) (by omega)
        exact_mod_cast this
      obtain ⟨_, _, he⟩ | ⟨_, he⟩ | ⟨_, he⟩ :=
        bmod_cases hw (n := a.toInt / 2 ^ b.toNat * 2 ^ b.toNat) (by omega) (by omega)
      · rw [he] at h
        exact ⟨_, by rw [Int.mul_comm]; exact h.symm⟩
      · omega
      · omega
  · intro h
    rw [Int.ediv_mul_cancel h, bmod_of_fits hw ha ha']

/-! ### Divisions -/

private theorem udiv_exact_iff (a b : BitVec w) : a.umod b = 0#w ↔ b.toNat ∣ a.toNat := by
  rw [← BitVec.toNat_inj, Nat.dvd_iff_mod_eq_zero]
  change (a % b).toNat = _ ↔ _
  rw [BitVec.toNat_umod, BitVec.toNat_ofNat, Nat.zero_mod]

private theorem sdiv_exact_iff (a b : BitVec w) : a.srem b = 0#w ↔ b.toInt ∣ a.toInt := by
  rw [← BitVec.toInt_inj, BitVec.toInt_srem, Int.dvd_iff_tmod_eq_zero, BitVec.toInt_zero]

end Wrapping

/-! ### The conditions of an operation -/

namespace Encode

variable {w : Nat} {m : Model}

private theorem eval_written {a b : Term (.bits w)} :
    (written a b).eval m = true ↔ a.eval m = b.eval m := by
  unfold written
  split
  · exact Term.eval_eq.trans eq_comm
  · exact Term.eval_eq

private theorem eval_positive {a : Term (.bits w)} {x : BitVec w} (hx : a.eval m = x) :
    (Term.rel .slt zero a).eval m = true ↔ 0 < x.toInt := by
  rw [Term.eval_slt, hx, zero, Term.eval, BitVec.toInt_zero]

private theorem eval_negative {a : Term (.bits w)} {x : BitVec w} (hx : a.eval m = x) :
    (Term.rel .slt a zero).eval m = true ↔ x.toInt < 0 := by
  rw [Term.eval_slt, hx, zero, Term.eval, BitVec.toInt_zero]

private theorem eval_sum {a b : Term (.bits w)} {x y : BitVec w} (hx : a.eval m = x)
    (hy : b.eval m = y) : (Term.bin .add a b).eval m = x + y := by
  rw [Term.eval, hx, hy, BitOp.apply]

private theorem eval_both {a b : Assertion} :
    (Term.all [a, b]).eval m = true ↔ a.eval m = true ∧ b.eval m = true := by
  rw [Term.eval_all, List.forall_mem_cons, List.forall_mem_singleton]

private theorem eval_addNoOverflow {a b : Term (.bits w)} {x y : BitVec w} (hx : a.eval m = x)
    (hy : b.eval m = y) :
    (addNoOverflow a b).eval m = true ↔ (0 < x.toInt ∧ 0 < y.toInt → 0 < (x + y).toInt) := by
  rw [addNoOverflow, Term.eval_implies, eval_both, eval_positive hx, eval_positive hy,
    eval_positive (eval_sum hx hy)]

private theorem eval_addNoUnderflow {a b : Term (.bits w)} {x y : BitVec w} (hx : a.eval m = x)
    (hy : b.eval m = y) :
    (addNoUnderflow a b).eval m = true ↔ (x.toInt < 0 ∧ y.toInt < 0 → (x + y).toInt < 0) := by
  rw [addNoUnderflow, Term.eval_implies, eval_both, eval_negative hx, eval_negative hy,
    eval_negative (eval_sum hx hy)]

private theorem eval_negated {b : Term (.bits w)} {y : BitVec w} (hy : b.eval m = y) :
    (Term.neg b).eval m = -y := by
  rw [Term.eval, hy]
  rfl

private theorem eval_subNoOverflow {a b : Term (.bits w)} {x y : BitVec w} (hx : a.eval m = x)
    (hy : b.eval m = y) :
    (subNoOverflow a b).eval m = true ↔
      if y = 1#w <<< BitVec.ofNat w (w - 1) then x.toInt < 0
      else 0 < x.toInt ∧ 0 < (-y).toInt → 0 < (x + -y).toInt := by
  have hc : (Term.eq b (.bin .shl (.bits 1#w) (.bits (BitVec.ofNat w (w - 1))))).eval m =
      decide (y = 1#w <<< BitVec.ofNat w (w - 1)) := by
    rw [Bool.eq_iff_iff, Term.eval_eq, decide_eq_true_iff, hy]
    rfl
  rw [subNoOverflow, Term.eval, hc]
  by_cases h : y = 1#w <<< BitVec.ofNat w (w - 1)
  · simp only [h, decide_true, if_true, eval_negative hx]
  · simp only [h, decide_false, Bool.false_eq_true, if_false,
      eval_addNoOverflow hx (eval_negated hy)]

private theorem eval_subNoUnderflow {a b : Term (.bits w)} {x y : BitVec w} (hx : a.eval m = x)
    (hy : b.eval m = y) :
    (subNoUnderflow a b).eval m = true ↔
      (0 < y.toInt → x.toInt < 0 ∧ (-y).toInt < 0 → (x + -y).toInt < 0) := by
  rw [subNoUnderflow, Term.eval_implies, eval_positive hy,
    eval_addNoUnderflow hx (eval_negated hy)]

private theorem eval_addNoCarry {a b : Term (.bits w)} {x y : BitVec w} (hx : a.eval m = x)
    (hy : b.eval m = y) :
    (addNoCarry a b).eval m = true ↔
      (x.setWidth (w + 1) + y.setWidth (w + 1)).extractLsb' w 1 = 0#1 := by
  subst hx hy
  exact Term.eval_eq

private theorem eval_noSignedWrap (hw : 0 < w) (op : Opcode) {a b : Term (.bits w)} {x y : BitVec w}
    (hx : a.eval m = x) (hy : b.eval m = y) :
    (∀ c ∈ noSignedWrap op a b, c.eval m = true) ↔ op.NoSignedWrap x y := by
  unfold noSignedWrap Opcode.NoSignedWrap
  split
  · rw [List.forall_mem_cons, List.forall_mem_singleton, eval_addNoOverflow hx hy,
      eval_addNoUnderflow hx hy, Wrapping.add_signed_iff hw]
  · rw [List.forall_mem_cons, List.forall_mem_singleton, eval_subNoOverflow hx hy,
      eval_subNoUnderflow hx hy, Wrapping.sub_signed_iff hw]
  · rw [List.forall_mem_cons, List.forall_mem_singleton, Term.eval, Term.eval, hx, hy,
      BitRel.holds, BitRel.holds, decide_eq_true_iff, decide_eq_true_iff]
    exact And.comm
  · rw [List.forall_mem_singleton, eval_written, Term.eval, Term.eval, hx, hy]
    exact Wrapping.shl_signed_iff hw x y
  · simp

private theorem eval_noUnsignedWrap (op : Opcode) {a b : Term (.bits w)} {x y : BitVec w}
    (hx : a.eval m = x) (hy : b.eval m = y) :
    (∀ c ∈ noUnsignedWrap op a b, c.eval m = true) ↔ op.NoUnsignedWrap x y := by
  unfold noUnsignedWrap Opcode.NoUnsignedWrap
  split
  · rw [List.forall_mem_singleton, eval_addNoCarry hx hy, Wrapping.add_unsigned_iff]
  · rw [List.forall_mem_singleton, Term.eval, hx, hy, BitRel.holds, BitVec.ule_iff_toNat_le]
  · rw [List.forall_mem_singleton, Term.eval, hx, hy, BitRel.holds, decide_eq_true_iff]
  · rw [List.forall_mem_singleton, eval_written, Term.eval, Term.eval, hx, hy]
    exact Wrapping.shl_unsigned_iff x y
  · simp

private theorem eval_noWrap? (o : Operation) {a b : Term (.bits w)} :
    (∀ c ∈ (noWrap? o a b).toList, c.eval m = true) ↔
      (o.nsw = true → ∀ c ∈ noSignedWrap o.opcode a b, c.eval m = true) ∧
        (o.nuw = true → ∀ c ∈ noUnsignedWrap o.opcode a b, c.eval m = true) := by
  have hparts : (∀ c ∈ (noWrap? o a b).toList, c.eval m = true) ↔
      ∀ c ∈ (if o.nsw then noSignedWrap o.opcode a b else [])
        ++ (if o.nuw then noUnsignedWrap o.opcode a b else []), c.eval m = true := by
    unfold noWrap?
    split
    · next h => rw [h, Option.toList_none]
    · next c h => rw [h, Option.toList_some]
    · rw [Option.toList_some, List.forall_mem_singleton, Term.eval_all]
  rw [hparts, List.forall_mem_append]
  cases o.nsw <;> cases o.nuw <;> simp

private theorem eval_noRemainder? (hw : 0 < w) (o : Operation) {a b : Term (.bits w)}
    {x y : BitVec w} (hx : a.eval m = x) (hy : b.eval m = y) :
    (∀ c ∈ (noRemainder? o a b).toList, c.eval m = true) ↔
      (o.exact = true → o.opcode.NoRemainder x y) := by
  unfold noRemainder?
  cases o.exact
  · simp
  · simp only [if_true, forall_const]
    split
    · next h =>
      rw [h, Option.toList_some, List.forall_mem_singleton, Term.eval_eq, Term.eval, hx, hy]
      exact Wrapping.sdiv_exact_iff x y
    · next h =>
      rw [h, Option.toList_some, List.forall_mem_singleton, Term.eval_eq, Term.eval, hx, hy]
      exact Wrapping.udiv_exact_iff x y
    · next h =>
      rw [h, Option.toList_some, List.forall_mem_singleton, eval_written, Term.eval, Term.eval,
        hx, hy]
      exact Wrapping.lshr_exact_iff x y
    · next h =>
      rw [h, Option.toList_some, List.forall_mem_singleton, eval_written, Term.eval, Term.eval,
        hx, hy]
      exact Wrapping.ashr_exact_iff hw x y
    · simp_all [Opcode.NoRemainder]

/-- The conditions that are asserted hold exactly if the flags leave the result defined. -/
theorem eval_preconditions (hw : 0 < w) (i : Instruction) {a b : Term (.bits w)} {x y : BitVec w}
    (hx : a.eval m = x) (hy : b.eval m = y) :
    (∀ c ∈ preconditions i.toOperation a b, c.eval m = true) ↔ i.signature.DefinedOn x y := by
  rw [preconditions, List.forall_mem_append, eval_noWrap?, eval_noRemainder? hw _ hx hy,
    eval_noSignedWrap hw _ hx hy, eval_noUnsignedWrap _ hx hy]
  exact ⟨fun ⟨⟨hs, hu⟩, hr⟩ => ⟨hs, hu, hr⟩, fun ⟨hs, hu, hr⟩ => ⟨⟨hs, hu⟩, hr⟩⟩

/-- A guarded assertion holds exactly if it holds whenever its preconditions do. -/
theorem eval_guarded {cs : List Assertion} {d : Assertion} :
    (guarded cs d).eval m = true ↔ ((∀ c ∈ cs, c.eval m = true) → d.eval m = true) := by
  unfold guarded
  split
  · simp
  · rw [Term.eval_implies, Term.eval_all]

end Encode

end BlockEquiv
