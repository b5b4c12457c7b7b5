import BlockEquiv.Proofs.FloatOrder

/-!
# Exact conversions

A number that a format has is its own nearest value. So a conversion to the wider format loses
nothing, and the conversion back gives the value again.
-/

namespace BlockEquiv

namespace Format

/-- A whole quotient is not rounded. -/
theorem roundQuotient_mul (n : Nat) {d : Nat} (hd : 0 < d) : roundQuotient (n * d) d = n := by
  simp only [roundQuotient, Nat.mul_mod_left, Nat.mul_div_cancel n hd]
  rw [if_neg (by omega)]

private theorem log2_mul_two_pow {n k : Nat} (r q : Nat) (hn : n = (2 ^ k + r) * 2 ^ q)
    (hr : r < 2 ^ k) : Nat.log2 n = k + q := by
  have hpos : 0 < 2 ^ q := Nat.two_pow_pos q
  have hne : n ≠ 0 := by
    rw [hn]
    exact Nat.mul_ne_zero (by omega) (by omega)
  rw [Nat.log2_eq_iff hne, hn, Nat.add_right_comm, Nat.pow_add, Nat.pow_add]
  constructor
  · exact Nat.mul_le_mul_right _ (Nat.le_add_right _ _)
  · exact Nat.mul_lt_mul_of_pos_right (by rw [Nat.pow_succ]; omega) hpos

/-- The value of a rank is nearest to itself. -/
theorem nearestRank_magnitude (f : Format) (a : Nat) {d : Nat} (hd : 0 < d) :
    f.nearestRank (f.magnitude a * d) d = a := by
  have hpos : 0 < 2 ^ f.fractionBits := Nat.two_pow_pos _
  simp only [nearestRank, Nat.mul_div_cancel _ hd]
  have hr := Nat.mod_lt a hpos
  have ha := Nat.div_add_mod a (2 ^ f.fractionBits)
  generalize a / 2 ^ f.fractionBits = q at ha
  generalize a % 2 ^ f.fractionBits = r at ha hr
  subst ha
  rcases q with _ | q
  · have hlog : Nat.log2 r - f.fractionBits = 0 := by
      rcases Nat.eq_zero_or_pos r with rfl | hpos
      · rw [Nat.log2_zero, Nat.zero_sub]
      · have := (Nat.log2_lt (Nat.ne_of_gt hpos)).mpr hr
        omega
    simp only [Nat.mul_zero, Nat.zero_add, magnitude, if_pos hr, hlog, Nat.zero_mul, Nat.pow_zero,
      Nat.mul_one]
    exact roundQuotient_mul r hd
  · rw [magnitude_of_lt f q hr, log2_mul_two_pow r q rfl hr, Nat.add_sub_cancel_left, Nat.mul_assoc,
      Nat.mul_comm (2 ^ q) d, roundQuotient_mul _ (Nat.mul_pos hd (Nat.two_pow_pos q)),
      Nat.mul_succ, Nat.mul_comm q]
    omega

/-- A number of few digits, moved far enough to the left, is the value of a rank. -/
theorem exists_magnitude_eq (f : Format) {n e : Nat} (hn : n < 2 ^ (f.fractionBits + 1))
    (he : f.fractionBits ≤ e) (hf : e + 2 < 2 ^ f.exponentBits) :
    ∃ b < f.infinityRank, f.magnitude b = n * 2 ^ e := by
  have hpos : 0 < 2 ^ f.fractionBits := Nat.two_pow_pos _
  rcases Nat.eq_zero_or_pos n with rfl | hn0
  · refine ⟨0, Nat.mul_pos (by omega) hpos, ?_⟩
    rw [magnitude_zero, Nat.zero_mul]
  have hne := Nat.ne_of_gt hn0
  have hlog : n.log2 ≤ f.fractionBits := Nat.lt_succ_iff.mp ((Nat.log2_lt hne).mpr hn)
  obtain ⟨hlow, hhigh⟩ := (Nat.log2_eq_iff hne).mp (rfl : n.log2 = n.log2)
  generalize n.log2 = k at hlog hlow hhigh
  -- The leading digit is moved to the place of the hidden one.
  have hsplit : 2 ^ f.fractionBits = 2 ^ k * 2 ^ (f.fractionBits - k) := by
    rw [← Nat.pow_add, Nat.add_sub_cancel' hlog]
  have hscale : 0 < 2 ^ (f.fractionBits - k) := Nat.two_pow_pos _
  have hlow' : 2 ^ f.fractionBits ≤ n * 2 ^ (f.fractionBits - k) := by
    rw [hsplit]
    exact Nat.mul_le_mul_right _ hlow
  have hhigh' : n * 2 ^ (f.fractionBits - k) < 2 ^ f.fractionBits * 2 := by
    rw [hsplit, Nat.mul_right_comm, ← Nat.pow_succ]
    exact Nat.mul_lt_mul_of_pos_right hhigh hscale
  obtain ⟨r, hr⟩ := Nat.exists_eq_add_of_le hlow'
  have hrlt : r < 2 ^ f.fractionBits := by omega
  refine ⟨2 ^ f.fractionBits * (e + k - f.fractionBits + 1) + r, ?_, ?_⟩
  · calc 2 ^ f.fractionBits * (e + k - f.fractionBits + 1) + r
        < 2 ^ f.fractionBits * (e + k - f.fractionBits + 1 + 1) := by
          rw [Nat.mul_succ _ (e + k - f.fractionBits + 1)]
          omega
      _ ≤ 2 ^ f.fractionBits * (2 ^ f.exponentBits - 1) := Nat.mul_le_mul_left _ (by omega)
      _ = f.infinityRank := Nat.mul_comm _ _
  · rw [magnitude_of_lt f _ hrlt, ← hr, Nat.mul_assoc, ← Nat.pow_add]
    congr 2
    omega

/-- A finite value is a number of as many digits as a significand has, times a power of two. -/
theorem exists_significand (f : Format) {a : Nat} (ha : a < f.infinityRank) :
    ∃ n q, n < 2 ^ (f.fractionBits + 1) ∧ q < 2 ^ f.exponentBits ∧ f.magnitude a = n * 2 ^ q := by
  have hpos : 0 < 2 ^ f.fractionBits := Nat.two_pow_pos _
  have hdiv : a / 2 ^ f.fractionBits < 2 ^ f.exponentBits - 1 := Nat.div_lt_of_lt_mul (by
    rw [Nat.mul_comm]
    exact ha)
  have hr := Nat.mod_lt a hpos
  have hsplit := Nat.div_add_mod a (2 ^ f.fractionBits)
  rw [Nat.pow_succ]
  generalize a / 2 ^ f.fractionBits = q at hsplit hdiv
  generalize a % 2 ^ f.fractionBits = r at hsplit hr
  subst hsplit
  rcases q with _ | q
  · refine ⟨r, 0, by omega, Nat.two_pow_pos _, ?_⟩
    simp only [Nat.mul_zero, Nat.zero_add, magnitude, if_pos hr, Nat.pow_zero, Nat.mul_one]
  · exact ⟨2 ^ f.fractionBits + r, q, by omega, by omega, f.magnitude_of_lt q hr⟩

/-- Every value of the narrower format is one of the wider. -/
theorem exists_double_magnitude_eq {a : Nat} (ha : a < single.infinityRank) :
    ∃ b < double.infinityRank,
      double.magnitude b * 2 ^ single.scale = single.magnitude a * 2 ^ double.scale := by
  have hscale : double.scale = 925 + single.scale := rfl
  obtain ⟨n, q, hn, hq, hmag⟩ := single.exists_significand ha
  have hn' : n < 2 ^ (double.fractionBits + 1) :=
    Nat.lt_of_lt_of_le hn (Nat.pow_le_pow_right (by omega) (by decide))
  have hq' : q < 256 := hq
  obtain ⟨b, hb, hmag'⟩ := double.exists_magnitude_eq (e := q + 925) hn'
    (show 52 ≤ q + 925 by omega) (show q + 925 + 2 < 2048 by omega)
  refine ⟨b, hb, ?_⟩
  rw [hmag', hmag, hscale, Nat.mul_assoc, Nat.mul_assoc, ← Nat.pow_add, ← Nat.pow_add,
    Nat.add_assoc]

end Format

namespace FloatValue

variable {f : Format}

private theorem round_exact (s : Bool) (a : Fin f.infinityRank) {d : Nat} (hd : 0 < d) :
    round s (f.magnitude a.val * d) d = finite s a := by
  rw [round, f.nearestRank_magnitude a.val hd, ofRank, dif_pos a.isLt]

/-- A conversion to the own format changes nothing. -/
theorem convert_self (x : FloatValue f) : x.convert f = x := by
  cases x with
  | nan => rfl
  | infinity s => rfl
  | finite s a => exact round_exact s a (Nat.two_pow_pos _)

/-- A zero keeps its sign in any format. -/
theorem convert_zero {g : Format} (s : Bool) : (zero s : FloatValue f).convert g = zero s := by
  have hzero : f.magnitude 0 * 2 ^ g.scale = g.magnitude 0 * 2 ^ f.scale := by
    rw [Format.magnitude_zero, Format.magnitude_zero, Nat.zero_mul, Nat.zero_mul]
  rw [zero, convert, hzero]
  exact round_exact s ⟨0, _⟩ (Nat.two_pow_pos _)

/-- A binary32 value comes back from binary64. -/
theorem convert_double_single (x : FloatValue .single) :
    (x.convert .double).convert .single = x := by
  cases x with
  | nan => rfl
  | infinity s => rfl
  | finite s a =>
    obtain ⟨b, hb, hmag⟩ := Format.exists_double_magnitude_eq a.isLt
    have hwide : (finite s a).convert .double = (finite s ⟨b, hb⟩ : FloatValue .double) := by
      rw [convert, ← hmag]
      exact round_exact s ⟨b, hb⟩ (Nat.two_pow_pos _)
    rw [hwide, convert, hmag]
    exact round_exact s a (Nat.two_pow_pos _)

end FloatValue

end BlockEquiv
