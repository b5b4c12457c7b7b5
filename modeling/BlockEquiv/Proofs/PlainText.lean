import BlockEquiv.Text.Upper
import BlockEquiv.Yaml.Value
import Mathlib.Init

/-!
# Plain words of a document

What a plain scalar stands for shows in its text. A whole number in decimal is read as that number,
and a word of capital letters as itself, unless it is one of the words for a truth value or for
nothing.
-/

namespace BlockEquiv

/-! ### Characters of a class -/

section Class

variable {p : Char → Bool} {x : Char}

/-- A character that passes a test differs from one that fails it. -/
theorem ne_of_test {c : Char} (h : p c = true) (hx : p x = false) : c ≠ x := by
  rintro rfl
  exact Bool.false_ne_true (hx.symm.trans h)

/-- A character that fails a test is none of those that pass it. -/
theorem not_mem_of_test {cs : List Char} (h : ∀ c ∈ cs, p c = true) (hx : p x = false) : x ∉ cs :=
  fun hmem => ne_of_test (h x hmem) hx rfl

end Class

/-! ### Digits -/

/-- The code points of the digits. -/
theorem Digit.range_of_isDigit {c : Char} (h : c.isDigit = true) : 48 ≤ c.toNat ∧ c.toNat ≤ 57 :=
  Char.isDigit_iff_toNat.mp h

/-- The value of a digit of the common script. -/
theorem Digit.value?_of_isDigit {c : Char} (h : c.isDigit = true) :
    Digit.value? c = some (c.toNat - '0'.toNat) := by
  have hrange := Digit.range_of_isDigit h
  have hlt : c.toNat < 0x30 + 10 := by omega
  simp only [Digit.value?, Digit.zeros, List.find?_cons_of_pos, hrange.1, hlt, decide_true,
    Bool.and_self, Option.map_some]
  rfl

private theorem isBlank_of_isDigit {c : Char} (h : c.isDigit = true) : isBlank c = false := by
  have hrange := Digit.range_of_isDigit h
  simp [isBlank, blanks]
  omega

namespace Whole

private theorem digits?_of_isDigit {cs : List Char} (hne : cs ≠ [])
    (h : ∀ c ∈ cs, c.isDigit = true) : digits? cs = some (cs.map fun c => c.toNat - '0'.toNat) := by
  fun_induction digits? cs with
  | case1 => exact absurd rfl hne
  | case2 c => simp [Digit.value?_of_isDigit (h c (by simp))]
  | case3 c rest ih => exact absurd (h '_' (by simp)) (by decide)
  | case4 c rest hu hr ih =>
    have hrest := ih hu fun x hx => h x (List.mem_cons_of_mem c hx)
    rw [Digit.value?_of_isDigit (h c List.mem_cons_self), hrest]
    rfl

private theorem trim_of_isDigit {cs : List Char} (h : ∀ c ∈ cs, c.isDigit = true) :
    trim cs = cs := by
  have hkeep {xs : List Char} (hxs : ∀ c ∈ xs, c.isDigit = true) : xs.dropWhile isBlank = xs := by
    cases xs with
    | nil => rfl
    | cons c xs => rw [List.dropWhile_cons_of_neg (by simp [isBlank_of_isDigit (hxs c (by simp))])]
  rw [trim, hkeep h, hkeep (by simpa using h), List.reverse_reverse]

private theorem ofDigits_map (cs : List Char) :
    ofDigits 10 (cs.map fun c => c.toNat - '0'.toNat) = Nat.ofDigitChars 10 cs 0 := by
  rw [ofDigits, List.foldl_map, Nat.ofDigitChars_eq_foldl]

/-- A number is written in digits. -/
theorem isDigit_of_mem {c : Char} {n : Nat} (h : c ∈ Nat.toDigits 10 n) : c.isDigit = true :=
  Nat.isDigit_of_mem_toDigits (by decide) (by decide) h

/-- The digits of a number start with no other character. -/
theorem toDigits_ne_cons {x : Char} (hx : x.isDigit = false) (n : Nat) (rest : List Char) :
    Nat.toDigits 10 n ≠ x :: rest := by
  intro he
  have hmem : x ∈ Nat.toDigits 10 n := by rw [he]; exact List.mem_cons_self
  exact not_mem_of_test (fun _ => isDigit_of_mem) hx hmem

/-- The decimal digits of a number that is not too long are read as it. -/
theorem read?_toDigits {n : Nat} (h : n < 10 ^ longest) :
    read? (Nat.toDigits 10 n) = some (n : Int) := by
  have hlen : ((Nat.toDigits 10 n).map fun c => c.toNat - '0'.toNat).length ≤ longest := by
    rw [List.length_map]
    exact (Nat.length_toDigits_le_iff (by decide) (by decide)).mpr h
  have hmag : magnitude? (Nat.toDigits 10 n) = some n := by
    rw [magnitude?, digits?_of_isDigit Nat.toDigits_ne_nil fun c => isDigit_of_mem]
    simp only [Option.bind_eq_bind, Option.bind_some, if_pos hlen, ofDigits_map,
      Nat.ofDigitChars_ten_toDigits]
  rw [read?, trim_of_isDigit fun c => isDigit_of_mem]
  split
  · exact absurd ‹_› (toDigits_ne_cons rfl n _)
  · exact absurd ‹_› (toDigits_ne_cons rfl n _)
  · rw [hmag]
    rfl

/-- The first digit of a positive number is not zero. -/
theorem head?_toDigits_ne_zero {n : Nat} (h : 0 < n) : (Nat.toDigits 10 n).head? ≠ some '0' := by
  induction n using Nat.strongRecOn with
  | ind n ih =>
    rw [Nat.toDigits_eq_if (by decide)]
    split
    · rename_i hlt
      intro he
      have hchar := congrArg Char.toNat (Option.some.inj he)
      rw [Nat.toNat_digitChar_of_lt_ten hlt] at hchar
      have : '0'.toNat = 48 := rfl
      omega
    · have hne := ih (n / 10) (by omega) (by omega)
      cases hd : Nat.toDigits 10 (n / 10) with
      | nil => exact absurd hd Nat.toDigits_ne_nil
      | cons c cs =>
        rw [hd] at hne
        exact hne

/-- A whole number as text: its sign, if it is negative, and its digits. -/
theorem toList_toString (n : Int) :
    (toString n).toList = (if n < 0 then ['-'] else []) ++ Nat.toDigits 10 n.natAbs := by
  cases n with
  | ofNat m =>
    have hnot : ¬ Int.ofNat m < 0 := Int.not_lt.mpr (Int.natCast_nonneg m)
    rw [if_neg hnot]
    change (toString m).toList = _
    rw [Nat.toString_eq_ofList_toDigits, String.toList_ofList]
    rfl
  | negSucc m =>
    rw [if_pos (Int.negSucc_lt_zero m)]
    change ("-" ++ toString (m + 1)).toList = _
    rw [Nat.toString_eq_ofList_toDigits, String.toList_append,
      String.toList_ofList (l := Nat.toDigits 10 (m + 1))]
    rfl

end Whole

/-! ### Capital letters -/

/-- The code points of the capital letters. -/
theorem Upper.range_of_isUpper {c : Char} (h : c.isUpper = true) : 65 ≤ c.toNat ∧ c.toNat ≤ 90 := by
  have hval : 'A'.val ≤ c.val ∧ c.val ≤ 'Z'.val := of_decide_eq_true h
  exact ⟨UInt32.le_iff_toNat_le.mp hval.1, UInt32.le_iff_toNat_le.mp hval.2⟩

private theorem isDigit_of_isUpper {c : Char} (h : c.isUpper = true) : c.isDigit = false := by
  have hrange := Upper.range_of_isUpper h
  rw [← Bool.not_eq_true]
  intro hd
  have := Digit.range_of_isDigit hd
  omega

private theorem Upper.char_of_isUpper {c : Char} (h : c.isUpper = true) : Upper.char c = [c] := by
  have hrange := Upper.range_of_isUpper h
  have hlower : ¬ ('a'.val ≤ c.val ∧ c.val ≤ 'z'.val) := by
    intro hval
    have : 97 ≤ c.toNat := UInt32.le_iff_toNat_le.mp hval.1
    omega
  have hsame : c.toUpper = c := dif_neg hlower
  rw [Upper.char, if_pos (by omega), hsame]

/-- Capital letters are in upper case. -/
theorem upperCase_of_isUpper {s : String} (h : ∀ c ∈ s.toList, c.isUpper = true) :
    upperCase s = s := by
  have hchars : ∀ cs : List Char, (∀ c ∈ cs, c.isUpper = true) → cs.flatMap Upper.char = cs := by
    intro cs hcs
    induction cs with
    | nil => rfl
    | cons c cs ih =>
      rw [List.flatMap_cons, Upper.char_of_isUpper (hcs c List.mem_cons_self),
        ih fun x hx => hcs x (List.mem_cons_of_mem c hx)]
      rfl
  rw [upperCase, hchars _ h, String.ofList_toList]

namespace Yaml

namespace Tag

/-! ### Whole numbers -/

/-- Only a sign is dropped. -/
theorem unsigned_eq_self {cs : List Char} (hplus : '+' ∉ cs) (hminus : '-' ∉ cs) :
    unsigned cs = cs := by
  unfold unsigned
  split
  · exact absurd List.mem_cons_self hplus
  · exact absurd List.mem_cons_self hminus
  · rfl

section Numbers

variable {ds : List Char}

private theorem dropWhile_isDigitOr (h : ∀ c ∈ ds, c.isDigit = true) :
    ds.dropWhile isDigitOr = [] := by
  induction ds with
  | nil => rfl
  | cons c ds ih =>
    rw [List.dropWhile_cons_of_pos (by simp [isDigitOr, h c List.mem_cons_self])]
    exact ih fun x hx => h x (List.mem_cons_of_mem c hx)

private theorem isReal_of_digits {cs : List Char} (hu : unsigned cs = ds)
    (h : ∀ c ∈ ds, c.isDigit = true) : isReal cs = false := by
  simp only [isReal, hu]
  split
  · exact absurd List.mem_cons_self (not_mem_of_test h rfl)
  · rw [dropWhile_isDigitOr fun c hc => h c (List.mem_cons_of_mem _ hc)]
    simp [isFraction, isSexagesimalFraction]
  · rfl

private theorem isWholeMagnitude_toDigits (n : Nat) :
    isWholeMagnitude (Nat.toDigits 10 n) = true := by
  have hdigit (c : Char) (hc : c ∈ Nat.toDigits 10 n) : c.isDigit = true := Whole.isDigit_of_mem hc
  rcases Nat.eq_zero_or_pos n with rfl | hpos
  · rfl
  · have hhead := Whole.head?_toDigits_ne_zero hpos
    generalize hds : Nat.toDigits 10 n = ds at hdigit hhead
    unfold isWholeMagnitude
    split
    · rfl
    · exact absurd rfl hhead
    · exact absurd rfl hhead
    · exact absurd rfl hhead
    · rw [dropWhile_isDigitOr fun c hc => hdigit c (List.mem_cons_of_mem _ hc)]
      simp [hdigit _ List.mem_cons_self]
    · exact absurd hds Nat.toDigits_ne_nil

/-- No word for a truth value has a digit. -/
theorem isTruth_of_isDigit {s : String} {c : Char} (hc : c ∈ s.toList) (h : c.isDigit = true) :
    isTruth s = false := by
  have hwords : (truthWords.flatMap fun w => spellings w.1).all
      (fun w => w.toList.all fun c => !c.isDigit) = true := by decide +kernel
  rw [isTruth, List.contains_eq_mem, decide_eq_false_iff_not]
  intro hs
  have hdigit := List.all_eq_true.mp (List.all_eq_true.mp hwords s hs) c hc
  simp [h] at hdigit

/-- A whole number in decimal has the tag of whole numbers. -/
theorem ofPlain_toString (n : Int) : ofPlain (toString n) = named "int" := by
  have hdigit (c : Char) (hc : c ∈ Nat.toDigits 10 n.natAbs) : c.isDigit = true :=
    Whole.isDigit_of_mem hc
  have hunsigned : unsigned (toString n).toList = Nat.toDigits 10 n.natAbs := by
    rw [Whole.toList_toString]
    split
    · rfl
    · exact unsigned_eq_self (not_mem_of_test hdigit rfl) (not_mem_of_test hdigit rfl)
  obtain ⟨c, hc⟩ := List.exists_mem_of_ne_nil _ (Nat.toDigits_ne_nil (b := 10) (n := n.natAbs))
  have hmem : c ∈ (toString n).toList := by
    rw [Whole.toList_toString]
    exact List.mem_append_right _ hc
  have htruth : isTruth (toString n) = false := isTruth_of_isDigit hmem (hdigit c hc)
  simp only [ofPlain, htruth, isReal_of_digits hunsigned hdigit, isWhole, hunsigned,
    isWholeMagnitude_toDigits, Bool.false_eq_true, if_false, if_true]

end Numbers

/-! ### Words of capital letters -/

/-- The words of capital letters that stand for a truth value or for nothing. -/
def reservedWords : List String := ["YES", "NO", "ON", "OFF", "TRUE", "FALSE", "NULL"]

section Capitals

variable {s : String}

private theorem mem_reservedWords {words : List String} (h : ∀ c ∈ s.toList, c.isUpper = true)
    (hwords : words.all (fun w => !w.toList.all Char.isUpper || reservedWords.contains w) = true)
    (hs : s ∈ words) : s ∈ reservedWords := by
  have hword := List.all_eq_true.mp hwords s hs
  rw [List.all_eq_true.mpr h] at hword
  simpa using hword

private theorem not_isTruth_of_isUpper (h : ∀ c ∈ s.toList, c.isUpper = true)
    (hs : s ∉ reservedWords) : isTruth s = false := by
  rw [isTruth, List.contains_eq_mem, decide_eq_false_iff_not]
  exact fun hmem => hs (mem_reservedWords h (by decide +kernel) hmem)

private theorem not_isNull_of_isUpper (hne : s ≠ "") (h : ∀ c ∈ s.toList, c.isUpper = true)
    (hs : s ∉ reservedWords) : isNull s = false := by
  have hnot : s ∉ "~" :: spellings "null" :=
    fun hmem => hs (mem_reservedWords h (by decide +kernel) hmem)
  rw [List.mem_cons, not_or] at hnot
  simp [isNull, hne, hnot.1, hnot.2]

private theorem unsigned_of_isUpper {cs : List Char} (h : ∀ c ∈ cs, c.isUpper = true) :
    unsigned cs = cs :=
  unsigned_eq_self (not_mem_of_test h rfl) (not_mem_of_test h rfl)

private theorem isReal_of_isUpper {cs : List Char} (h : ∀ c ∈ cs, c.isUpper = true) :
    isReal cs = false := by
  simp only [isReal, unsigned_of_isUpper h]
  split
  · exact absurd List.mem_cons_self (not_mem_of_test h rfl)
  · rw [isDigit_of_isUpper (h _ List.mem_cons_self), Bool.false_and]
  · rfl

private theorem isWhole_of_isUpper {cs : List Char} (h : ∀ c ∈ cs, c.isUpper = true) :
    isWhole cs = false := by
  have hzero : '0' ∉ cs := not_mem_of_test h rfl
  rw [isWhole, unsigned_of_isUpper h]
  unfold isWholeMagnitude
  split
  · exact absurd List.mem_cons_self hzero
  · exact absurd List.mem_cons_self hzero
  · exact absurd List.mem_cons_self hzero
  · exact absurd List.mem_cons_self hzero
  · rw [isDigit_of_isUpper (h _ List.mem_cons_self), Bool.false_and]
  · rfl

private theorem isEvident_of_isUpper (h : ∀ c ∈ s.toList, c.isUpper = true) :
    Stamp.isEvident s = false := by
  have htwo : Stamp.two s.toList = none := by
    unfold Stamp.two
    split
    · rename_i a b rest hs
      rw [isDigit_of_isUpper (h a (by simp [hs])), Bool.false_and, if_neg Bool.false_ne_true]
    · rfl
  simp [Stamp.isEvident, Stamp.ofText?, Stamp.day?, htwo]

/-- A word of capital letters has the tag of texts, unless it is reserved. -/
theorem ofPlain_of_isUpper (hne : s ≠ "") (h : ∀ c ∈ s.toList, c.isUpper = true)
    (hs : s ∉ reservedWords) : ofPlain s = named "str" := by
  have hother {w : String} (hw : w.toList.all Char.isUpper = false) : (s == w) = false := by
    rw [beq_eq_false_iff_ne]
    rintro rfl
    exact Bool.false_ne_true (hw.symm.trans (List.all_eq_true.mpr h))
  simp only [ofPlain, not_isTruth_of_isUpper h hs, isReal_of_isUpper h, isWhole_of_isUpper h,
    not_isNull_of_isUpper hne h hs, isEvident_of_isUpper h,
    hother (w := "<<") (by decide), hother (w := "=") (by decide), hother (w := "!") (by decide),
    hother (w := "&") (by decide), hother (w := "*") (by decide), Bool.or_self,
    Bool.false_eq_true, if_false]

end Capitals

end Tag

/-! ### The values of words -/

private theorem filter_underscore {cs : List Char} (h : ∀ c ∈ cs, c.isDigit = true) :
    cs.filter (· != '_') = cs := by
  rw [List.filter_eq_self]
  intro c hc
  have hne : c ≠ '_' := ne_of_test (h c hc) rfl
  simp [hne]

/-- The digits of a number that is not too long stand for it. -/
theorem wholeMagnitude_toDigits {n : Nat} (h : n < 10 ^ Whole.longest) :
    wholeMagnitude (Nat.toDigits 10 n) = .ok (n : Int) := by
  rcases Nat.eq_zero_or_pos n with rfl | hpos
  · rfl
  · have hhead := Whole.head?_toDigits_ne_zero hpos
    have hcolon : ':' ∉ Nat.toDigits 10 n := not_mem_of_test (fun _ => Whole.isDigit_of_mem) rfl
    have hread := Whole.read?_toDigits h
    generalize hds : Nat.toDigits 10 n = ds at hhead hcolon hread
    unfold wholeMagnitude
    split
    · exact absurd hds Nat.toDigits_ne_nil
    · exact absurd rfl hhead
    · exact absurd rfl hhead
    · exact absurd rfl hhead
    · exact absurd rfl hhead
    · rw [List.contains_eq_mem, decide_eq_false hcolon, if_neg Bool.false_ne_true, inDecimal, hread]

/-- A whole number in decimal that is not too long stands for itself. -/
theorem whole_toString {n : Int} (h : n.natAbs < 10 ^ Whole.longest) :
    whole (toString n) = .ok n := by
  have hdigit (c : Char) (hc : c ∈ Nat.toDigits 10 n.natAbs) : c.isDigit = true :=
    Whole.isDigit_of_mem hc
  have hkept : (toString n).toList.filter (· != '_') = (toString n).toList := by
    rw [Whole.toList_toString, List.filter_append, filter_underscore hdigit]
    split <;> rfl
  rw [whole, hkept, Whole.toList_toString]
  rcases Int.lt_or_le n 0 with hneg | hpos
  · rw [if_pos hneg, List.singleton_append]
    simp only [wholeMagnitude_toDigits h]
    exact congrArg Except.ok (by omega)
  · rw [if_neg (by omega), List.nil_append]
    split
    · exact absurd ‹_› Nat.toDigits_ne_nil
    · exact absurd ‹_› (Whole.toDigits_ne_cons rfl _ _)
    · exact absurd ‹_› (Whole.toDigits_ne_cons rfl _ _)
    · rw [wholeMagnitude_toDigits h]
      exact congrArg Except.ok (by omega)

/-- What a plain scalar stands for. -/
def plainValue (text : String) : Except Error Datum := scalarValue (Tag.ofPlain text) text

/-- A number that is not too long is read from its own text. -/
theorem plainValue_toString {n : Int} (h : n.natAbs < 10 ^ Whole.longest) :
    plainValue (toString n) = .ok (.scalar (.int n)) := by
  rw [plainValue, Tag.ofPlain_toString, scalarValue, if_neg (by decide), if_pos rfl,
    whole_toString h]
  rfl

/-- A word of capital letters stands for itself unless it is reserved. -/
theorem plainValue_of_isUpper {s : String} (hne : s ≠ "") (h : ∀ c ∈ s.toList, c.isUpper = true)
    (hs : s ∉ Tag.reservedWords) : plainValue s = .ok (.text s) := by
  rw [plainValue, Tag.ofPlain_of_isUpper hne h hs, scalarValue, if_pos rfl]

end Yaml

end BlockEquiv
