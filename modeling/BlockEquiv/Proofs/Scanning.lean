import BlockEquiv.Proofs.Inversion
import BlockEquiv.Proofs.PlainText

/-!
# The tokens of a sheet

A sheet is a heading with entries under it, each on a line of its own and indented by two columns,
after a remark and an empty line. Every name and every text in it is a single word. Its scan gives
a mapping of the heading to the mapping of the entries, in their order.

A token is read from a state in which nothing has to be passed over or ended first. One lemma takes
the scan over one entry, and the whole sheet follows by induction on its entries.
-/

namespace BlockEquiv

namespace Yaml

/-! ### Characters -/

section Characters

variable {c : Char}

/-- Whether a character is visible or a space, in ASCII. -/
def isPrintable (c : Char) : Bool := decide (0x20 ≤ c.toNat ∧ c.toNat ≤ 0x7e)

private theorem isBreak_of_isPrintable (h : isPrintable c = true) : isBreak c = false := by
  have hne {x : Char} (hx : isPrintable x = false) := ne_of_test h hx
  simp [isBreak, hne (x := '\n') rfl, hne (x := '\x85') rfl, hne (x := '\u2028') rfl,
    hne (x := '\u2029') rfl]

private theorem isAllowed_of_isPrintable (h : isPrintable c = true) : isAllowed c = true := by
  have hrange : 0x20 ≤ c.toNat ∧ c.toNat ≤ 0x7e := of_decide_eq_true h
  simp [isAllowed, hrange]

/-- The characters of a name: letters, digits, the hyphen and the underscore. -/
theorem isNameChar_eq (c : Char) :
    isNameChar c = (c.isUpper || c.isLower || c.isDigit || c == '-' || c == '_') := rfl

private theorem isPrintable_of_isNameChar (h : isNameChar c = true) : isPrintable c = true := by
  simp only [isNameChar_eq, Bool.or_eq_true, beq_iff_eq] at h
  rcases h with (((hu | hl) | hd) | rfl) | rfl
  · have := Upper.range_of_isUpper hu
    exact decide_eq_true (by omega)
  · have hval : (decide ('a'.val ≤ c.val) && decide (c.val ≤ 'z'.val)) = true := hl
    rw [Bool.and_eq_true, decide_eq_true_eq, decide_eq_true_eq] at hval
    have hlow : 97 ≤ c.toNat := UInt32.le_iff_toNat_le.mp hval.1
    have hhigh : c.toNat ≤ 122 := UInt32.le_iff_toNat_le.mp hval.2
    exact decide_eq_true (by omega)
  · have := Digit.range_of_isDigit hd
    exact decide_eq_true (by omega)
  · rfl
  · rfl

private theorem isBreak_of_isNameChar (h : isNameChar c = true) : isBreak c = false :=
  isBreak_of_isPrintable (isPrintable_of_isNameChar h)

private theorem isGap_of_isNameChar (h : isNameChar c = true) : isGap c = false := by
  have hne {x : Char} (hx : isNameChar x = false) := ne_of_test h hx
  simp [isGap, isSpaceOrEnd, isLineEnd, isBreak_of_isNameChar h, hne (x := '\t') rfl,
    hne (x := ' ') rfl, hne (x := '\x00') rfl]

end Characters

/-- A word that a plain scalar may consist of. -/
structure IsWord (w : List Char) : Prop where
  chars : ∀ c ∈ w, isNameChar c = true
  ne_nil : w ≠ []
  ne_dash : w ≠ ['-']

private theorem isWord_iff {w : List Char} :
    IsWord w ↔ w.all isNameChar = true ∧ w ≠ [] ∧ w ≠ ['-'] :=
  ⟨fun h => ⟨List.all_eq_true.mpr h.chars, h.ne_nil, h.ne_dash⟩,
    fun h => ⟨List.all_eq_true.mp h.1, h.2.1, h.2.2⟩⟩

instance (w : List Char) : Decidable (IsWord w) := decidable_of_iff _ isWord_iff.symm

private theorem IsWord.isNameChar_peek {w rest : List Char} {c : Cursor} (hw : IsWord w)
    (hr : c.rest = w ++ rest) : isNameChar c.peek = true := by
  obtain ⟨x, w, rfl⟩ := List.exists_cons_of_ne_nil hw.ne_nil
  rw [Cursor.peek, hr]
  exact hw.chars x List.mem_cons_self

/-! ### Cursors -/

namespace Cursor

/-- Printable characters take one column each. -/
theorem skip_append {xs : List Char} (h : ∀ c ∈ xs, isPrintable c = true) (rest : List Char)
    (i l k : Nat) :
    skip xs.length ⟨xs ++ rest, i, l, k⟩ = ⟨rest, i + xs.length, l, k + xs.length⟩ := by
  induction xs generalizing i k with
  | nil => rfl
  | cons x xs ih =>
    have hx := h x List.mem_cons_self
    have hmark : x ≠ byteOrderMark := ne_of_test hx rfl
    have hnext : next ⟨x :: xs ++ rest, i, l, k⟩ = ⟨xs ++ rest, i + 1, l, k + 1⟩ := by
      simp [next, isBreak_of_isPrintable hx, hmark]
    rw [List.length_cons, skip, hnext, ih fun c hc => h c (List.mem_cons_of_mem x hc)]
    congr 1 <;> omega

private theorem lineBreak?_newline (rest : List Char) (i l k : Nat) :
    lineBreak? ⟨'\n' :: rest, i, l, k⟩ = some ('\n', ⟨rest, i + 1, l + 1, 0⟩) := rfl

private theorem lineBreak?_of_not_isBreak {c : Cursor} (h : isBreak c.peek = false) :
    c.lineBreak? = none := by
  simp [lineBreak?, h]

private theorem skipSpaces_of_peek_ne {c : Cursor} (h : c.peek ≠ ' ') : c.skipSpaces = c := by
  have hrun : c.run (· == ' ') = [] := by
    unfold run
    unfold peek at h
    cases hr : c.rest with
    | nil => rfl
    | cons x xs =>
      rw [hr] at h
      exact List.takeWhile_cons_of_neg (by simpa using h)
  rw [skipSpaces, skipWhile, hrun]
  rfl

private theorem skipSpaces_cons (rest : List Char) (i l k : Nat) :
    skipSpaces ⟨' ' :: rest, i, l, k⟩ = skipSpaces ⟨rest, i + 1, l, k + 1⟩ := by
  have hrun : run (· == ' ') ⟨' ' :: rest, i, l, k⟩ =
      ' ' :: run (· == ' ') ⟨rest, i + 1, l, k + 1⟩ := List.takeWhile_cons_of_pos rfl
  rw [skipSpaces, skipWhile, hrun]
  rfl

/-! ### Plain scalars -/

/-- A plain scalar that begins with a word goes on after it. -/
theorem plainLength_append {w : List Char} (h : ∀ c ∈ w, isNameChar c = true) (rest : List Char) :
    plainLength false (w ++ rest) = w.length + plainLength false rest := by
  induction w with
  | nil => simp
  | cons c w ih =>
    have hc := h c List.mem_cons_self
    have hcolon : (c == ':') = false := beq_eq_false_iff_ne.mpr (ne_of_test hc rfl)
    have hends (y : Char) : endsPlain false c y = false := by
      simp only [endsPlain, isGap_of_isNameChar hc, hcolon, Bool.false_and, Bool.or_self]
    rw [List.cons_append, plainLength, hends, if_neg Bool.false_ne_true,
      ih fun x hx => h x (List.mem_cons_of_mem c hx), List.length_cons]
    omega

/-- Without a line break among them, what follows a line of a plain scalar is spaces. -/
theorem plainBreaks_eq {fuel : Nat} {c : Cursor} (hf : c.rest.length ≤ fuel)
    (hb : isBreak c.skipSpaces.peek = false) (breaks : List Char) :
    plainBreaks fuel breaks c = some (breaks, c.skipSpaces) := by
  induction fuel generalizing c with
  | zero =>
    have hrest : c.rest = [] := List.length_eq_zero_iff.mp (by omega)
    rw [plainBreaks, skipSpaces_of_peek_ne (by simp [peek, hrest])]
  | succ fuel ih =>
    rw [plainBreaks]
    split
    · rename_i hpeek
      obtain ⟨rest, i, l, k⟩ := c
      cases rest with
      | nil => simp [peek] at hpeek
      | cons x rest =>
        obtain rfl : x = ' ' := by simpa [peek] using hpeek
        have hnext : next ⟨' ' :: rest, i, l, k⟩ = ⟨rest, i + 1, l, k + 1⟩ := rfl
        rw [skipSpaces_cons] at hb ⊢
        rw [hnext, ih (by simpa using hf) hb]
    · rename_i hpeek
      have hskip : c.skipSpaces = c := skipSpaces_of_peek_ne (by simpa using hpeek)
      rw [hskip] at hb ⊢
      rw [lineBreak?_of_not_isBreak hb]

/-- A plain scalar of a single word, given what comes after it. -/
theorem plain_word {w : List Char} (hw : IsWord w) {after gap : List Char} {c : Cursor}
    {ended : Bool} {indent : Int} {i l k : Nat} (hafter : plainLength false after = 0)
    (hgap : plainGap ⟨after, i + w.length, l, k + w.length⟩ = (gap, c, ended))
    (hstop : (gap.isEmpty || c.peek == '#' || decide ((c.column : Int) < indent)) = true) :
    plain false indent ⟨w ++ after, i, l, k⟩ = (String.ofList w, c, ended) := by
  have hpeek : (peek ⟨w ++ after, i, l, k⟩ == '#') = false :=
    beq_eq_false_iff_ne.mpr (ne_of_test (hw.isNameChar_peek rfl) rfl)
  have hlength : plainLength false (w ++ after) = w.length := by
    rw [plainLength_append hw.chars, hafter, Nat.add_zero]
  have hpos : w.length ≠ 0 := by simpa using hw.ne_nil
  have hskip : skip w.length ⟨w ++ after, i, l, k⟩ = ⟨after, i + w.length, l, k + w.length⟩ :=
    skip_append (fun x hx => isPrintable_of_isNameChar (hw.chars x hx)) after i l k
  obtain ⟨fuel, hfuel⟩ : ∃ fuel, (w ++ after).length = fuel + 1 :=
    Nat.exists_eq_succ_of_ne_zero (by simp [hw.ne_nil])
  simp only [plain, hfuel, plainRuns, hpeek, hlength, if_neg hpos, hskip, hgap, hstop,
    Bool.false_eq_true, if_false, Bool.not_false, Bool.true_and, if_true, List.take_left,
    List.nil_append]

/-- A word before a colon that ends it. -/
theorem plain_colon {w : List Char} (hw : IsWord w) {rest : List Char}
    (hrest : isGap (rest.headD '\x00') = true) (indent : Int) (i l k : Nat) :
    plain false indent ⟨w ++ ':' :: rest, i, l, k⟩ =
      (String.ofList w, ⟨':' :: rest, i + w.length, l, k + w.length⟩, false) := by
  refine plain_word hw ?_ rfl rfl
  have hends : endsPlain false ':' (rest.headD '\x00') = true := by
    simp only [endsPlain, hrest, beq_self_eq_true, Bool.true_or, Bool.and_self, Bool.or_true]
  rw [plainLength, hends, if_pos rfl]

/-- A word at the end of its line, where the next line is indented less. -/
theorem plain_newline {w : List Char} (hw : IsWord w) {rest : List Char} {indent : Int}
    {i l k : Nat} {c : Cursor} (hc : c = skipSpaces ⟨rest, i + w.length + 1, l + 1, 0⟩)
    (hsep : atSeparator ⟨rest, i + w.length + 1, l + 1, 0⟩ = false)
    (hb : isBreak c.peek = false) (hindent : (c.column : Int) < indent) :
    plain false indent ⟨w ++ '\n' :: rest, i, l, k⟩ = (String.ofList w, c, true) := by
  have hgap : plainGap ⟨'\n' :: rest, i + w.length, l, k + w.length⟩ = ([' '], c, true) := by
    rw [hc] at hb
    rw [plainGap, skipSpaces_of_peek_ne (by simp [peek]), lineBreak?_newline]
    simp only [hsep, plainBreaks_eq (Nat.le_refl _) hb, Bool.false_eq_true, if_false, hc]
    rfl
  exact plain_word hw rfl hgap (by simp [hindent])

end Cursor

/-! ### Steps of a scan -/

namespace Scanner

variable {s t : Scan}

/-- Nothing has to be passed over, dropped or ended before the token at the cursor is read. -/
structure Settled (s : Scan) : Prop where
  space : s.cursor.peek ≠ ' '
  comment : s.cursor.peek ≠ '#'
  newline : isBreak s.cursor.peek = false
  fresh : ∀ p ∈ s.keys, p.2.line = s.cursor.line ∧ s.cursor.index - p.2.index ≤ longestKey
  inside : s.indent ≤ s.cursor.column

/-- Spaces before a token are passed over. -/
theorem toNextToken_spaces {c : Cursor} (h : s.cursor.skipSpaces = c) (hc : c.peek ≠ '#')
    (hb : isBreak c.peek = false) (fuel : Nat) :
    toNextToken (fuel + 1) s = .ok () { s with cursor := c } := by
  have hcomment : (c.peek == '#') = false := by simpa using hc
  simp only [toNextToken, run_bind, cursor, run_get, run_pure, h, hcomment, Bool.false_eq_true,
    if_false, Cursor.lineBreak?_of_not_isBreak hb]
  rfl

/-- Blanks or a remark are passed over with the line that they end, and a key may start on the next
one. -/
theorem toNextToken_lineBreak {b : Char} {c d : Cursor} (hflow : s.flow = 0)
    (hc : (if s.cursor.skipSpaces.peek == '#' then s.cursor.skipSpaces.skipLine
      else s.cursor.skipSpaces) = c) (hb : c.lineBreak? = some (b, d)) (fuel : Nat) :
    toNextToken (fuel + 1) s = toNextToken fuel { s with cursor := d, keyAllowed := true } := by
  simp only [toNextToken, run_bind, cursor, run_get, run_pure, hc, hb, moveTo, run_modify, hflow,
    if_true, allowKey]

private theorem toNextToken_newline {rest : List Char} {i l k : Nat} (hflow : s.flow = 0)
    (h : s.cursor = ⟨'\n' :: rest, i, l, k⟩) (fuel : Nat) :
    toNextToken (fuel + 1) s =
      toNextToken fuel { s with cursor := ⟨rest, i + 1, l + 1, 0⟩, keyAllowed := true } := by
  refine toNextToken_lineBreak hflow ?_ (Cursor.lineBreak?_newline rest i l k) fuel
  rw [h, Cursor.skipSpaces_of_peek_ne (by simp [Cursor.peek])]
  rfl

/-- A remark that takes up the rest of a line. -/
theorem toNextToken_remark {remark rest : List Char} {i l k : Nat} (hflow : s.flow = 0)
    (hremark : ∀ c ∈ remark, isPrintable c = true)
    (h : s.cursor = ⟨'#' :: remark ++ '\n' :: rest, i, l, k⟩) (fuel : Nat) :
    toNextToken (fuel + 1) s = toNextToken fuel
      { s with cursor := ⟨rest, i + (remark.length + 1) + 1, l + 1, 0⟩, keyAllowed := true } := by
  have hline : ∀ c ∈ '#' :: remark, isPrintable c = true := by
    simpa [isPrintable] using hremark
  have hinside : ∀ c ∈ '#' :: remark, (!isLineEnd c) = true := by
    intro c hc
    have hnull : c ≠ '\x00' := ne_of_test (hline c hc) rfl
    simp [isLineEnd, hnull, isBreak_of_isPrintable (hline c hc)]
  have hrun : Cursor.run (fun x => !isLineEnd x) ⟨'#' :: remark ++ '\n' :: rest, i, l, k⟩ =
      '#' :: remark := by
    rw [Cursor.run, List.takeWhile_append_of_pos hinside, List.takeWhile_cons_of_neg (by decide),
      List.append_nil]
  refine toNextToken_lineBreak hflow ?_
    (Cursor.lineBreak?_newline rest _ l (k + (remark.length + 1))) fuel
  rw [h, Cursor.skipSpaces_of_peek_ne (by simp [Cursor.peek]), Cursor.skipLine, Cursor.skipWhile,
    hrun]
  exact Cursor.skip_append hline _ i l k

private theorem dropStaleKeys_of_fresh
    (h : ∀ p ∈ s.keys, p.2.line = s.cursor.line ∧ s.cursor.index - p.2.index ≤ longestKey) :
    dropStaleKeys s = .ok () s := by
  have hfresh : ∀ p ∈ s.keys, (p.2.line != s.cursor.line ||
      decide (longestKey < s.cursor.index - p.2.index)) = false := by
    intro p hp
    simp [h p hp]
  have hany : s.keys.any (fun p => (p.2.line != s.cursor.line ||
      decide (longestKey < s.cursor.index - p.2.index)) && p.2.required) = false := by
    rw [List.any_eq_false]
    intro p hp
    simp [hfresh p hp]
  have hfilter : s.keys.filter (fun p => !(p.2.line != s.cursor.line ||
      decide (longestKey < s.cursor.index - p.2.index))) = s.keys := by
    rw [List.filter_eq_self]
    intro p hp
    simp [hfresh p hp]
  simp only [dropStaleKeys, run_bind, run_get, hany, hfilter]
  rfl

private theorem unwind_of_le {column : Int} (h : s.indent ≤ column) :
    unwind column s = .ok () s := by
  have hended : (s.indent :: s.outer).takeWhile (fun i => decide (column < i)) = [] :=
    List.takeWhile_cons_of_neg (by simpa using h)
  simp only [unwind, run_bind, run_get, hended]
  split
  · simp only [List.map_nil, List.append_nil]
    rfl
  · rfl

private theorem toNextToken_of_settled (hs : Settled s) (fuel : Nat) :
    toNextToken (fuel + 1) s = .ok () s :=
  toNextToken_spaces (Cursor.skipSpaces_of_peek_ne hs.space) hs.comment hs.newline fuel

/-- A settled state is left by the token at its cursor alone. -/
theorem tokens_succ (hs : Settled s) (ht : token s = .ok false t) (fuel : Nat) :
    tokens (fuel + 1) s = tokens fuel t := by
  simp only [tokens, run_bind, cursor, run_get, run_pure, toNextToken_of_settled hs,
    dropStaleKeys_of_fresh hs.fresh, unwind_of_le hs.inside, ht]
  rfl

/-- What is passed over before a token may be passed over beforehand. -/
theorem tokens_of_toNextToken (hs : toNextToken (s.cursor.rest.length + 1) s = .ok () t)
    (ht : Settled t) (fuel : Nat) : tokens (fuel + 1) s = tokens (fuel + 1) t := by
  simp only [tokens, run_bind, cursor, run_get, run_pure, hs,
    toNextToken_of_settled ht]

/-! ### Words and colons -/

private theorem startsPlain_of_isNameChar {x y : Char} (hx : isNameChar x = true)
    (hdash : x = '-' → isGap y = false) : startsPlain false x y = true := by
  by_cases h : x = '-'
  · simp only [startsPlain, hdash h, h, beq_self_eq_true, Bool.not_false, Bool.true_or,
      Bool.and_self, Bool.or_true]
  · unfold startsPlain
    have hmarks : "-?:,[]\x7b\x7d#&*!|>'\"%@`".toList.all
        (fun m => m == '-' || !isNameChar m) = true := by decide +kernel
    have hmark : "-?:,[]\x7b\x7d#&*!|>'\"%@`".contains x = false := by
      rw [String.contains_char_eq, decide_eq_false_iff_not]
      intro hmem
      have hmark := List.all_eq_true.mp hmarks x hmem
      simp [h, hx] at hmark
    rw [hmark, isGap_of_isNameChar hx]
    rfl

private theorem token_of_word {w rest : List Char} (hw : IsWord w) (hr : s.cursor.rest = w ++ rest)
    (hflow : s.flow = 0) (hsep : (s.cursor.column == 0 && s.cursor.atSeparator) = false) :
    token s = (do inKey plainScalar; return false) s := by
  obtain ⟨x, w, rfl⟩ := List.exists_cons_of_ne_nil hw.ne_nil
  have hx : isNameChar x = true := hw.chars x List.mem_cons_self
  have hpeek : s.cursor.peek = x := by rw [Cursor.peek, hr]; rfl
  have hother {y : Char} (hy : isNameChar y = false) : (x == y) = false :=
    beq_eq_false_iff_ne.mpr (ne_of_test hx hy)
  have hempty : s.cursor.rest.isEmpty = false := by rw [hr]; rfl
  -- A hyphen is no mark of an entry: another character of the word comes after it.
  have hdash : x = '-' → isGap (s.cursor.ahead 1) = false := by
    rintro rfl
    cases w with
    | nil => exact absurd rfl hw.ne_dash
    | cons y w =>
      have hahead : s.cursor.ahead 1 = y := by rw [Cursor.ahead, hr]; rfl
      rw [hahead]
      exact isGap_of_isNameChar (hw.chars y (by simp))
  have hentry : (x == '-' && isGap (s.cursor.ahead 1)) = false := by
    rw [Bool.and_eq_false_imp]
    intro h
    exact hdash (by simpa using h)
  have hplain : startsPlain false x (s.cursor.ahead 1) = true := startsPlain_of_isNameChar hx hdash
  simp only [token, run_bind, run_get, hpeek, hempty, hsep, hflow, hentry, hplain,
    hother (y := '%') rfl, hother (y := '[') rfl, hother (y := ']') rfl,
    hother (y := '\x7b') rfl, hother (y := '\x7d') rfl, hother (y := ',') rfl,
    hother (y := '?') rfl, hother (y := ':') rfl, hother (y := '*') rfl, hother (y := '&') rfl,
    hother (y := '!') rfl, hother (y := '|') rfl, hother (y := '>') rfl, hother (y := '\'') rfl,
    hother (y := '"') rfl, bne_self_eq_false, Bool.false_and, Bool.false_or, Bool.or_false,
    Bool.false_eq_true, if_false, if_true]

private theorem token_of_colon {rest : List Char} (hr : s.cursor.rest = ':' :: rest)
    (hgap : isGap (rest.headD '\x00') = true) :
    token s = (do valueMark; return false) s := by
  have hpeek : s.cursor.peek = ':' := by rw [Cursor.peek, hr]; rfl
  have hahead : isGap (s.cursor.ahead 1) = true := by rw [Cursor.ahead, hr]; exact hgap
  have hsep : s.cursor.atSeparator = false := by
    simp [Cursor.atSeparator, hr]
  have hempty : s.cursor.rest.isEmpty = false := by rw [hr]; rfl
  simp only [token, run_bind, run_get, hpeek, hahead, hsep, hempty, Bool.and_false, Bool.or_true,
    Char.reduceBEq, Bool.false_and, Bool.true_and, Bool.false_eq_true, if_false, if_true]

/-- The key that may start at the cursor. -/
def possibleKey (s : Scan) : PossibleKey where
  place := s.tokens.length
  required := s.indent == (s.cursor.column : Int)
  index := s.cursor.index
  line := s.cursor.line
  column := s.cursor.column

private theorem saveKey_of_keyAllowed (hflow : s.flow = 0) (hkeys : s.keys = [])
    (hallow : s.keyAllowed = true) :
    saveKey s = .ok () { s with keys := [(0, possibleKey s)] } := by
  obtain ⟨cursor, tokens, flow, indent, outer, keys, allowed⟩ := s
  subst hflow hkeys hallow
  rfl

private theorem saveKey_of_not_keyAllowed (hallow : s.keyAllowed = false) :
    saveKey s = .ok () s := by
  simp only [saveKey, run_bind, run_get, hallow]
  rfl

/-- A plain scalar becomes a token, and a key may start after it if its line has ended. -/
theorem inKey_plainScalar {text : String} {c : Cursor} {ended : Bool}
    {keys : List (Nat × PossibleKey)} (hsave : saveKey s = .ok () { s with keys := keys })
    (hflow : s.flow = 0) (hplain : s.cursor.plain false (s.indent + 1) = (text, c, ended)) :
    inKey plainScalar s = .ok () { s with
      cursor := c
      tokens := s.tokens ++ [.scalar text true]
      keys := keys
      keyAllowed := ended } := by
  simp only [inKey, run_bind, hsave, allowKey, run_modify, plainScalar, run_get, hflow,
    bne_self_eq_false, hplain]
  cases ended with
  | false => rfl
  | true => rfl

private theorem run_set {σ ε : Type} (s t : σ) : (set t : EStateM ε σ PUnit) s = .ok ⟨⟩ t := rfl

private theorem run_modifyGet {σ ε α : Type} (f : σ → α × σ) (s : σ) :
    (modifyGet f : EStateM ε σ α) s = .ok (f s).1 (f s).2 := rfl

private theorem addIndent_of_lt {column : Int} (h : s.indent < column) :
    addIndent column s = .ok true { s with indent := column, outer := s.indent :: s.outer } := by
  rw [addIndent, run_modifyGet, if_pos h]

private theorem addIndent_of_not_lt {column : Int} (h : ¬ s.indent < column) :
    addIndent column s = .ok false s := by
  rw [addIndent, run_modifyGet, if_neg h]

/-- The colon after a possible key makes it one, and starts a mapping if it is indented more than
the entries around it. -/
theorem valueMark_of_key {k : PossibleKey} {before after : List Token} (hflow : s.flow = 0)
    (hkeys : s.keys = [(0, k)]) (htokens : s.tokens = before ++ after)
    (hplace : k.place = before.length) :
    valueMark s = .ok () { s with
      cursor := s.cursor.skip 1
      tokens := before ++ (if s.indent < k.column then [.blockMappingStart] else []) ++
        [.key] ++ after ++ [.value]
      indent := if s.indent < k.column then k.column else s.indent
      outer := if s.indent < k.column then s.indent :: s.outer else s.outer
      keys := []
      keyAllowed := false } := by
  obtain ⟨cursor, tokens, flow, indent, outer, keys, allowed⟩ := s
  subst hflow hkeys htokens
  have htake (ts : List Token) : (before ++ ts).take k.place = before := by
    rw [hplace, List.take_left]
  have hdrop (ts : List Token) : (before ++ ts).drop k.place = ts := by
    rw [hplace, List.drop_left]
  simp only [valueMark, run_bind, run_get, run_set, List.lookup_cons_self, htake, hdrop, allowKey,
    skip, moveTo, Scanner.cursor, emit, if_true, List.append_assoc]
  by_cases h : indent < k.column
  · simp only [run_bind, run_modify, run_get, run_pure, addIndent_of_lt, h, if_true, htake, hdrop,
      List.append_assoc]
    rfl
  · simp only [run_bind, run_modify, run_get, run_pure, addIndent_of_not_lt, h, not_false_eq_true,
      if_false, Bool.false_eq_true, List.append_assoc, List.nil_append]
    rfl

private theorem settled_of_word {w rest : List Char} (hw : IsWord w)
    (hr : s.cursor.rest = w ++ rest) (hkeys : s.keys = []) (hindent : s.indent ≤ s.cursor.column) :
    Settled s := by
  have hpeek : isNameChar s.cursor.peek = true := hw.isNameChar_peek hr
  constructor
  · exact ne_of_test hpeek rfl
  · exact ne_of_test hpeek rfl
  · exact isBreak_of_isNameChar hpeek
  · simp [hkeys]
  · exact hindent

section Line

variable {w rest : List Char} {ts : List Token} {d : Int} {outer : List Int} {i l k : Nat}

private theorem atSeparator_word_colon (hw : ∀ c ∈ w, isNameChar c = true) :
    Cursor.atSeparator ⟨w ++ ':' :: rest, i, l, k⟩ = false := by
  rcases w with _ | ⟨a, _ | ⟨b, _ | ⟨c, w⟩⟩⟩
  · simp [Cursor.atSeparator]
  · simp [Cursor.atSeparator]
  · simp [Cursor.atSeparator]
  · -- Three hyphens are followed by more of the word, or by its colon.
    have hgap : isGap (Cursor.ahead ⟨a :: b :: c :: w ++ ':' :: rest, i, l, k⟩ 3) = false := by
      cases w with
      | nil => rfl
      | cons x w => exact isGap_of_isNameChar (hw x (by simp))
    rw [Cursor.atSeparator, hgap, Bool.and_false]

/-- A word before a colon may be a key. -/
theorem tokens_word (hw : IsWord w) (hgap : isGap (rest.headD '\x00') = true) (hd : d ≤ k)
    (fuel : Nat) :
    tokens (fuel + 1)
        { cursor := ⟨w ++ ':' :: rest, i, l, k⟩, tokens := ts, indent := d, outer := outer } =
      tokens fuel
        { cursor := ⟨':' :: rest, i + w.length, l, k + w.length⟩
          tokens := ts ++ [.scalar (String.ofList w) true]
          indent := d
          outer := outer
          keys := [(0, ⟨ts.length, d == k, i, l, k⟩)]
          keyAllowed := false } := by
  apply tokens_succ
  · exact settled_of_word hw rfl rfl hd
  · rw [token_of_word hw rfl rfl (by simp [atSeparator_word_colon hw.chars]), run_bind,
      inKey_plainScalar (saveKey_of_keyAllowed rfl rfl rfl) rfl
        (Cursor.plain_colon hw hgap _ i l k)]
    rfl

/-- The colon makes it one, in a mapping that starts there if the key is indented more than what is
around it. -/
theorem tokens_colon {after : List Token} {required : Bool} {i' k' : Nat}
    (hgap : isGap (rest.headD '\x00') = true) (hshort : i' - i ≤ longestKey) (hd : d ≤ k')
    (fuel : Nat) :
    tokens (fuel + 1)
        { cursor := ⟨':' :: rest, i', l, k'⟩
          tokens := ts ++ after
          indent := d
          outer := outer
          keys := [(0, ⟨ts.length, required, i, l, k⟩)]
          keyAllowed := false } =
      tokens fuel
        { cursor := ⟨rest, i' + 1, l, k' + 1⟩
          tokens := ts ++ (if d < k then [.blockMappingStart] else []) ++
            [.key] ++ after ++ [.value]
          indent := if d < k then k else d
          outer := if d < k then d :: outer else outer
          keyAllowed := false } := by
  apply tokens_succ
  · constructor
    · simp [Cursor.peek]
    · simp [Cursor.peek]
    · rfl
    · simpa using hshort
    · exact hd
  · rw [token_of_colon rfl hgap, run_bind, valueMark_of_key rfl rfl rfl rfl]
    rfl

/-- A word and the colon after it are a key, in a mapping that starts there if they are indented
more than what is around them. -/
theorem tokens_name (hw : IsWord w) (hshort : w.length ≤ longestKey)
    (hgap : isGap (rest.headD '\x00') = true) (hd : d ≤ k) (fuel : Nat) :
    tokens (fuel + 2)
        { cursor := ⟨w ++ ':' :: rest, i, l, k⟩, tokens := ts, indent := d, outer := outer } =
      tokens fuel
        { cursor := ⟨rest, i + w.length + 1, l, k + w.length + 1⟩
          tokens := ts ++ (if d < k then [.blockMappingStart] else []) ++
            [.key, .scalar (String.ofList w) true, .value]
          indent := k
          outer := if d < k then d :: outer else outer
          keyAllowed := false } := by
  -- Whether or not a mapping starts, the innermost one is then that of the key.
  have hindent : (if d < k then (k : Int) else d) = k := by
    split <;> omega
  rw [tokens_word hw hgap hd, tokens_colon hgap (by omega) (by omega), hindent]
  simp only [List.append_assoc, List.cons_append, List.nil_append]

/-- A word after a colon is a scalar; it ends with its line if the next one is indented no more than
the entries around it. -/
theorem tokens_text {c : Cursor} (hw : IsWord w)
    (hc : c = Cursor.skipSpaces ⟨rest, i + 1 + w.length + 1, l + 1, 0⟩)
    (hsep : Cursor.atSeparator ⟨rest, i + 1 + w.length + 1, l + 1, 0⟩ = false)
    (hb : isBreak c.peek = false) (hcolumn : (c.column : Int) ≤ d) (hd : d ≤ k) (fuel : Nat) :
    tokens (fuel + 1)
        { cursor := ⟨' ' :: (w ++ '\n' :: rest), i, l, k⟩, tokens := ts, indent := d,
          outer := outer, keyAllowed := false } =
      tokens fuel
        { cursor := c, tokens := ts ++ [.scalar (String.ofList w) true], indent := d,
          outer := outer } := by
  have hword : Settled
      { cursor := ⟨w ++ '\n' :: rest, i + 1, l, k + 1⟩, tokens := ts, indent := d, outer := outer,
        keyAllowed := false } :=
    settled_of_word hw rfl rfl (by change d ≤ ((k + 1 : Nat) : Int); omega)
  have hspace : Cursor.skipSpaces ⟨' ' :: (w ++ '\n' :: rest), i, l, k⟩ =
      ⟨w ++ '\n' :: rest, i + 1, l, k + 1⟩ := by
    rw [Cursor.skipSpaces_cons]
    exact Cursor.skipSpaces_of_peek_ne hword.space
  have hless : (c.column : Int) < d + 1 := by omega
  have hplain := Cursor.plain_newline (k := k + 1) hw hc hsep hb hless
  rw [tokens_of_toNextToken (toNextToken_spaces hspace hword.comment hword.newline _) hword]
  apply tokens_succ hword
  rw [token_of_word hw rfl rfl (by simp), run_bind,
    inKey_plainScalar (saveKey_of_not_keyAllowed rfl) rfl hplain]
  rfl

end Line

end Scanner

/-! ### Sheets -/

/-- A name and a text of one word each. -/
structure Entry where
  name : List Char
  text : List Char
  name_isWord : IsWord name
  text_isWord : IsWord text
  name_short : name.length ≤ Scanner.longestKey

namespace Entry

/-- The entry as a line. -/
def line (e : Entry) : List Char := ' ' :: ' ' :: (e.name ++ ':' :: ' ' :: (e.text ++ ['\n']))

/-- The tokens of an entry. -/
def tokens (e : Entry) : List Token :=
  [.key, .scalar (String.ofList e.name) true, .value, .scalar (String.ofList e.text) true]

/-- The lines of some entries. -/
def lines (es : List Entry) : List Char := es.flatMap line

/-- The lines of some entries, the first one written out. -/
theorem lines_cons (e : Entry) (es : List Entry) :
    lines (e :: es) = ' ' :: ' ' :: (e.name ++ ':' :: ' ' :: (e.text ++ '\n' :: lines es)) := by
  simp [lines, line]

/-- Where the entries begin, or the end if there are none. -/
def start (es : List Entry) (i l : Nat) : Cursor := Cursor.skipSpaces ⟨lines es, i, l, 0⟩

private theorem start_cons (e : Entry) (es : List Entry) (i l : Nat) :
    start (e :: es) i l = ⟨e.name ++ ':' :: ' ' :: (e.text ++ '\n' :: lines es), i + 2, l, 2⟩ := by
  rw [start, lines_cons, Cursor.skipSpaces_cons, Cursor.skipSpaces_cons]
  exact Cursor.skipSpaces_of_peek_ne (ne_of_test (e.name_isWord.isNameChar_peek rfl) rfl)

private theorem isBreak_peek_start (es : List Entry) (i l : Nat) :
    isBreak (start es i l).peek = false := by
  cases es with
  | nil => rfl
  | cons e es =>
    rw [start_cons]
    exact isBreak_of_isNameChar (e.name_isWord.isNameChar_peek rfl)

private theorem column_start_le (es : List Entry) (i l : Nat) : (start es i l).column ≤ 2 := by
  cases es with
  | nil => exact Nat.zero_le 2
  | cons e es => exact Nat.le_of_eq (by rw [start_cons])

private theorem atSeparator_lines (es : List Entry) (i l : Nat) :
    Cursor.atSeparator ⟨lines es, i, l, 0⟩ = false := by
  cases es with
  | nil => rfl
  | cons e es => simp [Cursor.atSeparator, lines_cons]

end Entry

namespace Scanner

/-- The scan of one entry, from its name to where the next one begins. -/
theorem tokens_entry (e : Entry) (es : List Entry) {d : Int} (hd : d ≤ 2) (ts : List Token)
    (outer : List Int) (i l fuel : Nat) :
    ∃ j, tokens (fuel + 3)
        { cursor := Entry.start (e :: es) i l, tokens := ts, indent := d, outer := outer } =
      tokens fuel
        { cursor := Entry.start es j (l + 1)
          tokens := ts ++ (if d < 2 then [.blockMappingStart] else []) ++ e.tokens
          indent := 2
          outer := if d < 2 then d :: outer else outer } := by
  have hcolumn (j : Nat) : ((Entry.start es j (l + 1)).column : Int) ≤ 2 :=
    Int.ofNat_le.mpr (Entry.column_start_le es j (l + 1))
  have hinside : (2 : Int) ≤ (2 + e.name.length + 1 : Nat) := by omega
  refine ⟨i + 2 + e.name.length + 1 + 1 + e.text.length + 1, ?_⟩
  rw [Entry.start_cons]
  refine (tokens_name e.name_isWord e.name_short rfl hd (fuel + 1)).trans ?_
  refine (tokens_text e.text_isWord rfl (Entry.atSeparator_lines es _ _)
    (Entry.isBreak_peek_start es _ _) (hcolumn _) hinside fuel).trans ?_
  rw [List.append_assoc]
  rfl

/-- The end of the text ends all mappings. -/
theorem tokens_end (ts : List Token) (i l fuel : Nat) :
    tokens (fuel + 1)
        { cursor := ⟨[], i, l, 0⟩, tokens := ts, indent := 2, outer := [0, -1] } =
      .ok ()
        { cursor := ⟨[], i, l, 0⟩, tokens := ts ++ [.blockEnd] ++ [.blockEnd] ++ [.streamEnd] } :=
  rfl

/-- The scan of some entries up to the end of the text, which ends both mappings. -/
theorem tokens_entries (es : List Entry) (ts : List Token) (i l fuel : Nat) :
    ∃ s, tokens (fuel + 3 * es.length + 1)
        { cursor := Entry.start es i l, tokens := ts, indent := 2, outer := [0, -1] } = .ok () s ∧
      s.tokens = ts ++ es.flatMap Entry.tokens ++ [.blockEnd, .blockEnd, .streamEnd] := by
  -- The mapping is open already, so from one entry to the next only tokens and place change.
  induction es generalizing ts i l with
  | nil => exact ⟨_, tokens_end ts i l fuel, by simp⟩
  | cons e es ih =>
    obtain ⟨j, hstep⟩ := tokens_entry e es (Int.le_refl 2) ts [0, -1] i l (fuel + 3 * es.length + 1)
    obtain ⟨s, hrun, htokens⟩ := ih (ts ++ e.tokens) j (l + 1)
    have hfuel : fuel + 3 * (es.length + 1) + 1 = fuel + 3 * es.length + 1 + 3 := by omega
    refine ⟨s, ?_, ?_⟩
    · rw [List.length_cons, hfuel, hstep, ← hrun]
      simp
    · rw [htokens, List.flatMap_cons]
      simp

end Scanner

/-- A heading with entries under it, after a remark. -/
structure Sheet where
  remark : List Char
  heading : List Char
  entries : List Entry
  remark_printable : ∀ c ∈ remark, isPrintable c = true
  heading_isWord : IsWord heading
  heading_short : heading.length ≤ Scanner.longestKey
  entries_ne_nil : entries ≠ []

namespace Sheet

/-- The text of a sheet. -/
def text (sheet : Sheet) : List Char :=
  '#' :: sheet.remark ++ '\n' :: '\n' ::
    (sheet.heading ++ ':' :: '\n' :: Entry.lines sheet.entries)

/-- The tokens of a sheet. -/
def tokens (sheet : Sheet) : List Token :=
  [.blockMappingStart, .key, .scalar (String.ofList sheet.heading) true, .value,
    .blockMappingStart] ++ sheet.entries.flatMap Entry.tokens ++ [.blockEnd, .blockEnd, .streamEnd]

/-- A sheet holds printable characters only, but for the ends of its lines. -/
theorem isPrintable_or_eq_of_mem {sheet : Sheet} {c : Char} (h : c ∈ sheet.text) :
    isPrintable c = true ∨ c = '\n' := by
  have hword {w : List Char} (hw : IsWord w) (hc : c ∈ w) : isPrintable c = true :=
    isPrintable_of_isNameChar (hw.chars c hc)
  have hlines (es : List Entry) (hc : c ∈ Entry.lines es) : isPrintable c = true ∨ c = '\n' := by
    induction es with
    | nil => exact absurd hc List.not_mem_nil
    | cons e es ih =>
      simp only [Entry.lines_cons, List.mem_cons, List.mem_append] at hc
      rcases hc with rfl | rfl | hname | rfl | rfl | htext | rfl | hes
      · exact .inl rfl
      · exact .inl rfl
      · exact .inl (hword e.name_isWord hname)
      · exact .inl rfl
      · exact .inl rfl
      · exact .inl (hword e.text_isWord htext)
      · exact .inr rfl
      · exact ih hes
  simp only [text, List.cons_append, List.mem_cons, List.mem_append] at h
  rcases h with rfl | hremark | rfl | rfl | hheading | rfl | rfl | hes
  · exact .inl rfl
  · exact .inl (sheet.remark_printable c hremark)
  · exact .inr rfl
  · exact .inr rfl
  · exact .inl (hword sheet.heading_isWord hheading)
  · exact .inl rfl
  · exact .inr rfl
  · exact hlines sheet.entries hes

private theorem length_lines_ge (es : List Entry) : 3 * es.length ≤ (Entry.lines es).length := by
  induction es with
  | nil => exact Nat.le_refl 0
  | cons e es ih =>
    simp only [Entry.lines_cons, List.length_cons, List.length_append]
    omega

end Sheet

namespace Scanner

/-- The scan of a sheet up to its heading. -/
theorem tokens_remark (sheet : Sheet) (fuel : Nat) :
    tokens (fuel + 1) { cursor := ⟨sheet.text, 0, 0, 0⟩ } =
      tokens (fuel + 1)
        { cursor := ⟨sheet.heading ++ ':' :: '\n' :: Entry.lines sheet.entries,
            0 + (sheet.remark.length + 1) + 1 + 1, 2, 0⟩ } := by
  have hindent : (-1 : Int) ≤ (0 : Nat) := by decide
  have hsettled := settled_of_word (s :=
    { cursor := ⟨sheet.heading ++ ':' :: '\n' :: Entry.lines sheet.entries,
        0 + (sheet.remark.length + 1) + 1 + 1, 2, 0⟩ }) sheet.heading_isWord rfl rfl hindent
  refine tokens_of_toNextToken ?_ hsettled fuel
  obtain ⟨n, hn⟩ : ∃ n, sheet.text.length = n + 2 :=
    Nat.exists_eq_add_of_le' (by simp [Sheet.text]; omega)
  change toNextToken (sheet.text.length + 1) _ = _
  rw [hn, toNextToken_remark rfl sheet.remark_printable rfl, toNextToken_newline rfl rfl]
  exact toNextToken_of_settled hsettled n

/-- From the colon after the heading on the scan goes to the first entry. -/
theorem tokens_heading (e : Entry) (es : List Entry) (ts : List Token) (i l k fuel : Nat) :
    tokens (fuel + 1)
        { cursor := ⟨'\n' :: Entry.lines (e :: es), i, l, k⟩, tokens := ts, indent := 0,
          outer := [-1], keyAllowed := false } =
      tokens (fuel + 1)
        { cursor := Entry.start (e :: es) (i + 1) (l + 1), tokens := ts, indent := 0,
          outer := [-1] } := by
  have hsettled : Settled
      { cursor := Entry.start (e :: es) (i + 1) (l + 1), tokens := ts, indent := 0,
        outer := [-1] } := by
    rw [Entry.start_cons]
    exact settled_of_word e.name_isWord rfl rfl (by decide : (0 : Int) ≤ (2 : Nat))
  refine tokens_of_toNextToken ?_ hsettled fuel
  rw [toNextToken_newline rfl rfl]
  exact toNextToken_spaces (c := Entry.start (e :: es) (i + 1) (l + 1)) rfl hsettled.comment
    hsettled.newline (Entry.lines (e :: es)).length

/-- The scan of a sheet gives its tokens. -/
theorem tokens_sheet (sheet : Sheet) (fuel : Nat) :
    ∃ s, tokens (fuel + 3 * sheet.entries.length + 3) { cursor := ⟨sheet.text, 0, 0, 0⟩ } =
        .ok () s ∧ s.tokens = sheet.tokens := by
  obtain ⟨e, es, hes⟩ := List.exists_cons_of_ne_nil sheet.entries_ne_nil
  have hfuel : fuel + 3 * sheet.entries.length + 3 = fuel + 3 * es.length + 1 + 3 + 2 := by
    rw [hes, List.length_cons]
    omega
  have hindent : (-1 : Int) ≤ (0 : Nat) := by decide
  obtain ⟨j, hentry⟩ := tokens_entry e es (by decide : (0 : Int) ≤ 2)
    [.blockMappingStart, .key, .scalar (String.ofList sheet.heading) true, .value] [-1]
    (0 + (sheet.remark.length + 1) + 1 + 1 + sheet.heading.length + 1 + 1) 3
    (fuel + 3 * es.length + 1)
  obtain ⟨s, hrun, htokens⟩ := tokens_entries es
    ([.blockMappingStart, .key, .scalar (String.ofList sheet.heading) true, .value,
      .blockMappingStart] ++ e.tokens) j 4 fuel
  refine ⟨s, ?_, ?_⟩
  · rw [hfuel, tokens_remark, hes]
    refine (tokens_name sheet.heading_isWord sheet.heading_short rfl hindent _).trans ?_
    refine (tokens_heading e es _ _ 2 _ _).trans ?_
    exact hentry.trans hrun
  · rw [htokens, Sheet.tokens, hes, List.flatMap_cons]
    simp

end Scanner

namespace Token

private theorem unifyLineEnds_of_not_mem {cs : List Char} (h : '\r' ∉ cs) :
    unifyLineEnds cs = cs := by
  fun_induction unifyLineEnds cs with
  | case1 cs ih => simp at h
  | case2 cs hcs ih => simp at h
  | case3 c cs _ _ ih => rw [ih fun hc => h (List.mem_cons_of_mem c hc)]
  | case4 => rfl

/-- The scan of a sheet. -/
theorem scan_sheet (sheet : Sheet) : scan (String.ofList sheet.text) = .ok sheet.tokens := by
  have hchars : Token.unifyLineEnds (String.ofList sheet.text).toList = sheet.text := by
    rw [String.toList_ofList]
    apply unifyLineEnds_of_not_mem
    intro h
    cases Sheet.isPrintable_or_eq_of_mem h with
    | inl hp => exact absurd hp (by decide)
    | inr hn => exact absurd hn (by decide)
  have hallowed : sheet.text.all isAllowed = true := by
    rw [List.all_eq_true]
    intro c hc
    cases Sheet.isPrintable_or_eq_of_mem hc with
    | inl hp => exact isAllowed_of_isPrintable hp
    | inr hn => rw [hn]; rfl
  have hlength : 3 * sheet.entries.length + 1 ≤ sheet.text.length := by
    have := Sheet.length_lines_ge sheet.entries
    simp only [Sheet.text, List.length_append, List.length_cons]
    omega
  obtain ⟨fuel, hfuel⟩ := Nat.exists_eq_add_of_le' hlength
  obtain ⟨s, hrun, htokens⟩ := Scanner.tokens_sheet sheet fuel
  have hmark : (Cursor.peek { rest := sheet.text } == byteOrderMark) = false := rfl
  have hlen : sheet.text.length + 2 = fuel + 3 * sheet.entries.length + 3 := by omega
  simp only [scan, hchars, hallowed, hmark, hlen, Bool.not_true, Bool.false_eq_true, if_false,
    EStateM.run, hrun, htokens]

end Token

end Yaml

end BlockEquiv
