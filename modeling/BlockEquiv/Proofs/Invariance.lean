import BlockEquiv.Proofs.Exhaustion
import BlockEquiv.Proofs.Isomorphism
import BlockEquiv.Proofs.Lockstep
import BlockEquiv.Proofs.Renaming

/-!
# Independence of identities

What a comparison comes to does not depend on the identities of the values or on the serials by
which they are paired. Renamed snippets are encoded alike and can be told apart alike, so two runs
on renamed problems go side by side: they try the same synchronization points and end with the same
verdict or with errors of one class, and the pairings at the end are again renamed.
-/

namespace BlockEquiv

variable {ρ ψ : Nat → Nat → Prop}

/-! ### Reversed renamings -/

private theorem OneToOne.flip (h : OneToOne ρ) : OneToOne (flip ρ) := ⟨h.left, h.right⟩

private theorem Value.Renamed.flip {v v' : Value} (h : v.Renamed ρ v') : v'.Renamed (flip ρ) v := by
  cases h with
  | register ht h => exact .register ht.symm h
  | constant ht hp h => exact .constant ht.symm hp.symm h

private theorem PairRenamed.flip {q q' : Value × Value} (h : PairRenamed ρ q q') :
    PairRenamed (flip ρ) q' q := ⟨h.1.flip, h.2.flip⟩

private theorem Instruction.Renamed.flip {i j : Instruction} (h : i.Renamed ρ j) :
    j.Renamed (flip ρ) i where
  opcode := h.opcode.symm
  predicate := h.predicate.symm
  callee := h.callee.symm
  nsw := h.nsw.symm
  nuw := h.nuw.symm
  exact := h.exact.symm
  type := h.type.symm
  uid := h.uid
  operands := (h.operands.imp fun _ _ hv => hv.flip).flip

/-! ### Executions -/

section

variable {X : Type} (hρ : OneToOne ρ) (sym : Externals X) (e : Env X)

open Classical in
/-- The environment in which every register holds what the one it renames holds. -/
noncomputable def Env.along (ρ : Uid → Uid → Prop) (e : Env X) : Env X := fun u' =>
  if h : ∃ u, ρ u u' then e h.choose else e u'

include hρ

omit sym in
private theorem Env.along_of_renamed {u u' : Uid} (h : ρ u u') : e.along ρ u' = e u := by
  have hex : ∃ u, ρ u u' := ⟨u, h⟩
  unfold along
  rw [dif_pos hex, hρ.left hex.choose_spec h]

private theorem Value.Renamed.content_along {v v' : Value} (h : v.Renamed ρ v') :
    v'.content sym (e.along ρ) = v.content sym e := by
  cases h with
  | @register a b ht h =>
    change b.content (e.along ρ) = a.content e
    unfold Register.content
    rw [e.along_of_renamed hρ h, ht]
  | @constant c d ht hp h =>
    change d.content sym = c.content sym
    unfold Constant.content
    rw [ht, hp]

private theorem Instruction.Renamed.inputs_along {i j : Instruction} (h : i.Renamed ρ j) :
    j.inputs sym (e.along ρ) = i.inputs sym e := by
  have hmap {vs vs' : List Value} (hvs : List.Forall₂ (Value.Renamed ρ) vs vs') :
      vs'.map (Value.content sym (e.along ρ)) = vs.map (Value.content sym e) := by
    induction hvs with
    | nil => rfl
    | cons hv _ ih => rw [List.map_cons, List.map_cons, hv.content_along hρ, ih]
  exact hmap h.operands

private theorem Instruction.Renamed.obeys_along {R : Semantics X} {i j : Instruction}
    (h : i.Renamed ρ j) (hi : i.Obeys R sym e) : j.Obeys R sym (e.along ρ) := by
  have hsignature : i.signature = j.signature := by
    unfold Instruction.signature
    rw [h.opcode, h.type, h.predicate, h.callee, h.nsw, h.nuw, h.exact]
  -- The type of the result depends on the signature, so the signatures are exchanged first.
  have hany (o : Signature) (ho : i.signature = o) (hd : i.isDebugInfo = false) :
      R o (i.inputs sym e) (e i.uid o.type.shape) := by
    subst ho
    exact hi hd
  intro hd
  rw [h.inputs_along hρ, e.along_of_renamed hρ h.uid]
  exact hany j.signature hsignature (h.isDebugInfo.trans hd)

private theorem holds_along {R : Semantics X} {is js : List Instruction}
    (h : List.Forall₂ (Instruction.Renamed ρ) is js) (hi : Holds R sym is e) :
    Holds R sym js (e.along ρ) := by
  induction h with
  | nil => exact fun j hj => nomatch hj
  | cons hij _ ih =>
    obtain ⟨hi, his⟩ := holds_cons.mp hi
    exact holds_cons.mpr ⟨hij.obeys_along hρ sym e hi, ih his⟩

private theorem agrees_along {er : Env X} {q q' : Value × Value} (h : PairRenamed ρ q q') :
    Agrees sym (e.along ρ) (er.along ρ) q' ↔ Agrees sym e er q := by
  unfold Agrees
  rw [h.1.content_along hρ, h.2.content_along hρ]

end

section

variable {left left' right right' : List Instruction}
  {seeds seeds' outputs outputs' : List (Value × Value)}

/-- A member on the right has a related one on the left. -/
theorem exists_mem_left_of_forall₂ {α β : Type} {R : α → β → Prop} {xs : List α} {ys : List β}
    (h : List.Forall₂ R xs ys) {y : β} (hy : y ∈ ys) : ∃ x ∈ xs, R x y := by
  induction h with
  | nil => cases hy
  | cons hr _ ih =>
    obtain rfl | hy := List.mem_cons.mp hy
    · exact ⟨_, List.mem_cons_self .., hr⟩
    · obtain ⟨x, hx, hxy⟩ := ih hy
      exact ⟨x, List.mem_cons_of_mem _ hx, hxy⟩

private theorem Distinguishable.along (hρ : OneToOne ρ)
    (hl : List.Forall₂ (Instruction.Renamed ρ) left left')
    (hr : List.Forall₂ (Instruction.Renamed ρ) right right')
    (hs : List.Forall₂ (PairRenamed ρ) seeds seeds')
    (ho : List.Forall₂ (PairRenamed ρ) outputs outputs')
    (h : Distinguishable left right seeds outputs) :
    Distinguishable left' right' seeds' outputs' := by
  obtain ⟨sym, el, er, hseeds, hleft, hright, q, hq, hdiff⟩ := h
  refine ⟨sym, el.along ρ, er.along ρ, ?_, holds_along hρ sym el hl hleft,
    holds_along hρ sym er hr hright, ?_⟩
  · intro q' hq'
    obtain ⟨q, hq, hqq'⟩ := exists_mem_left_of_forall₂ hs hq'
    exact (agrees_along hρ sym el hqq').mpr (hseeds q hq)
  · obtain ⟨q', hq', hqq'⟩ := exists_mem_left_of_forall₂ (List.Forall₂.flip ho) hq
    exact ⟨q', hq', fun hagree => hdiff ((agrees_along hρ sym el hqq').mp hagree)⟩

/-- Renamed ranges can be told apart alike. -/
theorem distinguishable_iff_of_renamed (hρ : OneToOne ρ)
    (hl : List.Forall₂ (Instruction.Renamed ρ) left left')
    (hr : List.Forall₂ (Instruction.Renamed ρ) right right')
    (hs : List.Forall₂ (PairRenamed ρ) seeds seeds')
    (ho : List.Forall₂ (PairRenamed ρ) outputs outputs') :
    Distinguishable left right seeds outputs ↔ Distinguishable left' right' seeds' outputs' :=
  ⟨Distinguishable.along hρ hl hr hs ho,
    Distinguishable.along hρ.flip (hl.imp fun _ _ h => h.flip).flip
      (hr.imp fun _ _ h => h.flip).flip (hs.imp fun _ _ h => h.flip).flip
      (ho.imp fun _ _ h => h.flip).flip⟩

end

/-! ### Encodings -/

private theorem Value.Renamed.alike_term {v v' : Value} (h : v.Renamed ρ v') (side : String) :
    Alike Encode.SameFault AnyTerm.SameSort (v.term side) (v'.term side) := by
  cases h with
  | @register a b ht h =>
    change Alike _ _ (a.type.symbol _) (b.type.symbol _)
    unfold Ty.symbol
    rw [ht]
    cases b.type.sort? with
    | none => exact .error rfl
    | some s => exact .ok rfl
  | @constant c d ht hp h =>
    have hliteral : c.literal = d.literal := by
      unfold Constant.literal
      rw [ht, hp]
    change Alike _ _ c.literal d.literal
    rw [hliteral]
    exact Encode.alike_refl (Q := AnyTerm.SameSort) (fun _ => rfl) _

private theorem Instruction.Renamed.counterparts {i j : Instruction} (h : i.Renamed ρ j) :
    Encode.Counterparts i j where
  opcode := h.opcode
  predicate := h.predicate
  callee := h.callee
  type := h.type
  operands side := h.operands.imp fun _ _ hv => hv.alike_term side

/-- Two faults are of one class, or there is none in either place. -/
def FaultAlike (o o' : Option EncodeError) : Prop :=
  o.map EncodeError.errorClass = o'.map EncodeError.errorClass

private theorem Alike.faultAlike {α β : Type} {Q : α → β → Prop} {x : Encode α} {y : Encode β}
    (h : Alike Encode.SameFault Q x y) : FaultAlike x.fault? y.fault? := by
  cases h with
  | ok _ => rfl
  | error h => exact congrArg some h

private theorem faultAlike_findSome? {os os' : List (Option EncodeError)}
    (h : List.Forall₂ FaultAlike os os') : FaultAlike (os.findSome? id) (os'.findSome? id) := by
  induction h with
  | nil => rfl
  | @cons o o' os os' ho _ ih =>
    rw [Encoder.findSome?_id_cons, Encoder.findSome?_id_cons]
    cases o with
    | none =>
      cases o' with
      | none => exact ih
      | some e' => cases ho
    | some e =>
      cases o' with
      | none => cases ho
      | some e' => exact ho

/-! ### Submissions -/

section

variable {bl bl' br br' : Block Instruction} {m m' b b' : Mapping} (hρ : OneToOne ρ)
  (hψ : Increasing ψ) (hl : bl.Renamed ρ bl') (hr : br.Renamed ρ br') (hm : m.Renamed ρ ψ m')
  (hb : b.Renamed ρ ψ b') (sl sr l r : Int)

include hm hb

private theorem counterpart_renamed {v v' : Value} (h : v.Renamed ρ v') :
    Option.Rel (PairRenamed ρ) (counterpart b.left m.pairs v)
      (counterpart b'.left m'.pairs v') := by
  have hserial := hb.left.lookup h.uid
  unfold counterpart
  generalize b.left[v.uid]? = o at hserial ⊢
  generalize b'.left[v'.uid]? = o' at hserial ⊢
  cases hserial with
  | none => exact .none
  | some hsn => exact hm.pairs.lookup hsn

private theorem seedPairs_renamed {is js : List Instruction}
    (h : List.Forall₂ (Instruction.Renamed ρ) is js) :
    List.Forall₂ (PairRenamed ρ) (seedPairs b.left m.pairs is) (seedPairs b'.left m'.pairs js) :=
  List.rel_flatMap h fun _ _ hij =>
    List.rel_filterMap (fun _ _ hv => counterpart_renamed hm hb hv) hij.operands

omit hm hb in
include hρ hl in
private theorem produces_renamed {v v' : Value} (h : v.Renamed ρ v') :
    (⟨bl, sl, l⟩ : Snippet Instruction).produces v =
      (⟨bl', sl, l⟩ : Snippet Instruction).produces v' := by
  have hresults : List.Forall₂ (Instruction.Renamed ρ) (⟨bl, sl, l⟩ : Snippet Instruction).results
      (⟨bl', sl, l⟩ : Snippet Instruction).results := by
    refine List.rel_filter ?_ (hl.slice sl l)
    intro x y hxy
    simp [hxy.isDebugInfo, hxy.hasResult]
  have hany {is js : List Instruction} (hij : List.Forall₂ (Instruction.Renamed ρ) is js) :
      (is.any fun i => i.uid == v.uid) = js.any fun i => i.uid == v'.uid := by
    induction hij with
    | nil => rfl
    | @cons x y _ _ hx _ ih =>
      have huid : (x.uid == v.uid) = (y.uid == v'.uid) :=
        Bool.eq_iff_iff.mpr (by simpa using hρ.eq_iff hx.uid h.uid)
      rw [List.any_cons, List.any_cons, huid, ih]
  exact hany hresults

omit hb in
include hρ hψ hl hr in
private theorem outputPairs_renamed : List.Forall₂ (PairRenamed ρ)
    (outputPairs ⟨bl, sl, l⟩ ⟨br, sr, r⟩ m.pairs)
    (outputPairs ⟨bl', sl, l⟩ ⟨br', sr, r⟩ m'.pairs) := by
  refine List.rel_filter ?_ (List.rel_map (fun _ _ h => h.2) (hm.pairs.toList hψ))
  intro q q' hq
  simp only [produces_renamed hρ hl sl l hq.1, produces_renamed hρ hr sr r hq.2]

include hρ hψ hl hr in
private theorem obstacle?_renamed : FaultAlike
    (Encoder.obstacle? ⟨bl, sl, l⟩ ⟨br, sr, r⟩ b.left m.pairs)
    (Encoder.obstacle? ⟨bl', sl, l⟩ ⟨br', sr, r⟩ b'.left m'.pairs) := by
  have hside (side : String) (i j : Instruction) (hij : i.Renamed ρ j) :
      FaultAlike (Encode.instruction side i).fault? (Encode.instruction side j).fault? :=
    (Encode.alike_instruction hij.counterparts (hij.value.alike_term side)).faultAlike
  have hseed (q q' : Value × Value) (hq : PairRenamed ρ q q') :
      FaultAlike (Encoder.seed q.1 q.2).fault? (Encoder.seed q'.1 q'.2).fault? :=
    ((hq.1.alike_term leftSide).bind fun _ _ h₁ => (hq.2.alike_term rightSide).bind fun _ _ h₂ =>
      Encode.alike_sorted (AnyTerm.alike_equal h₁ h₂)).faultAlike
  have hdifference (q q' : Value × Value) (hq : PairRenamed ρ q q') :
      FaultAlike (Encoder.difference q).fault? (Encoder.difference q').fault? :=
    ((hq.1.alike_term leftSide).bind fun _ _ h₁ => (hq.2.alike_term rightSide).bind fun _ _ h₂ =>
      Encode.alike_sorted (AnyTerm.alike_differ h₁ h₂)).faultAlike
  refine faultAlike_findSome? (List.rel_append (List.rel_append ?_ ?_) ?_)
  · refine List.rel_flatMap (hl.slice sl l) fun i j hij => ?_
    refine List.rel_append (List.rel_map hseed ?_) (.cons (hside leftSide i j hij) .nil)
    exact List.rel_filterMap (fun _ _ hv => counterpart_renamed hm hb hv) hij.operands
  · exact List.rel_map (hside rightSide) (hr.slice sr r)
  · exact List.rel_map hdifference (outputPairs_renamed hρ hψ hl hr hm sl sr l r)

include hρ hψ hl hr in
/-- Renamed submissions come to the same. -/
theorem Ruling.sameClass_of_renamed {s s' : Surroundings} (hs : s.Concur s') {n n' : Nat}
    {x x' : Except CompareError Verdict}
    (h : Ruling s ⟨bl, sl, l⟩ ⟨br, sr, r⟩ b.left m.pairs n x)
    (h' : Ruling s' ⟨bl', sl, l⟩ ⟨br', sr, r⟩ b'.left m'.pairs n' x') : SameClass x x' := by
  have houtputs := outputPairs_renamed hρ hψ hl hr hm sl sr l r
  have hnil : outputPairs ⟨bl, sl, l⟩ ⟨br, sr, r⟩ m.pairs = [] ↔
      outputPairs ⟨bl', sl, l⟩ ⟨br', sr, r⟩ m'.pairs = [] := by
    rw [← List.length_eq_zero_iff, houtputs.length_eq, List.length_eq_zero_iff]
  refine h.sameClass h' hs ?_ (fun _ => obstacle?_renamed hρ hψ hl hr hm hb sl sr l r) ?_
  · unfold Vacuous
    rw [hnil]
    rfl
  · intro _ _
    exact distinguishable_iff_of_renamed hρ (hl.slice sl l) (hr.slice sr r)
      (seedPairs_renamed hm hb (hl.slice sl l)) houtputs

end

/-! ### Two runs -/

/-- The event tells of a position that is tried. -/
def Event.isTrial : Event → Bool
  | .walk _ _ _ | .synchronized _ _ | .noSyncPoint _ _ | .retrying _ _
  | .candidatesExhausted => true
  | _ => false

namespace Ledger

/-- The positions that have been tried, the latest first. -/
def trials (n : Ledger) : List Event := n.history.filter Event.isTrial

/-- Since the first two ledgers, the same positions have been tried in both runs. -/
def SameTrials (n₀ n₀' n n' : Ledger) : Prop :=
  ∃ ts, n.trials = ts ++ n₀.trials ∧ n'.trials = ts ++ n₀'.trials

/-- Besides, time is not limited in either run. -/
structure Parallel (n₀ n₀' n n' : Ledger) : Prop where
  unlimited : n.budget.limited = false
  unlimited' : n'.budget.limited = false
  trials : SameTrials n₀ n₀' n n'

variable {n₀ n₀' n n' t t' : Ledger}

private theorem SameTrials.refl (n n' : Ledger) : SameTrials n n' n n' := ⟨[], rfl, rfl⟩

/-- An event that both runs report is a trial of both or of none. -/
theorem SameTrials.cons (h : SameTrials n₀ n₀' n n') {ev ev' : Event}
    (hev : ev = ev' ∨ ev.isTrial = false ∧ ev'.isTrial = false)
    (ht : t.history = ev :: n.history) (ht' : t'.history = ev' :: n'.history) :
    SameTrials n₀ n₀' t t' := by
  obtain ⟨ts, hn, hn'⟩ := h
  unfold SameTrials Ledger.trials at *
  rw [ht, ht', List.filter_cons, List.filter_cons, hn, hn']
  rcases hev with rfl | ⟨hev, hev'⟩
  · split
    · exact ⟨ev :: ts, rfl, rfl⟩
    · exact ⟨ts, rfl, rfl⟩
  · rw [hev, hev']
    exact ⟨ts, rfl, rfl⟩

private theorem Consults.trials_eq (h : n.Consults t) : t.trials = n.trials := by
  obtain ⟨evs, he, hevs⟩ := h.history
  have hnone : evs.filter Event.isTrial = [] := by
    refine List.filter_eq_nil_iff.mpr fun ev hev => ?_
    have := hevs ev hev
    cases ev <;> first | exact Bool.false_ne_true | cases this
  rw [Ledger.trials, he, List.filter_append, hnone, List.nil_append, Ledger.trials]

private theorem Parallel.consults (h : Parallel n₀ n₀' n n') (ht : n.Consults t)
    (ht' : n'.Consults t') : Parallel n₀ n₀' t t' where
  unlimited := by rw [ht.budget h.unlimited, h.unlimited]
  unlimited' := by rw [ht'.budget h.unlimited', h.unlimited']
  trials := by
    obtain ⟨ts, hn, hn'⟩ := h.trials
    exact ⟨ts, ht.trials_eq.trans hn, ht'.trials_eq.trans hn'⟩

end Ledger

/-- Two errors have one class. -/
def CompareError.SameClass (e e' : CompareError) : Prop := e.errorClass = e'.errorClass

private theorem SameClass.abreast {S T : Type} {L : S → T → Prop}
    {x : EStateM.Result CompareError S Verdict} {y : EStateM.Result CompareError T Verdict}
    (h : SameClass (outcome x) (outcome y)) (hL : L (endState x) (endState y)) :
    Abreast (fun v v' t t' => v = v' ∧ L t t') (fun e e' t t' => e.SameClass e' ∧ L t t') uncut x
      y := by
  cases x with
  | ok v t =>
    cases y with
    | ok v' t' =>
      cases h
      exact ⟨rfl, hL⟩
    | error e' t' => cases h
  | error e t =>
    cases y with
    | ok v' t' => cases h
    | error e' t' =>
      cases h with
      | error h => exact .inl ⟨h, hL⟩

namespace Structural

variable {bl bl' br br' : Block Instruction} {s s' : Surroundings} {c : Settings}
  (hρ : OneToOne ρ) (hψ : Increasing ψ) (hl : bl.Renamed ρ bl') (hr : br.Renamed ρ br')
  (hskip : ∀ x, c.skip x = false) (hs : s.Concur s') (ht : s.Timed) (ht' : s'.Timed)

include hρ hψ hl hr hskip

private theorem walk_renamed (l r : Int) {p p' : Pairing} (hp : p.Renamed ρ ψ p') :
    Abreast (fun v v' q q' => v = v' ∧ q.Renamed ρ ψ q')
      (fun e e' q q' => e.SameClass e' ∧ q.Renamed ρ ψ q') uncut (walk c.skip bl br l r p)
      (walk c.skip bl' br' l r p') := by
  unfold walk Block.start
  by_cases hl' : l < 0
  · simp only [if_pos hl']
    exact .inl ⟨rfl, hp⟩
  · by_cases hr' : r < 0
    · simp only [if_neg hl', if_pos hr']
      exact .inl ⟨rfl, hp⟩
    · simp only [if_neg hl', if_neg hr']
      exact Pairing.compareAll_renamed hρ hψ.oneToOne hp (hl.significant hskip l.toNat)
        (hr.significant hskip r.toNat)

private theorem twins_renamed (n₀ n₀' : Ledger) :
    Outer.Twins (outer c.skip) (outer c.skip) bl br bl' br' (Mapping.Renamed ρ ψ)
      (Serials.Ahead ψ) (Ledger.Parallel n₀ n₀') CompareError.SameClass where
  sizeLeft := hl.size
  sizeRight := hr.size
  ignoresLeft t t' i _ _ := by
    have hrel := hl.get? i
    generalize bl.get? i = o at hrel ⊢
    generalize bl'.get? i = o' at hrel ⊢
    cases hrel with
    | none => rfl
    | some h => simp [Outer.ignores, outer, hskip, h.isDebugInfo]
  ignoresRight t t' i _ _ := by
    have hrel := hr.get? i
    generalize br.get? i = o at hrel ⊢
    generalize br'.get? i = o' at hrel ⊢
    cases hrel with
    | none => rfl
    | some h => simp [Outer.ignores, outer, hskip, h.isDebugInfo]
  walk l r t t' hm hk := by
    refine (walk_renamed hρ hψ hl hr hskip l r ⟨hm, hk⟩).mono ?_ ?_
    · exact fun _ _ _ _ h => ⟨h.1, h.2.mapping, h.2.next⟩
    · exact fun _ _ _ _ h => ⟨h.1, h.2.next⟩
  report ev n n' _ hn := ⟨hn.unlimited, hn.unlimited', hn.trials.cons (.inl rfl) rfl rfl⟩
  noSuchPlace := rfl

include hs ht ht'

private theorem companions_renamed (n₀ n₀' : Ledger) :
    Outer.Companions s s' (outer c.skip) (outer c.skip) bl br bl' br' (Mapping.Renamed ρ ψ)
      (Serials.Ahead ψ) (Ledger.Parallel n₀ n₀') CompareError.SameClass uncut where
  toTwins := twins_renamed hρ hψ hl hr hskip n₀ n₀'
  submit sl sr l r b b' m m' n n' hb hm hn := by
    refine SameClass.abreast ?_ ?_
    · exact (Accounted.compareSnippets_ruling ht hn.unlimited).sameClass_of_renamed hρ hψ hl hr hm
        hb sl sr l r hs (Accounted.compareSnippets_ruling ht' hn.unlimited')
    · exact hn.consults ((Accounted.consulting_compareSnippets s _ _ _ _).endState n)
        ((Accounted.consulting_compareSnippets s' _ _ _ _).endState n')
  continues _ _ _ _ h _ := h
  noSync _ _ := rfl
  stuck := rfl

variable {n₀ n₀' : Ledger}

omit hρ hψ hl hr hskip hs ht ht' in
/-- Two worlds of renamed problems, in which the same positions have been tried. -/
structure Renamed (ρ ψ : Nat → Nat → Prop) (n₀ n₀' : Ledger) (w w' : World Serials) : Prop where
  outer : Pairing.Renamed ρ ψ w.outer w'.outer
  trials : Ledger.SameTrials n₀ n₀' w.ledger w'.ledger

private theorem compareDiverging_renamed {b : Budget} (hb : Budget.ofSeconds c.seconds = .ok b)
    (hunlimited : b.limited = false) {w w' : World Serials}
    (hw : Pairing.RenamedLast ρ ψ w.outer w'.outer)
    (htrials : Ledger.SameTrials n₀ n₀' w.ledger w'.ledger) (hl' : w.left = w'.left)
    (hr' : w.right = w'.right) :
    Abreast
      (fun v v' u u' => v = v' ∧ Renamed ρ ψ n₀ n₀' u u' ∧ u.left = u'.left ∧ u.right = u'.right)
      (fun e e' u u' => e.SameClass e' ∧ Renamed ρ ψ n₀ n₀' u u') uncut
      ((outer c.skip).compareDiverging s c.seconds bl br w)
      ((outer c.skip).compareDiverging s' c.seconds bl' br' w') := by
  have hundo : (Pairing.undo w.outer).Renamed ρ ψ (Pairing.undo w'.outer) := hw.undo hρ hψ.oneToOne
  have hdiverging : Abreast _ _ _ ((outer c.skip).compareDiverging s c.seconds bl br w)
      ((outer c.skip).compareDiverging s' c.seconds bl' br' w') :=
    (companions_renamed hρ hψ hl hr hskip hs ht ht' n₀ n₀').compareDiverging hb hb
      ⟨hundo.mapping, hundo.next⟩ hl' hr'
      ⟨hunlimited, hunlimited, htrials.cons (.inr ⟨rfl, rfl⟩) rfl rfl⟩
  refine hdiverging.mono ?_ ?_
  · rintro v v' u u' ⟨rfl, hu, hm, hm'⟩
    refine ⟨rfl, ⟨⟨?_, hu.own⟩, hu.ledger.trials⟩, hu.left, hu.right⟩
    rw [hm, hm']
    exact hw.mapping
  · rintro e e' u u' ⟨⟨he, hu⟩, hm, hm'⟩
    refine ⟨he, ⟨?_, hu.own⟩, hu.ledger.trials⟩
    rw [hm, hm']
    exact hw.mapping

private theorem compareLoop_renamed {b : Budget} (hb : Budget.ofSeconds c.seconds = .ok b)
    (hunlimited : b.limited = false) (fuel i j : Nat) {w w' : World Serials}
    (hw : Renamed ρ ψ n₀ n₀' w w') :
    Abreast (fun v v' u u' => v = v' ∧ Renamed ρ ψ n₀ n₀' u u')
      (fun e e' u u' => e.SameClass e' ∧ Renamed ρ ψ n₀ n₀' u u') uncut
      (compareLoop c s bl br fuel i j w) (compareLoop c s' bl' br' fuel i j w') := by
  induction fuel generalizing i j w w' with
  | zero => exact .inl ⟨rfl, hw⟩
  | succ fuel ih =>
    have hnil {b b' : Block Instruction} (h : b.Renamed ρ b') {k : Nat}
        (hk : b.significant c.skip k = []) : b'.significant c.skip k = [] := by
      have hrel := h.significant hskip k
      rw [hk] at hrel
      exact List.forall₂_nil_left_iff.mp hrel
    rcases Block.significant_cases c.skip bl i with hi | ⟨k, x, hx⟩ <;>
      rcases Block.significant_cases c.skip br j with hj | ⟨n, y, hy⟩
    · rw [compareLoop_of_ended hi hj, compareLoop_of_ended (hnil hl hi) (hnil hr hj)]
      exact ⟨rfl, hw⟩
    · obtain ⟨y', hy', -⟩ := hr.meets hskip hy
      rw [compareLoop_of_uneven (by simp [hi, hy.significant]),
        compareLoop_of_uneven (by simp [hnil hl hi, hy'.significant])]
      exact ⟨rfl, hw⟩
    · obtain ⟨x', hx', -⟩ := hl.meets hskip hx
      rw [compareLoop_of_uneven (by simp [hj, hx.significant]),
        compareLoop_of_uneven (by simp [hnil hr hj, hx'.significant])]
      exact ⟨rfl, hw⟩
    · obtain ⟨x', hx', hxx'⟩ := hl.meets hskip hx
      obtain ⟨y', hy', hyy'⟩ := hr.meets hskip hy
      obtain ⟨v, q, q', he, he', hq⟩ :=
        (Pairing.compared_instructions hρ hψ.oneToOne hw.outer hxx' hyy').cases
      cases v with
      | equal =>
        rw [compareLoop_of_agree hx hy he, compareLoop_of_agree hx' hy' he']
        exact ih _ _ ⟨hq.toRenamed, hw.trials⟩
      | different =>
        rw [compareLoop_of_differ hx hy he, compareLoop_of_differ hx' hy' he']
        have hdiverging : Abreast _ _ _
            ((outer c.skip).compareDiverging s c.seconds bl br (mismatched w k n x y q))
            ((outer c.skip).compareDiverging s' c.seconds bl' br' (mismatched w' k n x' y' q')) :=
          compareDiverging_renamed hρ hψ hl hr hskip hs ht ht' hb hunlimited hq
            (hw.trials.cons (.inr ⟨rfl, rfl⟩) rfl rfl) rfl rfl
        refine Abreast.bind_uncut hdiverging ?_
        rintro v _ u u' ⟨rfl, hu, hl', hr'⟩
        cases v with
        | different => exact ⟨rfl, hu⟩
        | equal =>
          change Abreast _ _ _ (compareLoop c s bl br fuel (u.left + 1).toNat (u.right + 1).toNat u)
            (compareLoop c s' bl' br' fuel (u'.left + 1).toNat (u'.right + 1).toNat u')
          rw [← hl', ← hr']
          exact ih _ _ hu

private theorem compareFrom_abreast {b : Budget} (hb : Budget.ofSeconds c.seconds = .ok b)
    (hunlimited : b.limited = false) (l r : Int) (noSolver : Bool) {w w' : World Serials}
    (hw : Pairing.Renamed ρ ψ w.outer w'.outer) :
    Abreast (fun v v' u u' => v = v' ∧ Renamed ρ ψ w.ledger w'.ledger u u')
      (fun e e' u u' => e.SameClass e' ∧ Renamed ρ ψ w.ledger w'.ledger u u') uncut
      (compareFrom c s bl br l r noSolver w) (compareFrom c s' bl' br' l r noSolver w') := by
  have hstart : Renamed ρ ψ w.ledger w'.ledger
      { w with ledger := { w.ledger with history := .walk l r noSolver :: w.ledger.history } }
      { w' with ledger := { w'.ledger with history := .walk l r noSolver :: w'.ledger.history } } :=
    ⟨hw, (Ledger.SameTrials.refl _ _).cons (.inl rfl) rfl rfl⟩
  unfold compareFrom
  simp only [run_bind, Act.report_eq]
  by_cases hn : (noSolver || !c.solverEnabled) = true
  · simp only [if_pos hn]
    refine (Act.outer_abreast (walk_renamed hρ hψ hl hr hskip l r hstart.outer)).mono ?_ ?_
    · rintro v _ _ _ ⟨q, q', ⟨rfl, hq⟩, rfl, rfl⟩
      exact ⟨rfl, hq, hstart.trials⟩
    · rintro e e' _ _ ⟨q, q', ⟨he, hq⟩, rfl, rfl⟩
      exact ⟨he, hq, hstart.trials⟩
  · simp only [if_neg hn, Block.start]
    by_cases hl' : l < 0
    · simp only [if_pos hl']
      exact .inl ⟨rfl, hstart⟩
    · by_cases hr' : r < 0
      · simp only [if_neg hl', if_pos hr']
        exact .inl ⟨rfl, hstart⟩
      · simp only [if_neg hl', if_neg hr', hl.size]
        exact compareLoop_renamed hρ hψ hl hr hskip hs ht ht' hb hunlimited _ _ _ hstart

end Structural

/-- The relation of serials, and of those that both sides have yet to give out in their order. -/
def Serials.onward (ψ : Serial → Serial → Prop) (t t' : Serials) (a a' : Serial) : Prop :=
  ψ a a' ∨ ∃ k, a = t.next + k ∧ a' = t'.next + k

section

variable {t t' : Serials} (hbelow : ∀ a a', ψ a a' → a < t.next ∧ a' < t'.next)

include hbelow

private theorem Serials.increasing_onward (hψ : Increasing ψ) :
    Increasing (Serials.onward ψ t t') := by
  rintro a a' b b' (ha | ⟨k, rfl, rfl⟩) (hb | ⟨n, rfl, rfl⟩)
  · exact hψ ha hb
  · have := hbelow a a' ha
    omega
  · have := hbelow b b' hb
    omega
  · omega

/-- A correspondence that uses no serial yet to come is renamed along the longer relation. -/
theorem Mapping.Renamed.onward {m m' : Mapping} (hm : m.Renamed ρ ψ m') :
    m.Renamed ρ (Serials.onward ψ t t') m' where
  left := hm.left.mono (fun _ _ h _ => h) (fun _ _ h => h) fun _ _ => .inl
  right := hm.right.mono (fun _ _ h _ => h) (fun _ _ h => h) fun _ _ => .inl
  pairs := by
    refine hm.pairs.mono ?_ (fun _ _ => .inl) fun _ _ h => h
    rintro a a' (h | ⟨k, rfl, rfl⟩) hmem
    · exact h
    · exfalso
      rcases hmem with hmem | hmem
      · obtain ⟨b', hb⟩ := hm.pairs.left _ hmem
        have := hbelow _ _ hb
        omega
      · obtain ⟨b, hb⟩ := hm.pairs.right _ hmem
        have := hbelow _ _ hb
        omega
  inline := hm.inline

end

/-- Two problems that differ only in identities and serials, with counters beyond those in use, are
compared alike: the verdict or the class of the error is the same, the same positions are tried, and
the correspondences at the end are renamed along a longer relation of serials. -/
theorem Structural.compareFrom_renamed {bl bl' br br' : Block Instruction} {s s' : Surroundings}
    {c : Settings} {b : Budget} {w w' : World Serials} (hρ : OneToOne ρ) (hψ : Increasing ψ)
    (hl : bl.Renamed ρ bl') (hr : br.Renamed ρ br')
    (hm : w.outer.mapping.Renamed ρ ψ w'.outer.mapping)
    (hbelow : ∀ a a', ψ a a' → a < w.outer.own.next ∧ a' < w'.outer.own.next)
    (hskip : ∀ x, c.skip x = false) (hb : Budget.ofSeconds c.seconds = .ok b)
    (hunlimited : b.limited = false) (hs : s.Concur s') (ht : s.Timed) (ht' : s'.Timed)
    (l r : Int) (noSolver : Bool) :
    SameClass (outcome (compareFrom c s bl br l r noSolver w))
        (outcome (compareFrom c s' bl' br' l r noSolver w')) ∧
      Ledger.SameTrials w.ledger w'.ledger (endState (compareFrom c s bl br l r noSolver w)).ledger
        (endState (compareFrom c s' bl' br' l r noSolver w')).ledger ∧
      ∃ ψ', Increasing ψ' ∧ (∀ a a', ψ a a' → ψ' a a') ∧
        (endState (compareFrom c s bl br l r noSolver w)).outer.mapping.Renamed ρ ψ'
          (endState (compareFrom c s' bl' br' l r noSolver w')).outer.mapping := by
  have hψ' := Serials.increasing_onward hbelow hψ
  have hw : Pairing.Renamed ρ (Serials.onward ψ w.outer.own w'.outer.own) w.outer w'.outer :=
    ⟨hm.onward hbelow, fun k => .inr ⟨k, rfl, rfl⟩⟩
  obtain ⟨v, _, u, u', hx, hy, rfl, hu⟩ | ⟨e, e', u, u', hx, hy, he, hu⟩ | ⟨e, u, hx, hcut⟩ :=
    (compareFrom_abreast hρ hψ' hl hr hskip hs ht ht' hb hunlimited l r noSolver hw).cases
  · rw [hx, hy]
    exact ⟨.verdict v, hu.trials, _, hψ', fun _ _ => .inl, hu.outer.mapping⟩
  · rw [hx, hy]
    exact ⟨.error he, hu.trials, _, hψ', fun _ _ => .inl, hu.outer.mapping⟩
  · exact hcut.elim

namespace Sample

/-- The sum again, with identities in the opposite order. -/
def summedBackwards : Block Instruction := ⟨"summed backwards", [sum 20 18, ret 18 16]⟩

/-- The shift again, with identities in the opposite order. -/
def shiftedBackwards : Block Instruction where
  name := "shifted backwards"
  entries :=
    [{ opcode := .shl
       operands := [.register (byte 19), .constant ⟨11, (byte 19).type, .int 1⟩]
       result := byte 17 }, ret 17 15]

/-- A comparison in which the arguments correspond by the serial five, and in which eight is the
next one. -/
def pairedLater : World Serials :=
  { fresh with
    outer :=
      { mapping := Mapping.link {} 5 (.register (byte 20)) (.register (byte 19))
        own := { next := 8 } } }

/-- Two identities stand at the same place, counted from opposite ends. -/
def opposite (u u' : Uid) : Prop := u + u' = 20

private theorem opposite_oneToOne : OneToOne opposite where
  right {a b c} (hb : a + b = 20) (hc : a + c = 20) := Nat.add_left_cancel (hb.trans hc.symm)
  left {a b c} (ha : a + c = 20) (hb : b + c = 20) := Nat.add_right_cancel (ha.trans hb.symm)

private theorem summed_backwards : summed.Renamed opposite summedBackwards :=
  .cons ⟨rfl, rfl, rfl, rfl, rfl, rfl, rfl, rfl, .cons (.register rfl rfl)
      (.cons (.register rfl rfl) .nil)⟩
    (.cons ⟨rfl, rfl, rfl, rfl, rfl, rfl, rfl, rfl, .cons (.register rfl rfl) .nil⟩ .nil)

private theorem shifted_backwards : shifted.Renamed opposite shiftedBackwards :=
  .cons ⟨rfl, rfl, rfl, rfl, rfl, rfl, rfl, rfl, .cons (.register rfl rfl)
      (.cons (.constant rfl rfl rfl) .nil)⟩
    (.cons ⟨rfl, rfl, rfl, rfl, rfl, rfl, rfl, rfl, .cons (.register rfl rfl) .nil⟩ .nil)

/-- The sum and the shift are proven equal after the same trials if the identities of their values
are taken in the opposite order. -/
theorem doubling_renamed :
    agreesByAsking (Structural.compareFrom {} refuting summed shifted 0 0 false paired) = true ∧
    SameClass (outcome (Structural.compareFrom {} refuting summed shifted 0 0 false paired))
      (outcome (Structural.compareFrom {} refuting summedBackwards shiftedBackwards 0 0 false
        pairedLater)) ∧
    Ledger.SameTrials paired.ledger pairedLater.ledger
      (endState (Structural.compareFrom {} refuting summed shifted 0 0 false paired)).ledger
      (endState (Structural.compareFrom {} refuting summedBackwards shiftedBackwards 0 0 false
        pairedLater)).ledger := by
  have hrun : agreesByAsking (Structural.compareFrom {} refuting summed shifted 0 0 false paired) =
      true := by decide +kernel
  obtain ⟨b, hb⟩ := noLimit_ok
  have hunlimited : b.limited = false := by
    rw [Budget.limited, Budget.initial_of_ofSeconds hb]
    rfl
  have hψ : Increasing fun a a' => a = 0 ∧ a' = 5 := by
    rintro _ _ _ _ ⟨rfl, rfl⟩ ⟨rfl, rfl⟩
    decide
  have hm : paired.outer.mapping.Renamed opposite (fun a a' => a = 0 ∧ a' = 5)
      pairedLater.outer.mapping :=
    Mapping.renamed_empty.link opposite_oneToOne hψ.oneToOne ⟨rfl, rfl⟩ (.register rfl rfl)
      (.register rfl rfl)
  have htimed : refuting.Timed := fun _ _ => ⟨_, rfl⟩
  obtain ⟨hclass, htrials, -⟩ := Structural.compareFrom_renamed (c := {}) opposite_oneToOne hψ
    summed_backwards shifted_backwards hm (by rintro _ _ ⟨rfl, rfl⟩; decide) (fun _ => rfl) hb
    hunlimited (fun _ _ _ _ _ => rfl) htimed htimed 0 0 false
  exact ⟨hrun, hclass, htrials⟩

end Sample

end BlockEquiv
