import BlockEquiv.Config
import BlockEquiv.Proofs.Scanning
import Mathlib.Data.List.Forall2

/-!
# Settings that are written and read back

Settings are written as a sheet. Its tokens make up a mapping of the heading to the mapping of the
entries, and the values of the words in it are the settings again.
-/

namespace BlockEquiv

namespace Yaml

namespace Node

/-- The node of a plain scalar. -/
def plain (text : String) : Node := .scalar (Tag.ofPlain text) text

namespace Reader

variable {ts : List Token} {anchors : List (String × Node)} {handles : List (String × String)}
  {s t : State}

/-! ### Reading tokens -/

private theorem nodeUnless_scalar (text : String) (block dashes : Bool) (fuel : Nat) :
    nodeUnless [.key, .value, .blockEnd] (fuel + 2) block dashes
        ⟨.scalar text true :: ts, anchors, handles⟩ =
      .ok (plain text) ⟨ts, anchors, handles⟩ := rfl

private theorem nodeUnless_mapping (dashes : Bool) (fuel : Nat) :
    nodeUnless [.key, .value, .blockEnd] (fuel + 1) true dashes
        ⟨.blockMappingStart :: ts, anchors, handles⟩ =
      node fuel true dashes ⟨.blockMappingStart :: ts, anchors, handles⟩ := rfl

private theorem blockEntries_nil (fuel : Nat) :
    blockEntries (fuel + 1) ⟨.blockEnd :: ts, anchors, handles⟩ =
      .ok [] ⟨ts, anchors, handles⟩ := rfl

/-- An entry with a plain name, and the entries after it. -/
theorem blockEntries_cons {v : Node} {es : List (Node × Node)} {fuel : Nat} (name : String)
    (hv : nodeUnless [.key, .value, .blockEnd] (fuel + 2) true true ⟨ts, anchors, handles⟩ =
      .ok v s)
    (hes : blockEntries (fuel + 2) s = .ok es t) :
    blockEntries (fuel + 3) ⟨.key :: .scalar name true :: .value :: ts, anchors, handles⟩ =
      .ok ((plain name, v) :: es) t := by
  have hstep : blockEntries (fuel + 3)
        ⟨.key :: .scalar name true :: .value :: ts, anchors, handles⟩ =
      (do
        let v ← nodeUnless [.key, .value, .blockEnd] (fuel + 2) true true
        return (plain name, v) :: (← blockEntries (fuel + 2))) ⟨ts, anchors, handles⟩ := rfl
  simp only [hstep, run_bind, hv, hes]
  rfl

private theorem node_mapping {es : List (Node × Node)} {fuel : Nat} (dashes : Bool)
    (h : blockEntries fuel ⟨ts, anchors, handles⟩ = .ok es s) :
    node (fuel + 1) true dashes ⟨.blockMappingStart :: ts, anchors, handles⟩ =
      .ok (.mapping (Tag.named "map") es) s := by
  have hstep : node (fuel + 1) true dashes ⟨.blockMappingStart :: ts, anchors, handles⟩ =
      (do return Node.mapping (Tag.named "map") (← blockEntries fuel)) ⟨ts, anchors, handles⟩ := rfl
  simp only [hstep, run_bind, h]
  rfl

end Reader

end Node

/-! ### The nodes of a sheet -/

/-- The nodes of an entry. -/
def Entry.nodes (e : Entry) : Node × Node :=
  (.plain (String.ofList e.name), .plain (String.ofList e.text))

/-- The node of a sheet. -/
def Sheet.node (sheet : Sheet) : Node :=
  .mapping (Tag.named "map") [(.plain (String.ofList sheet.heading),
    .mapping (Tag.named "map") (sheet.entries.map Entry.nodes))]

namespace Node

namespace Reader

private theorem blockEntries_entries (es : List Entry) (ts : List Token)
    (anchors : List (String × Node)) (handles : List (String × String)) (fuel : Nat) :
    blockEntries (fuel + es.length + 3)
        ⟨es.flatMap Entry.tokens ++ .blockEnd :: ts, anchors, handles⟩ =
      .ok (es.map Entry.nodes) ⟨ts, anchors, handles⟩ := by
  induction es with
  | nil => rfl
  | cons e es ih =>
    rw [List.flatMap_cons, List.append_assoc, List.map_cons]
    exact blockEntries_cons _ (nodeUnless_scalar _ true true (fuel + es.length + 1)) ih

/-- A mapping and nothing else is a document without marks. -/
theorem document_of_node {ts : List Token} {n : Node}
    (h : node (3 * (ts.length + 1) + 3) true false
      { tokens := .blockMappingStart :: ts, handles := usualHandles } =
        .ok n { tokens := [.streamEnd], handles := usualHandles }) :
    document { tokens := .blockMappingStart :: ts } =
      .ok (some n) { tokens := [], handles := usualHandles } := by
  have hstep : document { tokens := .blockMappingStart :: ts } =
      (do
        let n ← node (3 * (ts.length + 1) + 3) true false
        dropEnds (3 * (ts.length + 1) + 3)
        expect .streamEnd
        return some n) { tokens := .blockMappingStart :: ts, handles := usualHandles } := rfl
  rw [hstep, run_bind, h]
  rfl

end Reader

/-- The tokens of a sheet describe its node. -/
theorem ofTokens?_sheet (sheet : Sheet) : ofTokens? sheet.tokens = .ok (some sheet.node) := by
  have hentries := Reader.blockEntries_entries sheet.entries [.blockEnd, .streamEnd] []
    Reader.usualHandles
  have hvalue (fuel : Nat) :=
    (Reader.nodeUnless_mapping true _).trans (Reader.node_mapping true (hentries fuel))
  have htop (fuel : Nat) := Reader.blockEntries_cons (String.ofList sheet.heading) (hvalue fuel)
    (Reader.blockEntries_nil _)
  have hlength : (sheet.entries.flatMap Entry.tokens).length = 4 * sheet.entries.length := by
    induction sheet.entries with
    | nil => rfl
    | cons e es ih =>
      rw [List.flatMap_cons, List.length_append, ih, List.length_cons, Entry.tokens]
      simp only [List.length_cons, List.length_nil]
      omega
  have hfuel : ∃ fuel, 3 * sheet.tokens.length + 3 = fuel + sheet.entries.length + 3 + 3 + 1 := by
    refine ⟨11 * sheet.entries.length + 20, ?_⟩
    simp only [Sheet.tokens, List.length_append, List.length_cons, List.length_nil, hlength]
    omega
  obtain ⟨fuel, hfuel⟩ := hfuel
  have hnode : Reader.node (3 * sheet.tokens.length + 3) true false
      { tokens := sheet.tokens, handles := Reader.usualHandles } =
        .ok sheet.node { tokens := [.streamEnd], handles := Reader.usualHandles } := by
    rw [hfuel]
    exact Reader.node_mapping false (htop fuel)
  have hdocument : Reader.document { tokens := sheet.tokens } = .ok (some sheet.node) _ :=
    Reader.document_of_node hnode
  simp only [ofTokens?, EStateM.run, hdocument]

end Node

/-! ### The values of a sheet -/

/-- The name of an entry stands for a text, and its text for a datum. -/
structure Entry.Stands (e : Entry) (d : Datum) : Prop where
  name : Tag.ofPlain (String.ofList e.name) = Tag.named "str"
  text : plainValue (String.ofList e.text) = .ok d

/-- The datum under the name of the entry. -/
def Entry.pair (e : Entry) (d : Datum) : Datum × Datum := (.text (String.ofList e.name), d)

namespace Node

/-- An entry whose name is a text. -/
theorem entries_cons {name : String} {v : Node} {d : Datum} {es : List (Node × Node)}
    {merged own : List (Datum × Datum)} (hname : Tag.ofPlain name = Tag.named "str")
    (hv : v.value = .ok d) (hes : entries es = .ok (merged, own)) :
    entries ((plain name, v) :: es) = .ok (merged, (.text name, d) :: own) := by
  have hmerge : ¬ Tag.named "str" = Tag.named "merge" := by decide
  have hvalue : ¬ Tag.named "str" = Tag.named "value" := by decide
  simp only [entries, plain, tag, hname, hmerge, hvalue, if_false, value, scalarValue, if_true, hv,
    hes]
  rfl

private theorem entries_sheet {es : List Entry} {ds : List Datum}
    (h : List.Forall₂ Entry.Stands es ds) :
    entries (es.map Entry.nodes) = .ok ([], List.zipWith Entry.pair es ds) := by
  induction h with
  | nil => rfl
  | @cons e d es ds he _ ih =>
    have hv : (plain (String.ofList e.text)).value = .ok d := by
      rw [plain, value]
      exact he.text
    exact entries_cons he.name hv ih

private theorem value_mapping {es : List (Node × Node)} {own : List (Datum × Datum)}
    (h : entries es = .ok ([], own)) :
    (mapping (Tag.named "map") es).value = .ok (.map (table own)) := by
  simp only [value, if_true, h]
  rfl

end Node

/-- A sheet stands for a map of its heading to the map of its entries. -/
theorem load_sheet (sheet : Sheet) {ds : List Datum}
    (hheading : Tag.ofPlain (String.ofList sheet.heading) = Tag.named "str")
    (hentries : List.Forall₂ Entry.Stands sheet.entries ds) :
    load (String.ofList sheet.text) = .ok (.map [(.text (String.ofList sheet.heading),
      .map (table (List.zipWith Entry.pair sheet.entries ds)))]) := by
  have hunder := Node.value_mapping (Node.entries_sheet hentries)
  have hnil : Node.entries [] = .ok ([], []) := rfl
  have hvalue := Node.value_mapping (Node.entries_cons hheading hunder hnil)
  rw [load, Token.scan_sheet]
  change (Node.ofTokens? sheet.tokens >>= _) = _
  rw [Node.ofTokens?_sheet]
  exact hvalue

end Yaml

namespace Config

open Yaml

private theorem isWord_toString (n : Int) : IsWord (toString n).toList := by
  have hdigit (c : Char) (hc : c ∈ Nat.toDigits 10 n.natAbs) : isNameChar c = true := by
    simp [isNameChar_eq, Whole.isDigit_of_mem hc]
  have hne : Nat.toDigits 10 n.natAbs ≠ [] := Nat.toDigits_ne_nil
  rw [Whole.toList_toString]
  split
  · constructor
    · intro c hc
      cases List.mem_cons.mp hc with
      | inl h => rw [h]; rfl
      | inr h => exact hdigit c h
    · simp
    · simp
  · exact ⟨hdigit, hne, Whole.toDigits_ne_cons rfl _ _⟩

private theorem isWord_of_isUpper {s : String} (hne : s ≠ "")
    (h : ∀ c ∈ s.toList, c.isUpper = true) : IsWord s.toList := by
  constructor
  · intro c hc
    simp [isNameChar_eq, h c hc]
  · simpa using hne
  · intro hs
    exact not_mem_of_test h rfl (x := '-') (by simp [hs])

section RoundTrip

variable {n : Int} {level : String}

/-- The sheet as which settings are written. -/
def sheet (n : Int) (level : String) (hlevel : IsWord level.toList) : Sheet where
  remark := " .smtblocks.yml - SMT snippet comparison configuration".toList
  heading := heading.toList
  entries := [
    ⟨"smt-timeout".toList, (toString n).toList, by decide, isWord_toString n, by decide⟩,
    ⟨"log-level".toList, level.toList, by decide, hlevel, by decide⟩]
  remark_printable := List.all_eq_true.mp (by decide +kernel)
  heading_isWord := by decide
  heading_short := by decide
  entries_ne_nil := List.cons_ne_nil _ _

/-- The first words of a file of settings. -/
theorem toList_start :
    "# .smtblocks.yml - SMT snippet comparison configuration\n\nsmt:\n  smt-timeout: ".toList =
      '#' :: " .smtblocks.yml - SMT snippet comparison configuration".toList ++ '\n' :: '\n' ::
        (heading.toList ++ ':' :: '\n' :: ' ' :: ' ' :: ("smt-timeout".toList ++ [':', ' '])) := by
  decide +kernel

private theorem toYaml_eq_sheet (hlevel : IsWord level.toList) :
    toYaml ⟨.scalar (.int n), .text level⟩ = String.ofList (sheet n level hlevel).text := by
  have hmiddle : "\n  log-level: ".toList =
      '\n' :: ' ' :: ' ' :: ("log-level".toList ++ [':', ' ']) := by
    decide +kernel
  have hend : "\n".toList = ['\n'] := by decide +kernel
  have htimeout : (Datum.scalar (.int n)).plain = toString n := by
    simp only [Datum.plain, Datum.shown]
    rfl
  have hname : (Datum.text level).plain = level := rfl
  have hnil : Entry.lines [] = [] := rfl
  have htext : (toYaml ⟨.scalar (.int n), .text level⟩).toList = (sheet n level hlevel).text := by
    -- Unfolded by hand: as rewrite rules both would have their long texts evaluated.
    unfold toYaml sheet
    simp only [htimeout, hname, String.toList_append, toList_start, hmiddle, hend, Sheet.text,
      Entry.lines_cons, hnil, List.append_assoc, List.cons_append, List.nil_append]
  rw [← htext, String.ofList_toList]

/-- The settings as a datum. -/
def datum (timeout level : Datum) : Datum :=
  .map [(.text heading, .map [(.text "smt-timeout", timeout), (.text "log-level", level)])]

private theorem ofDatum_datum (n : Int) (level : String) :
    ofDatum (datum (.scalar (.int n)) (.text level)) =
      .ok ⟨.scalar (.int n), .text (upperCase level)⟩ := rfl

/-- The datum that written settings stand for. -/
theorem load_toYaml (hn : n.natAbs < 10 ^ Whole.longest) (hne : level ≠ "")
    (hlevel : ∀ c ∈ level.toList, c.isUpper = true) (hfree : level ∉ Tag.reservedWords) :
    Yaml.load (toYaml ⟨.scalar (.int n), .text level⟩) =
      .ok (datum (.scalar (.int n)) (.text level)) := by
  have hword : IsWord level.toList := isWord_of_isUpper hne hlevel
  have hnames : ∀ name ∈ [heading, "smt-timeout", "log-level"],
      Tag.ofPlain (String.ofList name.toList) = Tag.named "str" := by
    decide +kernel
  have hentries : List.Forall₂ Entry.Stands (sheet n level hword).entries
      [.scalar (.int n), .text level] := by
    refine .cons ⟨hnames "smt-timeout" (by simp), ?_⟩
      (.cons ⟨hnames "log-level" (by simp), ?_⟩ .nil)
    · rw [String.ofList_toList, plainValue_toString hn]
    · rw [String.ofList_toList, plainValue_of_isUpper hne hlevel hfree]
  have hheading : Tag.ofPlain (String.ofList (sheet n level hword).heading) = Tag.named "str" :=
    hnames heading (by simp)
  rw [toYaml_eq_sheet hword, load_sheet _ hheading hentries]
  rfl

/-- Settings that are written and read again are the same: the datum of the text gives them back,
and so does reading the file. Only levels that are also words for a truth value or for nothing are
left aside, since they are read as what those words stand for. -/
theorem parse_toYaml (hn : n.natAbs < 10 ^ Whole.longest) (hne : level ≠ "")
    (hlevel : ∀ c ∈ level.toList, c.isUpper = true) (hfree : level ∉ Tag.reservedWords) :
    (∃ d, Yaml.load (toYaml ⟨.scalar (.int n), .text level⟩) = .ok d ∧
      ofDatum d = .ok ⟨.scalar (.int n), .text level⟩) ∧
    parse (toYaml ⟨.scalar (.int n), .text level⟩) = .ok ⟨.scalar (.int n), .text level⟩ := by
  have hload := load_toYaml hn hne hlevel hfree
  have hback := ofDatum_datum n level
  rw [upperCase_of_isUpper hlevel] at hback
  constructor
  · exact ⟨_, hload, hback⟩
  · rw [parse, hload]
    exact hback

end RoundTrip

end Config

/-- A limit that is not positive, and a level. -/
theorem Sample.unlimited_parse_toYaml :
    (-60 : Int).natAbs < 10 ^ Whole.longest ∧ "DEBUG" ≠ "" ∧
      (∀ c ∈ "DEBUG".toList, c.isUpper = true) ∧ "DEBUG" ∉ Yaml.Tag.reservedWords ∧
      (∃ d, Yaml.load (Config.toYaml ⟨.scalar (.int (-60)), .text "DEBUG"⟩) = .ok d ∧
        Config.ofDatum d = .ok ⟨.scalar (.int (-60)), .text "DEBUG"⟩) ∧
      Config.parse (Config.toYaml ⟨.scalar (.int (-60)), .text "DEBUG"⟩) =
        .ok ⟨.scalar (.int (-60)), .text "DEBUG"⟩ := by
  have hn : (-60 : Int).natAbs < 10 ^ Whole.longest :=
    Nat.lt_of_lt_of_le (by decide : 60 < 10 ^ 2) (Nat.pow_le_pow_right (by decide) (by decide))
  have hlevel : ∀ c ∈ "DEBUG".toList, c.isUpper = true := List.all_eq_true.mp (by decide)
  exact ⟨hn, by decide, hlevel, by decide,
    Config.parse_toYaml hn (by decide) hlevel (by decide)⟩

end BlockEquiv
