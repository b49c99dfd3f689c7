import DefForms.Proofs.Json.Compact
import DefForms.Tree.Reader

set_option autoImplicit false

/-! # Tree text reads back

What `Tree/Writer` writes for a program, `Tree/Reader` reads back to the program
(`nodesOfTreeText_treeText`). The texts in a tree may be anything, and its lines are any numbers of
64 bits; only the depth of the tree text is bounded, as the reader opens no more than `maxLevels`
arrays and objects inside each other.

Below the text there is one lemma for each structure. Each says that reading succeeds if the levels
that may still be opened are at least those that the written value has, whatever the structure is a
part of. -/

namespace DefForms

/-! ## Levels of JSON values -/

namespace Json

mutual

/-- The most arrays and objects that are open at one place of the value. -/
def levels : Json → Nat
  | .null | .bool _ | .num _ | .str _ => 0
  | .arr items => levelsItems items + 1
  | .obj fields => levelsFields fields + 1

/-- The most arrays and objects that are open at one place of the items. -/
def levelsItems : List Json → Nat
  | [] => 0
  | item :: more => max item.levels (levelsItems more)

/-- The most arrays and objects that are open at one place of the values of the fields. -/
def levelsFields : List (List Char × Json) → Nat
  | [] => 0
  | (_, value) :: more => max value.levels (levelsFields more)

end

section Bounds

variable {bound : Nat}

theorem levelsItems_le_iff {items : List Json} :
    levelsItems items ≤ bound ↔ ∀ item ∈ items, item.levels ≤ bound := by
  induction items with
  | nil => simp [levelsItems]
  | cons item more ih => rw [levelsItems, Nat.max_le, ih, List.forall_mem_cons]

theorem levelsFields_le_iff {fields : List (List Char × Json)} :
    levelsFields fields ≤ bound ↔ ∀ field ∈ fields, field.2.levels ≤ bound := by
  induction fields with
  | nil => simp [levelsFields]
  | cons field more ih => rw [levelsFields, Nat.max_le, ih, List.forall_mem_cons]

/-- One level is used up by an array, the others are left for its items. -/
theorem exists_levels_of_arr {items : List Json} (h : (Json.arr items).levels ≤ bound) :
    ∃ inner, bound = inner + 1 ∧ ∀ item ∈ items, item.levels ≤ inner := by
  rw [levels] at h
  refine ⟨bound - 1, by omega, ?_⟩
  rw [← levelsItems_le_iff]
  omega

/-- The same for an object. -/
theorem exists_levels_of_record {fields : List (String × Json)}
    (h : (Json.record fields).levels ≤ bound) :
    ∃ inner, bound = inner + 1 ∧ ∀ field ∈ fields, field.2.levels ≤ inner := by
  rw [record, levels] at h
  refine ⟨bound - 1, by omega, ?_⟩
  have hinner := levelsFields_le_iff.1 (Nat.le_sub_of_add_le h)
  intro field hfield
  exact hinner _ (List.mem_map.2 ⟨field, hfield, rfl⟩)

end Bounds

/-! ## Components -/

theorem text?_text (content : String) : (Json.text content).text? = some content := by
  rw [text, text?, JsonText.decode_encode, Option.map_some, String.ofList_toList]

theorem char?_text_singleton (c : Char) : (Json.text (String.singleton c)).char? = some c := by
  rw [text, char?, JsonText.decode_encode]
  simp

theorem line?_nat {n : Nat} (hn : n < lineBound) : (Json.nat n).line? = some n := by
  have hdigits : (Nat.toDigits 10 n).all Char.isDigit = true :=
    List.all_eq_true.2 fun c hc => Nat.isDigit_of_mem_toDigits (by decide) (by decide) hc
  have hvalue : digitsValue (Nat.toDigits 10 n) = n :=
    Nat.ofDigitChars_toDigits (by decide) (by decide)
  rw [nat, line?, hvalue, if_pos ⟨hdigits, hn⟩]

/-- The fields of a record are known by their names as they were before they were written. -/
theorem mapM_readField_encode (fields : List (String × Json)) :
    (fields.map fun (key, value) => (JsonText.encode key.toList, value)).mapM readField
      = some (fields.map fun (key, value) => (key.toList, value)) := by
  induction fields with
  | nil => rfl
  | cons field more ih =>
      rw [List.map_cons, List.mapM_cons, ih, readField, JsonText.decode_encode]
      rfl

/-- A name that one field has finds this field. -/
theorem only?_of_mem {fields : List (String × Json)} (hnodup : (fields.map Prod.fst).Nodup)
    {field : String × Json} (hfield : field ∈ fields) :
    only? (fields.map fun (key, value) => (key.toList, value)) field.1 = some field.2 := by
  induction fields with
  | nil => simp at hfield
  | cons other more ih =>
      obtain ⟨key, value⟩ := other
      rw [List.map_cons, List.nodup_cons] at hnodup
      obtain ⟨hkey, hmore⟩ := hnodup
      rcases List.mem_cons.1 hfield with rfl | hmem
      · have hnone : (more.map fun (key, value) => (key.toList, value)).filter
            (fun found => found.1 == key.toList) = [] := by
          rw [List.filter_eq_nil_iff]
          intro found hfound heq
          obtain ⟨⟨name, other⟩, hother, rfl⟩ := List.mem_map.1 hfound
          obtain rfl : name = key := String.toList_inj.1 (eq_of_beq heq)
          exact hkey (List.mem_map.2 ⟨_, hother, rfl⟩)
        rw [only?, List.map_cons, List.filter_cons_of_pos (by simp), hnone]
      · have hne : key.toList ≠ field.1.toList := by
          intro heq
          obtain rfl := String.toList_inj.1 heq
          exact hkey (List.mem_map.2 ⟨field, hmem, rfl⟩)
        rw [only?, List.map_cons, List.filter_cons_of_neg (by simpa using hne), ← only?]
        exact ih hmore hmem

/-- A record has the components that it was made of. -/
theorem components?_record (fields : List (String × Json))
    (hnodup : (fields.map Prod.fst).Nodup) :
    (Json.record fields).components? (fields.map Prod.fst) = some (fields.map Prod.snd) := by
  have hfound : ∀ part : List (String × Json), (∀ field ∈ part, field ∈ fields) →
      (part.map Prod.fst).mapM (only? (fields.map fun (key, value) => (key.toList, value)))
        = some (part.map Prod.snd) := by
    intro part
    induction part with
    | nil => exact fun _ => rfl
    | cons field rest ih =>
        intro hpart
        rw [List.forall_mem_cons] at hpart
        obtain ⟨hfield, hrest⟩ := hpart
        rw [List.map_cons, List.mapM_cons, only?_of_mem hnodup hfield, ih hrest]
        rfl
  unfold record components?
  simp only [mapM_readField_encode]
  exact hfound fields fun field hfield => hfield

theorem variant?_tagged (tag : String) (content : Json) :
    (Json.tagged tag content).variant? = some (tag, content) := by
  rw [tagged, record, List.map_cons, List.map_nil, variant?, readField, JsonText.decode_encode]
  simp

end Json

/-! ## Lines -/

/-- The lines in an entry. -/
def Param.lines (entry : Param) : List Nat := [entry.line, entry.name.line, entry.type.line]

/-- The lines in a parameter list. -/
def ParamList.lines (params : ParamList) : List Nat :=
  params.line :: params.entries.flatMap Param.lines

mutual

/-- The line numbers that stand anywhere in a tree. -/
def Node.lines : Node → List Nat
  | .int numeral => [numeral.line]
  | .float numeral => [numeral.line]
  | .operator op => [op.line]
  | .term name => [name.line]
  | .call line head args => line :: head.line :: Node.linesAll args
  | .param entry => entry.lines
  | .paramList params => params.lines
  | .definition line name params body =>
      line :: name.line :: (params.lines ++ Node.linesAll body)

/-- The line numbers that stand anywhere in several trees. -/
def Node.linesAll : List Node → List Nat
  | [] => []
  | node :: rest => node.lines ++ Node.linesAll rest

end

/-! ## Structures -/

section Structures

variable {levels : Nat}

/-- A structure of a line and one more component is read back. -/
theorem readLined_record {α β : Type} {name : String} (hname : "line" ≠ name)
    {component : Json → Option α} {build : Nat → α → β} {line : Nat} (hline : line < lineBound)
    {content : Json} {value : α} (hcontent : component content = some value)
    (hlevels : (Json.record [("line", .nat line), (name, content)]).levels ≤ levels) :
    readLined name component build levels (.record [("line", .nat line), (name, content)])
      = some (build line value) := by
  obtain ⟨inner, rfl, -⟩ := Json.exists_levels_of_record hlevels
  have hcomponents := Json.components?_record [("line", .nat line), (name, content)]
    (by simpa using hname)
  simp only [List.map_cons, List.map_nil] at hcomponents
  simp only [readLined, hcomponents, Json.line?_nat hline, hcontent]

theorem Term.ofTree?_tree {term : Term} (hline : term.line < lineBound)
    (hlevels : term.tree.levels ≤ levels) : Term.ofTree? levels term.tree = some term :=
  readLined_record (by decide) hline (Json.text?_text term.text) hlevels

theorem Numeral.ofTree?_tree {numeral : Numeral} (hline : numeral.line < lineBound)
    (hlevels : numeral.tree.levels ≤ levels) :
    Numeral.ofTree? levels numeral.tree = some numeral :=
  readLined_record (by decide) hline (Json.text?_text numeral.text) hlevels

theorem Operator.ofTree?_tree {op : Operator} (hline : op.line < lineBound)
    (hlevels : op.tree.levels ≤ levels) : Operator.ofTree? levels op.tree = some op :=
  readLined_record (by decide) hline (Json.char?_text_singleton op.symbol) hlevels

/-- Items that are read back one by one are read back together. -/
theorem mapM_map_eq_some {α : Type} {write : α → Json} {read : Json → Option α} {values : List α}
    (h : ∀ value ∈ values, read (write value) = some value) :
    (values.map write).mapM read = some values := by
  induction values with
  | nil => rfl
  | cons value more ih =>
      rw [List.forall_mem_cons] at h
      obtain ⟨hvalue, hmore⟩ := h
      rw [List.map_cons, List.mapM_cons, hvalue, ih hmore]
      rfl

theorem Param.ofTree?_tree {entry : Param} (hlines : ∀ line ∈ entry.lines, line < lineBound)
    (hlevels : entry.tree.levels ≤ levels) : Param.ofTree? levels entry.tree = some entry := by
  obtain ⟨inner, rfl, hfields⟩ := Json.exists_levels_of_record hlevels
  simp only [List.forall_mem_cons] at hfields
  obtain ⟨-, hname, htype, -⟩ := hfields
  simp only [Param.lines, List.forall_mem_cons] at hlines
  obtain ⟨hline, hnameLine, htypeLine, -⟩ := hlines
  have hcomponents := Json.components?_record [("line", .nat entry.line),
    ("term", entry.name.tree), ("term_type", entry.type.tree)] (by simp)
  simp only [List.map_cons, List.map_nil] at hcomponents
  simp only [Param.ofTree?, Param.tree, hcomponents, Json.line?_nat hline,
    Term.ofTree?_tree hnameLine hname, Term.ofTree?_tree htypeLine htype]

theorem ParamList.ofTree?_tree {params : ParamList}
    (hlines : ∀ line ∈ params.lines, line < lineBound) (hlevels : params.tree.levels ≤ levels) :
    ParamList.ofTree? levels params.tree = some params := by
  obtain ⟨outer, rfl, hfields⟩ := Json.exists_levels_of_record hlevels
  simp only [List.forall_mem_cons] at hfields
  obtain ⟨-, harray, -⟩ := hfields
  obtain ⟨inner, rfl, hentries⟩ := Json.exists_levels_of_arr harray
  rw [ParamList.lines, List.forall_mem_cons] at hlines
  obtain ⟨hline, hentryLines⟩ := hlines
  have hcomponents := Json.components?_record [("line", .nat params.line),
    ("args", .arr (params.entries.map Param.tree))] (by simp)
  simp only [List.map_cons, List.map_nil] at hcomponents
  have hread :
      (params.entries.map Param.tree).mapM (Param.ofTree? inner) = some params.entries := by
    apply mapM_map_eq_some
    intro entry hentry
    apply Param.ofTree?_tree
    · intro line hmem
      exact hentryLines line (List.mem_flatMap.2 ⟨entry, hentry, hmem⟩)
    · exact hentries _ (List.mem_map.2 ⟨entry, hentry, rfl⟩)
  simp only [ParamList.ofTree?, ParamList.tree, hcomponents, Json.line?_nat hline, hread]

theorem Head.ofTree?_tree {head : Head} (hline : head.line < lineBound)
    (hlevels : head.tree.levels ≤ levels) : Head.ofTree? levels head.tree = some head := by
  cases head with
  | term name =>
      obtain ⟨inner, rfl, hcontent⟩ := Json.exists_levels_of_record hlevels
      have hname := Term.ofTree?_tree hline (hcontent _ (List.mem_singleton_self _))
      rw [Head.tree, Head.ofTree?, Json.variant?_tagged]
      simp only [hname, Option.map_some]
  | operator op =>
      obtain ⟨inner, rfl, hcontent⟩ := Json.exists_levels_of_record hlevels
      have hop := Operator.ofTree?_tree hline (hcontent _ (List.mem_singleton_self _))
      rw [Head.tree, Head.ofTree?, Json.variant?_tagged]
      simp only [hop, Option.map_some]

end Structures

/-! ## Nodes -/

theorem levels_record_pos (fields : List (String × Json)) : 0 < (Json.record fields).levels :=
  Nat.succ_pos _

/-- Under a tag that is not that of a form, the content is all that is read. -/
theorem Node.ofTree?_leaf {levels : Nat} {tag : String} {content : Json} {node : Node}
    (htag : tag ≠ "Call" ∧ tag ≠ "Def") (hlevels : (Json.tagged tag content).levels ≤ levels)
    (hcontent : 0 < content.levels)
    (hread : ∀ inner, content.levels ≤ inner → Node.leafOfTree? inner tag content = some node) :
    Node.ofTree? levels (.tagged tag content) = some node := by
  obtain ⟨inner, rfl, hfields⟩ := Json.exists_levels_of_record hlevels
  have hinner : content.levels ≤ inner := hfields _ (List.mem_singleton_self _)
  match inner, hinner with
  | 0, hinner => omega
  | 1, hinner =>
      rw [Node.ofTree?, Json.variant?_tagged]
      exact hread 1 hinner
  | inner + 2, hinner =>
      rw [Node.ofTree?, Json.variant?_tagged]
      split
      · next heq => exact absurd (Prod.mk.inj (Option.some.inj heq)).1 htag.1
      · next heq => exact absurd (Prod.mk.inj (Option.some.inj heq)).1 htag.2
      · next heq =>
          obtain ⟨rfl, rfl⟩ := Prod.mk.inj (Option.some.inj heq)
          exact hread (inner + 2) hinner
      · next heq => simp at heq

mutual

/-- What is written for a node is read back, if that many levels may be opened. -/
theorem Node.ofTree?_tree (node : Node) (hlines : ∀ line ∈ node.lines, line < lineBound)
    {levels : Nat} (hlevels : node.tree.levels ≤ levels) :
    Node.ofTree? levels node.tree = some node := by
  cases node with
  | int numeral | float numeral =>
      apply Node.ofTree?_leaf (by decide) hlevels (levels_record_pos _)
      intro inner hinner
      have hline := hlines _ (List.mem_singleton_self _)
      rw [Node.leafOfTree?, Numeral.ofTree?_tree hline hinner, Option.map_some]
  | operator op =>
      apply Node.ofTree?_leaf (by decide) hlevels (levels_record_pos _)
      intro inner hinner
      have hline := hlines _ (List.mem_singleton_self _)
      rw [Node.leafOfTree?, Operator.ofTree?_tree hline hinner, Option.map_some]
  | term name =>
      apply Node.ofTree?_leaf (by decide) hlevels (levels_record_pos _)
      intro inner hinner
      have hline := hlines _ (List.mem_singleton_self _)
      rw [Node.leafOfTree?, Term.ofTree?_tree hline hinner, Option.map_some]
  | param entry =>
      apply Node.ofTree?_leaf (by decide) hlevels (levels_record_pos _)
      intro inner hinner
      rw [Node.leafOfTree?, Param.ofTree?_tree hlines hinner, Option.map_some]
  | paramList params =>
      apply Node.ofTree?_leaf (by decide) hlevels (levels_record_pos _)
      intro inner hinner
      rw [Node.leafOfTree?, ParamList.ofTree?_tree hlines hinner, Option.map_some]
  | call line head args =>
      obtain ⟨outer, rfl, htagged⟩ := Json.exists_levels_of_record hlevels
      obtain ⟨middle, rfl, hfields⟩ :=
        Json.exists_levels_of_record (htagged _ (List.mem_singleton_self _))
      simp only [List.forall_mem_cons] at hfields
      obtain ⟨-, hheadLevels, harray, -⟩ := hfields
      obtain ⟨inner, rfl, hargLevels⟩ := Json.exists_levels_of_arr harray
      rw [Node.lines, List.forall_mem_cons, List.forall_mem_cons] at hlines
      obtain ⟨hline, hheadLine, hargLines⟩ := hlines
      have hcomponents := Json.components?_record [("line", .nat line), ("name", head.tree),
        ("args", .arr (Node.trees args))] (by simp)
      simp only [List.map_cons, List.map_nil] at hcomponents
      rw [Node.tree, Node.ofTree?, Json.variant?_tagged]
      simp only [hcomponents, Json.line?_nat hline, Head.ofTree?_tree hheadLine hheadLevels,
        mapM_ofTree?_trees args hargLines hargLevels]
  | definition line name params body =>
      obtain ⟨outer, rfl, htagged⟩ := Json.exists_levels_of_record hlevels
      obtain ⟨middle, rfl, hfields⟩ :=
        Json.exists_levels_of_record (htagged _ (List.mem_singleton_self _))
      simp only [List.forall_mem_cons] at hfields
      obtain ⟨-, hnameLevels, hparamLevels, harray, -⟩ := hfields
      obtain ⟨inner, rfl, hbodyLevels⟩ := Json.exists_levels_of_arr harray
      rw [Node.lines, List.forall_mem_cons, List.forall_mem_cons, List.forall_mem_append] at hlines
      obtain ⟨hline, hnameLine, hparamLines, hbodyLines⟩ := hlines
      have hcomponents := Json.components?_record [("line", .nat line), ("name", name.tree),
        ("args", params.tree), ("body", .arr (Node.trees body))] (by simp)
      simp only [List.map_cons, List.map_nil] at hcomponents
      rw [Node.tree, Node.ofTree?, Json.variant?_tagged]
      simp only [hcomponents, Json.line?_nat hline, Term.ofTree?_tree hnameLine hnameLevels,
        ParamList.ofTree?_tree hparamLines hparamLevels,
        mapM_ofTree?_trees body hbodyLines hbodyLevels]

theorem mapM_ofTree?_trees (nodes : List Node)
    (hlines : ∀ line ∈ Node.linesAll nodes, line < lineBound) {levels : Nat}
    (hlevels : ∀ item ∈ Node.trees nodes, item.levels ≤ levels) :
    (Node.trees nodes).mapM (Node.ofTree? levels) = some nodes := by
  cases nodes with
  | nil => rfl
  | cons node rest =>
      rw [Node.linesAll, List.forall_mem_append] at hlines
      rw [Node.trees, List.forall_mem_cons] at hlevels
      obtain ⟨hnodeLines, hrestLines⟩ := hlines
      obtain ⟨hnodeLevels, hrestLevels⟩ := hlevels
      rw [Node.trees, List.mapM_cons, Node.ofTree?_tree node hnodeLines hnodeLevels,
        mapM_ofTree?_trees rest hrestLines hrestLevels]
      rfl

end

/-! ## Texts -/

theorem Term.wellFormed_tree (term : Term) : term.tree.WellFormed := by
  apply Json.wellFormed_record
  simp [Json.wellFormed_nat, Json.wellFormed_text]

theorem Numeral.wellFormed_tree (numeral : Numeral) : numeral.tree.WellFormed := by
  apply Json.wellFormed_record
  simp [Json.wellFormed_nat, Json.wellFormed_text]

theorem Operator.wellFormed_tree (op : Operator) : op.tree.WellFormed := by
  apply Json.wellFormed_record
  simp [Json.wellFormed_nat, Json.wellFormed_text]

theorem Param.wellFormed_tree (entry : Param) : entry.tree.WellFormed := by
  apply Json.wellFormed_record
  simp [Json.wellFormed_nat, Term.wellFormed_tree]

theorem ParamList.wellFormed_tree (params : ParamList) : params.tree.WellFormed := by
  have hentries : (Json.arr (params.entries.map Param.tree)).WellFormed := by
    apply Json.wellFormedItems_iff.2
    intro item hitem
    obtain ⟨entry, -, rfl⟩ := List.mem_map.1 hitem
    exact entry.wellFormed_tree
  apply Json.wellFormed_record
  simp [Json.wellFormed_nat, hentries]

theorem Json.wellFormed_tagged {tag : String} {content : Json} (h : content.WellFormed) :
    (Json.tagged tag content).WellFormed := by
  apply Json.wellFormed_record
  intro field hfield
  obtain rfl := List.mem_singleton.1 hfield
  exact h

theorem Head.wellFormed_tree (head : Head) : head.tree.WellFormed := by
  cases head with
  | term name => exact Json.wellFormed_tagged name.wellFormed_tree
  | operator op => exact Json.wellFormed_tagged op.wellFormed_tree

mutual

/-- Only literals are written for a node. -/
theorem Node.wellFormed_tree (node : Node) : node.tree.WellFormed := by
  cases node with
  | int numeral | float numeral => exact Json.wellFormed_tagged numeral.wellFormed_tree
  | operator op => exact Json.wellFormed_tagged op.wellFormed_tree
  | term name => exact Json.wellFormed_tagged name.wellFormed_tree
  | param entry => exact Json.wellFormed_tagged entry.wellFormed_tree
  | paramList params => exact Json.wellFormed_tagged params.wellFormed_tree
  | call line head args =>
      have hargs : (Json.arr (Node.trees args)).WellFormed := wellFormedItems_trees args
      apply Json.wellFormed_tagged
      apply Json.wellFormed_record
      simp [Json.wellFormed_nat, head.wellFormed_tree, hargs]
  | definition line name params body =>
      have hbody : (Json.arr (Node.trees body)).WellFormed := wellFormedItems_trees body
      apply Json.wellFormed_tagged
      apply Json.wellFormed_record
      simp [Json.wellFormed_nat, name.wellFormed_tree, params.wellFormed_tree, hbody]

theorem wellFormedItems_trees (nodes : List Node) : Json.WellFormedItems (Node.trees nodes) := by
  cases nodes with
  | nil => trivial
  | cons node rest => exact ⟨node.wellFormed_tree, wellFormedItems_trees rest⟩

end

/-- A program whose lines are numbers of 64 bits, and whose tree text opens fewer than 128 arrays
    and objects inside each other, is read back from its tree text, lines included. -/
theorem nodesOfTreeText_treeText (nodes : List Node)
    (hlines : ∀ line ∈ Node.linesAll nodes, line < 18446744073709551616)
    (hlevels : (Json.arr (Node.trees nodes)).levels < 128) :
    nodesOfTreeText? (String.ofList (treeText nodes)) = some nodes := by
  have hparse : Json.parse (treeText nodes) = some (.arr (Node.trees nodes)) :=
    Json.parse_compact (wellFormedItems_trees nodes)
  have hbound : (Json.arr (Node.trees nodes)).levels ≤ maxLevels := by
    rw [maxLevels]
    omega
  obtain ⟨inner, hinner, hitems⟩ := Json.exists_levels_of_arr hbound
  have hleft : maxLevels - 1 = inner := by omega
  rw [nodesOfTreeText?, String.toList_ofList, hparse]
  simp only [hleft]
  exact mapM_ofTree?_trees nodes hlines hitems

/-- A definition with controls, quotes and backslashes in its texts, on the last line there is. -/
def oddTexts : List Node :=
  [.definition 18446744073709551615 ⟨0, "a\"\\\n\x00"⟩ ⟨2, [⟨3, ⟨4, "é"⟩, ⟨5, ""⟩⟩]⟩
    [.call 6 (.operator ⟨7, '"'⟩) [.int ⟨8, "x\x1f"⟩, .param ⟨9, ⟨10, "/"⟩, ⟨11, "😀"⟩⟩]]]

theorem nodesOfTreeText_treeText_of_oddTexts :
    nodesOfTreeText? (String.ofList (treeText oddTexts)) = some oddTexts := by
  apply nodesOfTreeText_treeText
  · decide
  · decide

end DefForms
