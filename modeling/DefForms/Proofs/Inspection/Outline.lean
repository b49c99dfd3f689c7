import DefForms.Inspection

set_option autoImplicit false

/-! # What the inspection form shows

The inspection form of a program leaves out lines and shows numerals by their value. `Node.outline`
is a tree without just these: two programs have one inspection form if and only if they have one
outline (`inspection_eq_iff`). What keeps the kinds of nodes apart is the field `type`, which every
object of the form has; the names of the other fields are shared by several kinds.

JSON values may be compared as they are written, or as values, where a number is the same however it
is written. Both are covered: all is said for values in which every number literal has been replaced
by some other one (`Json.mapNumbers`). -/

namespace DefForms

/-! ## Numbers in JSON values -/

namespace Json

variable (f : List Char → List Char)

mutual

/-- The value with every number literal in it replaced. -/
def mapNumbers : Json → Json
  | .null => .null
  | .bool value => .bool value
  | .num literal => .num (f literal)
  | .str written => .str written
  | .arr items => .arr (mapNumbersItems items)
  | .obj fields => .obj (mapNumbersFields fields)

/-- The items with every number literal in them replaced. -/
def mapNumbersItems : List Json → List Json
  | [] => []
  | item :: more => item.mapNumbers :: mapNumbersItems more

/-- The fields with every number literal in their values replaced. -/
def mapNumbersFields : List (List Char × Json) → List (List Char × Json)
  | [] => []
  | (key, value) :: more => (key, value.mapNumbers) :: mapNumbersFields more

end

mutual

theorem mapNumbers_id (json : Json) : json.mapNumbers id = json := by
  match json with
  | .null | .bool _ | .num _ | .str _ => rfl
  | .arr items => rw [mapNumbers, mapNumbersItems_id items]
  | .obj fields => rw [mapNumbers, mapNumbersFields_id fields]

theorem mapNumbersItems_id (items : List Json) : mapNumbersItems id items = items := by
  match items with
  | [] => rfl
  | item :: more => rw [mapNumbersItems, mapNumbers_id item, mapNumbersItems_id more]

theorem mapNumbersFields_id (fields : List (List Char × Json)) :
    mapNumbersFields id fields = fields := by
  match fields with
  | [] => rfl
  | (key, value) :: more =>
      rw [mapNumbersFields, mapNumbers_id value, mapNumbersFields_id more]

end

/-- Two records with the same field in front differ in its value or behind it. -/
theorem mapNumbers_record_cons {key : String} {a b : Json} {as bs : List (String × Json)} :
    (Json.record ((key, a) :: as)).mapNumbers f = (Json.record ((key, b) :: bs)).mapNumbers f
      ↔ a.mapNumbers f = b.mapNumbers f
        ∧ (Json.record as).mapNumbers f = (Json.record bs).mapNumbers f := by
  simp only [record, List.map_cons, mapNumbers, mapNumbersFields, Json.obj.injEq, List.cons.injEq,
    Prod.mk.injEq, true_and]

theorem mapNumbers_text (content : String) :
    (Json.text content).mapNumbers f = Json.text content := rfl

theorem mapNumbers_arr {as bs : List Json} :
    (Json.arr as).mapNumbers f = (Json.arr bs).mapNumbers f
      ↔ mapNumbersItems f as = mapNumbersItems f bs := by
  simp only [mapNumbers, Json.arr.injEq]

/-- The number that a literal of a finite number is: the two zeros are one number. -/
def numberOf (literal : List Char) : List Char :=
  if literal = ['-', '0', '.', '0'] then ['0', '.', '0'] else literal

/-- The values are equal. Numbers are compared as numbers. -/
def Equal (a b : Json) : Prop := a.mapNumbers numberOf = b.mapNumbers numberOf

theorem text_inj {a b : String} : Json.text a = Json.text b ↔ a = b := by
  constructor
  · intro h
    have hencode := Json.str.inj h
    have hdecode : some a.toList = some b.toList := by
      rw [← JsonText.decode_encode, hencode, JsonText.decode_encode]
    exact String.toList_inj.1 (Option.some.inj hdecode)
  · rintro rfl
    rfl

end Json

/-! ## Outlines -/

/-- A head as the inspection form shows it. -/
inductive HeadOutline where
  | term (text : String)
  | operator (symbol : Char)

/-- A tree as the inspection form shows it: without lines, and with values of numerals. -/
inductive Outline where
  | int (value : Json)
  | float (value : Json)
  | operator (symbol : Char)
  | term (text : String)
  | call (head : HeadOutline) (args : List Outline)
  | param (name type : String)
  | paramList (entries : List (String × String))
  | definition (name : String) (entries : List (String × String)) (body : List Outline)

/-- The texts of an entry. -/
def Param.outline (entry : Param) : String × String := (entry.name.text, entry.type.text)

/-- A head without its line. -/
def Head.outline : Head → HeadOutline
  | .term name => .term name.text
  | .operator op => .operator op.symbol

/-- The kind of a head that an outline shows. -/
def HeadOutline.kind : HeadOutline → Kind
  | .term _ => .term
  | .operator _ => .operator

/-- The kind of a node that an outline shows. -/
def Outline.kind : Outline → Kind
  | .int _ => .int
  | .float _ => .float
  | .operator _ => .operator
  | .term _ => .term
  | .call _ _ => .call
  | .param _ _ => .param
  | .paramList _ => .paramList
  | .definition _ _ _ => .definition

theorem Head.kind_outline (head : Head) : head.outline.kind = head.toNode.kind := by
  cases head <;> rfl

section Outline

variable (f : List Char → List Char)

mutual

/-- A tree without its lines, and with the value of every numeral in the place of its text. The
    number literals in these values are replaced. -/
def Node.outline : Node → Outline
  | .int numeral => .int (numeral.shownInt.mapNumbers f)
  | .float numeral => .float (numeral.shownFloat.mapNumbers f)
  | .operator op => .operator op.symbol
  | .term name => .term name.text
  | .call _ head args => .call head.outline (Node.outlineAll args)
  | .param entry => .param entry.name.text entry.type.text
  | .paramList params => .paramList (params.entries.map Param.outline)
  | .definition _ name params body =>
      .definition name.text (params.entries.map Param.outline) (Node.outlineAll body)

/-- The outlines of several trees. -/
def Node.outlineAll : List Node → List Outline
  | [] => []
  | node :: rest => node.outline :: Node.outlineAll rest

end

theorem Node.kind_outline (node : Node) : (node.outline f).kind = node.kind := by
  cases node <;> rfl

end Outline

/-! ## The field of the kind -/

/-- The value of the first field with this name. -/
def Json.field? (name : String) : Json → Option Json
  | .obj fields => fields.lookup (JsonText.encode name.toList)
  | _ => none

theorem Kind.name_inj {a b : Kind} (h : a.name = b.name) : a = b := by
  have hall : ∀ a ∈ Kind.all, ∀ b ∈ Kind.all, a.name = b.name → a = b := by decide
  exact hall a a.mem_all b b.mem_all h

section Kinds

variable {f : List Char → List Char}

/-- Every node shows its kind, and in the same place. -/
theorem Node.field_type (node : Node) :
    (node.inspect.mapNumbers f).field? "type" = some (.text node.kind.name) := by
  cases node <;> rfl

/-- Nodes that are shown alike are of one kind. -/
theorem Node.kind_eq_of_inspect {a b : Node}
    (h : a.inspect.mapNumbers f = b.inspect.mapNumbers f) : a.kind = b.kind := by
  apply Kind.name_inj
  apply Json.text_inj.1
  apply Option.some.inj
  rw [← a.field_type, ← b.field_type, h]

/-- The same for heads. -/
theorem Head.kind_eq_of_inspect {a b : Head}
    (h : a.inspect.mapNumbers f = b.inspect.mapNumbers f) : a.toNode.kind = b.toNode.kind := by
  have hnode : ∀ head : Head, head.toNode.inspect = head.inspect := by
    intro head
    cases head <;> rfl
  apply Node.kind_eq_of_inspect (f := f)
  rw [hnode, hnode, h]

end Kinds

/-! ## Equal forms and equal outlines -/

section Equal

variable {f : List Char → List Char}

theorem leaf_eq_iff {type : String} {a b : Json} :
    (Json.leaf type a).mapNumbers f = (Json.leaf type b).mapNumbers f
      ↔ a.mapNumbers f = b.mapNumbers f := by
  simp only [Json.leaf, Json.mapNumbers_record_cons, true_and, and_true]

theorem Term.inspect_eq_iff {a b : Term} :
    a.inspect.mapNumbers f = b.inspect.mapNumbers f ↔ a.text = b.text := by
  rw [Term.inspect, Term.inspect, leaf_eq_iff, Json.mapNumbers_text, Json.mapNumbers_text,
    Json.text_inj]

theorem Operator.inspect_eq_iff {a b : Operator} :
    a.inspect.mapNumbers f = b.inspect.mapNumbers f ↔ a.symbol = b.symbol := by
  rw [Operator.inspect, Operator.inspect, leaf_eq_iff, Json.mapNumbers_text, Json.mapNumbers_text,
    Json.text_inj]
  constructor
  · intro h
    have hlist := congrArg String.toList h
    simpa using hlist
  · intro h
    rw [h]

theorem Head.inspect_eq_iff {a b : Head} :
    a.inspect.mapNumbers f = b.inspect.mapNumbers f ↔ a.outline = b.outline := by
  by_cases hkind : a.toNode.kind = b.toNode.kind
  · cases a with
    | term name =>
        cases b with
        | term other =>
            rw [Head.inspect, Head.inspect, Term.inspect_eq_iff, Head.outline, Head.outline,
              HeadOutline.term.injEq]
        | operator other => simp [Head.toNode, Node.kind] at hkind
    | operator op =>
        cases b with
        | term other => simp [Head.toNode, Node.kind] at hkind
        | operator other =>
            rw [Head.inspect, Head.inspect, Operator.inspect_eq_iff, Head.outline, Head.outline,
              HeadOutline.operator.injEq]
  · apply iff_of_false
    · intro h
      exact hkind (Head.kind_eq_of_inspect h)
    · intro h
      apply hkind
      rw [← a.kind_outline, ← b.kind_outline, h]

theorem Param.inspect_eq_iff {a b : Param} :
    a.inspect.mapNumbers f = b.inspect.mapNumbers f ↔ a.outline = b.outline := by
  simp only [Param.inspect, Json.mapNumbers_record_cons, Term.inspect_eq_iff, and_true,
    Param.outline, Prod.mk.injEq]

theorem Param.inspect_map_eq_iff {as bs : List Param} :
    Json.mapNumbersItems f (as.map Param.inspect) = Json.mapNumbersItems f (bs.map Param.inspect)
      ↔ as.map Param.outline = bs.map Param.outline := by
  induction as generalizing bs with
  | nil =>
      cases bs with
      | nil => simp
      | cons b bs => simp [Json.mapNumbersItems]
  | cons a as ih =>
      cases bs with
      | nil => simp [Json.mapNumbersItems]
      | cons b bs =>
          rw [List.map_cons, List.map_cons, Json.mapNumbersItems, Json.mapNumbersItems,
            List.cons.injEq, Param.inspect_eq_iff, ih, List.map_cons, List.map_cons,
            List.cons.injEq]

theorem ParamList.inspect_eq_iff {a b : ParamList} :
    a.inspect.mapNumbers f = b.inspect.mapNumbers f
      ↔ a.entries.map Param.outline = b.entries.map Param.outline := by
  simp only [ParamList.inspect, Json.mapNumbers_record_cons, Json.mapNumbers_arr,
    Param.inspect_map_eq_iff, and_true]

mutual

/-- Nodes are shown alike if and only if they have one outline. -/
theorem Node.inspect_eq_iff (a b : Node) :
    a.inspect.mapNumbers f = b.inspect.mapNumbers f ↔ a.outline f = b.outline f := by
  by_cases hkind : a.kind = b.kind
  · cases a with
    | int numeral =>
        cases b with
        | int other =>
            rw [Node.inspect, Node.inspect, leaf_eq_iff, Node.outline, Node.outline,
              Outline.int.injEq]
        | _ => simp [Node.kind] at hkind
    | float numeral =>
        cases b with
        | float other =>
            rw [Node.inspect, Node.inspect, leaf_eq_iff, Node.outline, Node.outline,
              Outline.float.injEq]
        | _ => simp [Node.kind] at hkind
    | operator op =>
        cases b with
        | operator other =>
            rw [Node.inspect, Node.inspect, Operator.inspect_eq_iff, Node.outline, Node.outline,
              Outline.operator.injEq]
        | _ => simp [Node.kind] at hkind
    | term name =>
        cases b with
        | term other =>
            rw [Node.inspect, Node.inspect, Term.inspect_eq_iff, Node.outline, Node.outline,
              Outline.term.injEq]
        | _ => simp [Node.kind] at hkind
    | call line head args =>
        cases b with
        | call line' head' args' =>
            simp only [Node.inspect, Json.mapNumbers_record_cons, Json.mapNumbers_arr,
              Node.inspectAll_eq_iff args args', Head.inspect_eq_iff, and_true, Node.outline,
              Outline.call.injEq]
            exact And.comm
        | _ => simp [Node.kind] at hkind
    | param entry =>
        cases b with
        | param other =>
            rw [Node.inspect, Node.inspect, Param.inspect_eq_iff, Param.outline, Param.outline,
              Prod.mk.injEq, Node.outline, Node.outline, Outline.param.injEq]
        | _ => simp [Node.kind] at hkind
    | paramList params =>
        cases b with
        | paramList other =>
            rw [Node.inspect, Node.inspect, ParamList.inspect_eq_iff, Node.outline, Node.outline,
              Outline.paramList.injEq]
        | _ => simp [Node.kind] at hkind
    | definition line name params body =>
        cases b with
        | definition line' name' params' body' =>
            simp only [Node.inspect, Json.mapNumbers_record_cons, Json.mapNumbers_arr,
              Node.inspectAll_eq_iff body body', Term.inspect_eq_iff, ParamList.inspect_eq_iff,
              and_true, Node.outline, Outline.definition.injEq]
            constructor
            · rintro ⟨hparams, hbody, hname⟩
              exact ⟨hname, hparams, hbody⟩
            · rintro ⟨hname, hparams, hbody⟩
              exact ⟨hparams, hbody, hname⟩
        | _ => simp [Node.kind] at hkind
  · apply iff_of_false
    · intro h
      exact hkind (Node.kind_eq_of_inspect h)
    · intro h
      apply hkind
      rw [← a.kind_outline f, ← b.kind_outline f, h]

theorem Node.inspectAll_eq_iff (as bs : List Node) :
    Json.mapNumbersItems f (Node.inspectAll as) = Json.mapNumbersItems f (Node.inspectAll bs)
      ↔ Node.outlineAll f as = Node.outlineAll f bs := by
  match as, bs with
  | [], [] => simp [Node.inspectAll, Node.outlineAll]
  | [], _ :: _ => simp [Node.inspectAll, Node.outlineAll, Json.mapNumbersItems]
  | _ :: _, [] => simp [Node.inspectAll, Node.outlineAll, Json.mapNumbersItems]
  | a :: as, b :: bs =>
      rw [Node.inspectAll, Node.inspectAll, Json.mapNumbersItems, Json.mapNumbersItems,
        List.cons.injEq, Node.inspect_eq_iff a b, Node.inspectAll_eq_iff as bs, Node.outlineAll,
        Node.outlineAll, List.cons.injEq]

end

end Equal

theorem inspection_mapNumbers_eq_iff (f : List Char → List Char) (a b : List Node) :
    (inspection a).mapNumbers f = (inspection b).mapNumbers f
      ↔ Node.outlineAll f a = Node.outlineAll f b := by
  rw [inspection, inspection, Json.mapNumbers_arr, Node.inspectAll_eq_iff]

/-- Two programs are shown alike if and only if they are equal up to lines and to the spelling of
    numerals with one value. This is so for forms that are equal as written (the literals in values
    are kept) and for forms that are equal as values (the two zeros are one number). Nodes of
    different kinds, and heads of different kinds, are never shown alike, also as values. -/
theorem inspection_eq_iff (a b : List Node) :
    (inspection a = inspection b ↔ Node.outlineAll id a = Node.outlineAll id b)
      ∧ ((inspection a).Equal (inspection b)
        ↔ Node.outlineAll Json.numberOf a = Node.outlineAll Json.numberOf b)
      ∧ (∀ x y : Node, x.inspect.Equal y.inspect → x.kind = y.kind)
      ∧ ∀ x y : Head, x.inspect.Equal y.inspect → x.toNode.kind = y.toNode.kind := by
  refine ⟨?_, inspection_mapNumbers_eq_iff Json.numberOf a b, ?_, ?_⟩
  · have hwritten := inspection_mapNumbers_eq_iff id a b
    rwa [Json.mapNumbers_id, Json.mapNumbers_id] at hwritten
  · intro x y h
    exact Node.kind_eq_of_inspect h
  · intro x y h
    exact Head.kind_eq_of_inspect h

/-- Lines and zeros in front are not shown. -/
example : Node.outlineAll id [.int ⟨1, "05"⟩, .term ⟨2, "x"⟩]
    = Node.outlineAll id [.int ⟨3, "+5"⟩, .term ⟨3, "x"⟩] := by
  rfl

end DefForms
